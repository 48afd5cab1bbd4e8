import LayoutLexer.Proofs.Dispatch
import LayoutLexer.Proofs.Rendering

namespace LayoutLexer

/-!
# How far a match looks ahead

A token is the longest match against all of the text behind it. Still, little of
that text counts. A beginning of a spelling is a spelling again, or becomes one
with its next character (`Spells.exists_beginning`): only `3.` and `!` are begun
without being complete. So a match that stops short of a place is settled by the
text up to that place and one character more (`longestMatch_of_take_eq`), and it
stays the same when the text is cut off at the place or goes on with a separator.

What holds for one match holds for all tokens before a place. `CutsInto` says that
the text in front of the place is cut into some tokens; it is so in front of any
other text that keeps the matches (`CutsInto.of_keepsMatches`).
-/

/-! ### Beginnings of spellings -/

section

variable {text : List Char}
variable {length : Nat}

theorem Shape.take_mem_word
    (matched : text ∈ Shape.word.matches')
    (positive : 0 < length) :
    text.take length ∈ Shape.word.matches' := by
  obtain ⟨c, rest, rfl, starts, continues⟩ := Shape.mem_word.mp matched
  obtain ⟨fewer, rfl⟩ := Nat.exists_eq_add_one.mpr positive
  refine Shape.mem_word.mpr ⟨c, rest.take fewer, rfl, starts, ?_⟩
  intro later member
  exact continues later (List.mem_of_mem_take member)

theorem Digits.take
    (digits : Digits text)
    (length : Nat) :
    Digits (text.take length) :=
  fun c member => digits c (List.mem_of_mem_take member)

theorem take_ne_nil
    (present : text ≠ [])
    (positive : 0 < length) :
    text.take length ≠ [] := by
  simp [present, Nat.ne_of_gt positive]

/--
A beginning of a decimal fraction is a number or a fraction, unless it ends in
the point: then the next digit completes it.
-/
theorem exists_beginning_of_fraction
    {whole fraction : List Char}
    (wholeDigits : Digits whole)
    (present : fraction ≠ [])
    (fractionDigits : Digits fraction)
    (positive : 0 < length) :
    ∃ reached kind,
      length ≤ reached ∧
        reached ≤ length + 1 ∧
        Spells kind ((whole ++ '.' :: fraction).take reached) := by
  -- A fraction that is cut behind its point keeps at least one digit.
  have behindPoint :
      ∀ {digits}, 0 < digits →
        Spells .float
          ((whole ++ '.' :: fraction).take (whole.length + 1 + digits)) := by
    intro digits some
    have cut :
        (whole ++ '.' :: fraction).take (whole.length + 1 + digits) =
          whole ++ '.' :: fraction.take digits := by
      rw [Nat.add_assoc, List.take_length_add_append, Nat.add_comm 1 digits,
        List.take_succ_cons]
    rw [cut]
    exact .float wholeDigits (take_ne_nil present some) (fractionDigits.take digits)
  rcases Nat.lt_trichotomy length (whole.length + 1) with inWhole | atPoint | behind
  · have cut :
        (whole ++ '.' :: fraction).take length = whole.take length :=
      List.take_append_of_le_length (Nat.le_of_lt_succ inWhole)
    have someDigit : whole ≠ [] := by
      rintro rfl
      exact Nat.not_lt.mpr positive inWhole
    refine ⟨length, .number, Nat.le_refl _, Nat.le_succ _, ?_⟩
    rw [cut]
    exact .number (take_ne_nil someDigit positive) (wholeDigits.take length)
  · exact ⟨length + 1, .float, Nat.le_succ _, Nat.le_refl _,
      atPoint ▸ behindPoint Nat.one_pos⟩
  · obtain ⟨digits, rfl⟩ := Nat.exists_eq_add_of_lt behind
    exact ⟨_, .float, Nat.le_refl _, Nat.le_succ _, behindPoint (Nat.succ_pos digits)⟩

/-- Operators and punctuation marks have at most two characters. -/
theorem length_le_two_of_admits
    (isSymbol : Opening.symbol.Admits text) :
    text.length ≤ 2 := by
  rcases isSymbol with ⟨symbol, rfl⟩ | ⟨mark, rfl⟩
  · cases symbol <;> decide
  · cases mark <;> decide

/-- A beginning of a spelling is one, or is one with the next character. -/
theorem Spells.exists_beginning
    {kind : TokenKind}
    (spells : Spells kind text)
    (positive : 0 < length)
    (within : length ≤ text.length) :
    ∃ reached other,
      length ≤ reached ∧
        reached ≤ length + 1 ∧
        Spells other (text.take reached) := by
  obtain ⟨opened, _, admits⟩ := spells.opening
  cases opened with
  | word =>
      exact ⟨length, _, Nat.le_refl _, Nat.le_succ _,
        spells_wordKind (Shape.take_mem_word admits positive)⟩
  | figure =>
      rcases admits with isFraction | isNumber
      · obtain ⟨whole, fraction, rfl, wholeDigits, present, fractionDigits⟩ :=
          Shape.mem_fraction.mp isFraction
        exact exists_beginning_of_fraction wholeDigits present fractionDigits positive
      · obtain ⟨present, digits⟩ := Shape.mem_number.mp isNumber
        exact ⟨length, .number, Nat.le_refl _, Nat.le_succ _,
          .number (take_ne_nil present positive) (digits.take length)⟩
  | symbol =>
      have short := length_le_two_of_admits admits
      refine ⟨text.length, kind, within, by omega, ?_⟩
      rwa [List.take_length]

end

/-! ### What settles a match -/

section

variable {text other before behind : List Char}
variable {kind : TokenKind}
variable {length : Nat}

/-- What spells a token at the start of a text is no longer than its match. -/
theorem Spells.length_le
    {word : List Char}
    (spells : Spells kind word)
    (begins : word <+: text) :
    word.length ≤ (longestMatch Rule.all text).length :=
  (Rule.arranged_all.munches text).longest kind word spells begins

/--
A match that is shorter than some length depends on that many characters and the
next one.
-/
theorem longestMatch_of_take_eq
    (positive : 0 < length)
    (shorter : (longestMatch Rule.all text).length < length)
    (same : other.take (length + 1) = text.take (length + 1)) :
    longestMatch Rule.all other = longestMatch Rule.all text := by
  have sameBeginning :
      ∀ {count}, count ≤ length + 1 → other.take count = text.take count := by
    intro count within
    have cut := congrArg (List.take count) same
    rwa [List.take_take, List.take_take, Nat.min_eq_left within] at cut
  refine (Rule.arranged_all.munches other).unique ⟨?_, ?_⟩
  · intro kind found isFound
    rw [isFound] at shorter
    have short : found < length := shorter
    have within := length_le_of_longestMatch isFound
    have cut := sameBeginning (Nat.le_succ_of_le (Nat.le_of_lt short))
    have lengths := congrArg List.length cut
    rw [List.length_take, List.length_take, Nat.min_eq_left within] at lengths
    exact ⟨by omega, cut ▸ spells_of_longestMatch isFound⟩
  · intro kind word spells begins
    have beginning : ∀ {count}, count ≤ length + 1 → word.take count <+: text := by
      intro count within
      have cut : word.take count <+: other.take count := begins.take count
      rw [sameBeginning within] at cut
      exact cut.trans (List.take_prefix count text)
    by_cases short : word.length ≤ length
    · have begun := beginning (Nat.le_succ_of_le short)
      rw [List.take_length] at begun
      exact spells.length_le begun
    · -- A longer word has a beginning that is a match in both texts, and too long.
      obtain ⟨reached, shortened, atLeast, atMost, begun⟩ :=
        spells.exists_beginning positive (Nat.le_of_not_le short)
      have tooLong := begun.length_le (beginning atMost)
      rw [List.length_take] at tooLong
      omega

/-- A match does not need the text behind it. -/
theorem longestMatch_of_append
    (found : longestMatch Rule.all (before ++ behind) = some (kind, length))
    (within : length ≤ before.length) :
    longestMatch Rule.all before = some (kind, length) := by
  refine (Rule.arranged_all.munches before).unique ⟨?_, ?_⟩
  · rintro _ _ ⟨⟩
    have spells := spells_of_longestMatch found
    rw [List.take_append_of_le_length within] at spells
    exact ⟨within, spells⟩
  · intro other word spells begins
    have bound := spells.length_le (begins.trans (List.prefix_append before behind))
    rwa [found] at bound

end

/-! ### Texts that keep the matches before them -/

/-- What is matched before a text is matched before the other one, too. -/
def KeepsMatches (behind other : List Char) : Prop :=
  ∀ before kind length,
    length ≤ before.length →
    longestMatch Rule.all (before ++ behind) = some (kind, length) →
      longestMatch Rule.all (before ++ other) = some (kind, length)

namespace KeepsMatches

variable {behind other third : List Char}

theorem trans
    (first : KeepsMatches behind other)
    (second : KeepsMatches other third) :
    KeepsMatches behind third :=
  fun before kind length within found =>
    second before kind length within (first before kind length within found)

/-- The end of the text and a separator keep all matches. -/
theorem of_separated
    (separated : Separated other) :
    KeepsMatches behind other := by
  intro before kind length within found
  rw [longestMatch_append separated]
  exact longestMatch_of_append found within

/-- More text behind a separator keeps all matches. -/
theorem append
    {tail : List Char}
    (separated : Separated tail) :
    KeepsMatches behind (behind ++ tail) := by
  intro before kind length _ found
  rw [← List.append_assoc, longestMatch_append separated]
  exact found

/-- And so does less text behind a separator. -/
theorem of_append
    {tail : List Char}
    (separated : Separated tail) :
    KeepsMatches (behind ++ tail) behind := by
  intro before kind length _ found
  rwa [← List.append_assoc, longestMatch_append separated] at found

/-- So does a text that is the same up to its second character. -/
theorem of_head
    {c : Char}
    {rest otherRest : List Char}
    (sameNext : otherRest.head? = rest.head?) :
    KeepsMatches (c :: rest) (c :: otherRest) := by
  intro before kind length within found
  have same :
      (before ++ c :: otherRest).take (before.length + 1 + 1) =
        (before ++ c :: rest).take (before.length + 1 + 1) := by
    rw [Nat.add_assoc, List.take_length_add_append, List.take_length_add_append]
    cases rest <;> cases otherRest <;> simp_all
  rw [← found]
  refine longestMatch_of_take_eq (Nat.succ_pos before.length) ?_ same
  rw [found]
  exact Nat.lt_succ_of_le within

end KeepsMatches

/-- Whether a token starts with a character is settled by it and the next one. -/
theorem longestMatch_eq_none_of_head
    {c : Char}
    {rest otherRest : List Char}
    (sameNext : otherRest.head? = rest.head?)
    (unmatched : longestMatch Rule.all (c :: rest) = none) :
    longestMatch Rule.all (c :: otherRest) = none := by
  have same : (c :: otherRest).take (1 + 1) = (c :: rest).take (1 + 1) := by
    cases rest <;> cases otherRest <;> simp_all
  rw [← unmatched]
  refine longestMatch_of_take_eq Nat.one_pos ?_ same
  rw [unmatched]
  exact Nat.one_pos

/-! ### Texts that are cut into tokens -/

/--
In front of some text, the unread text is cut into these tokens, and nothing but
blanks is left of it.
-/
inductive CutsInto (behind : List Char) : Cursor → List Token → Prop where
  | finished {cursor : Cursor} :
      cursor.rest = [] →
      CutsInto behind cursor []
  | blank {cursor : Cursor} {c : Char} {rest : List Char} {tokens : List Token} :
      cursor.rest = c :: rest →
      isBlank c = true →
      CutsInto behind (cursor.advance 1) tokens →
      CutsInto behind cursor tokens
  | token {cursor : Cursor} {kind : TokenKind} {length : Nat}
      {tokens : List Token} :
      length ≤ cursor.rest.length →
      longestMatch Rule.all (cursor.rest ++ behind) = some (kind, length) →
      CutsInto behind (cursor.advance length) tokens →
      CutsInto behind cursor (cursor.token kind length :: tokens)

/-- What is read and what is left make up the unread text. -/
theorem Cursor.rest_eq_of_advance
    {cursor : Cursor}
    {length : Nat}
    {before behind : List Char}
    (isRest : (cursor.advance length).rest = before ++ behind) :
    cursor.rest = cursor.rest.take length ++ before ++ behind := by
  rw [List.append_assoc, ← isRest, advance, List.take_append_drop]

theorem Cursor.offset_advance_add
    (cursor : Cursor)
    (length : Nat)
    (before : List Char) :
    (cursor.advance length).offset + byteLength before =
      cursor.offset + byteLength (cursor.rest.take length ++ before) := by
  rw [byteLength_append, ← Nat.add_assoc]
  rfl

/-- The place behind the unread text, in front of another text. -/
def Cursor.endsAt (cursor : Cursor) (behind : List Char) : Cursor :=
  (cursor.advance cursor.rest.length).followedBy behind

theorem Cursor.endsAt_eq
    (cursor : Cursor)
    (behind : List Char) :
    cursor.endsAt behind =
      ⟨behind, cursor.offset + byteLength cursor.rest, cursor.line⟩ := by
  simp [endsAt, advance, followedBy]

theorem Cursor.endsAt_advance
    {cursor : Cursor}
    {length : Nat}
    (within : length ≤ cursor.rest.length)
    (behind : List Char) :
    (cursor.advance length).endsAt behind = cursor.endsAt behind := by
  rw [endsAt, advance_length_advance within, endsAt]

/-- The tokens of one text stand before those of another. -/
def Lexed.after (lexed : Lexed) (tokens : List Token) : Lexed :=
  { lexed with tokens := tokens ++ lexed.tokens }

/-- Where a match is found, a token comes first. -/
theorem lexemes_of_found
    {cursor : Cursor}
    {kind : TokenKind}
    {length : Nat}
    (found : longestMatch Rule.all cursor.rest = some (kind, length)) :
    lexemes cursor =
      (lexemes (cursor.advance length)).cons (cursor.token kind length) := by
  have spells := spells_of_longestMatch found
  cases ahead : cursor.rest with
  | nil =>
      rw [ahead, List.take_nil] at spells
      exact absurd rfl spells.ne_nil
  | cons c rest =>
      have positive := longestMatch_nonempty _ _ kind length found
      have first : c ∈ cursor.rest.take length := by
        obtain ⟨fewer, rfl⟩ := Nat.exists_eq_add_one.mpr positive
        rw [ahead, List.take_succ_cons]
        exact List.mem_cons_self
      exact lexemes_of_longestMatch ahead (spells.solid c first) found

namespace CutsInto

variable {behind other : List Char}
variable {cursor : Cursor}
variable {tokens : List Token}

/-- A text is cut into the same tokens in front of a text that keeps the matches. -/
theorem of_keepsMatches
    (cuts : CutsInto behind cursor tokens)
    (keeps : KeepsMatches behind other) :
    CutsInto other cursor tokens := by
  induction cuts with
  | finished atEnd =>
      exact .finished atEnd
  | blank ahead isBlank _ inductionHypothesis =>
      exact .blank ahead isBlank inductionHypothesis
  | token within found _ inductionHypothesis =>
      exact .token within (keeps _ _ _ within found) inductionHypothesis

/-- The tokens that a text is cut into come first, then those of the text behind. -/
theorem lexemes_eq
    (cuts : CutsInto behind cursor tokens) :
    lexemes (cursor.followedBy behind) =
      (lexemes (cursor.endsAt behind)).after tokens := by
  induction cuts with
  | @finished cursor atEnd =>
      have here : cursor.followedBy behind = cursor.endsAt behind := by
        rw [Cursor.endsAt, atEnd, List.length_nil, Cursor.advance_zero]
      rw [here]
      rfl
  | @blank cursor c rest _ ahead isBlank _ inductionHypothesis =>
      have within : 1 ≤ cursor.rest.length := by
        simp [ahead]
      have front : (cursor.followedBy behind).rest = c :: (rest ++ behind) := by
        simp [ahead]
      rw [lexemes_advance_one front isBlank, Cursor.advance_followedBy within,
        inductionHypothesis, Cursor.endsAt_advance within]
  | @token cursor kind length tokens within found _ inductionHypothesis =>
      have ahead :
          longestMatch Rule.all (cursor.followedBy behind).rest =
            some (kind, length) :=
        found
      rw [lexemes_of_found ahead, Cursor.advance_followedBy within,
        Cursor.token_followedBy within, inductionHypothesis,
        Cursor.endsAt_advance within]
      rfl

variable {before : List Char}

/-- A blank in front of a text does not change what it is cut into. -/
theorem blank_in_front
    {c : Char}
    {rest : List Char}
    (ahead : cursor.rest = c :: rest)
    (isBlank : isBlank c = true)
    (cuts : CutsInto behind ⟨before, (cursor.advance 1).offset, cursor.line⟩ tokens) :
    CutsInto behind ⟨cursor.rest.take 1 ++ before, cursor.offset, cursor.line⟩
      tokens := by
  have front : cursor.rest.take 1 ++ before = c :: before := by
    rw [ahead]
    rfl
  rw [front]
  refine .blank rfl isBlank ?_
  simpa [Cursor.advance, ahead] using cuts

/-- A match in front of a text is one more token. -/
theorem token_in_front
    {kind : TokenKind}
    {length : Nat}
    (found : longestMatch Rule.all cursor.rest = some (kind, length))
    (isRest : (cursor.advance length).rest = before ++ behind)
    (cuts :
      CutsInto behind ⟨before, (cursor.advance length).offset, cursor.line⟩ tokens) :
    CutsInto behind ⟨cursor.rest.take length ++ before, cursor.offset, cursor.line⟩
      (cursor.token kind length :: tokens) := by
  let front : Cursor :=
    ⟨cursor.rest.take length ++ before, cursor.offset, cursor.line⟩
  have whole := Cursor.rest_eq_of_advance isRest
  have taken : (cursor.rest.take length).length = length :=
    List.length_take_of_le (length_le_of_longestMatch found)
  have within : length ≤ front.rest.length := by
    simp [front, taken]
  have cut : front.rest.take length = cursor.rest.take length := by
    rw [whole, List.take_append_of_le_length within]
  have isToken : cursor.token kind length = front.token kind length := by
    simp only [Cursor.token, Cursor.spanOf, cut]
    rfl
  have advanced :
      front.advance length =
        ⟨before, (cursor.advance length).offset, cursor.line⟩ := by
    have passed := Cursor.advance_append (cursor.rest.take length) before
      cursor.offset cursor.line
    rw [taken] at passed
    exact passed
  rw [whole] at found
  rw [isToken]
  exact .token within found (advanced ▸ cuts)

end CutsInto

/-! ### Where cutting stops -/

/--
Cutting a text into tokens stops at its end, before a comment, and before a
character that starts no token.
-/
inductive StopsAt : List Char → Option Char → Prop where
  | finished :
      StopsAt [] none
  | comment (rest : List Char) :
      StopsAt ('#' :: rest) none
  | unmatched {c : Char} {rest : List Char} :
      isBlank c = false →
      c ≠ '#' →
      longestMatch Rule.all (c :: rest) = none →
      StopsAt (c :: rest) (some c)

/-- The error where cutting a text into tokens stops, if there is one. -/
def Cursor.failure? (cursor : Cursor) (failed? : Option Char) : Option SessionError :=
  failed?.map fun c => .lexical c cursor.line (cursor.spanOf 1)

theorem StopsAt.lexemes_eq
    {cursor : Cursor}
    {failed? : Option Char}
    (stops : StopsAt cursor.rest failed?) :
    lexemes cursor = ⟨[], cursor.failure? failed?⟩ := by
  rw [LayoutLexer.lexemes_eq]
  generalize cursor.rest = text at stops ⊢
  cases stops with
  | finished =>
      rfl
  | comment rest =>
      rfl
  | unmatched noBlank noMark unmatched =>
      simp [noBlank, noMark, unmatched, Cursor.failure?]

/-- The tokens that a text is cut into are all its tokens if cutting stops there. -/
theorem CutsInto.lexemes_of_stopsAt
    {behind : List Char}
    {cursor : Cursor}
    {tokens : List Token}
    {failed? : Option Char}
    (cuts : CutsInto behind cursor tokens)
    (stops : StopsAt behind failed?) :
    lexemes (cursor.followedBy behind) =
      ⟨tokens, (cursor.endsAt behind).failure? failed?⟩ := by
  have stopsBehind : StopsAt (cursor.endsAt behind).rest failed? := by
    rwa [Cursor.endsAt_eq]
  rw [cuts.lexemes_eq, stopsBehind.lexemes_eq]
  simp [Lexed.after]

section

variable {cursor : Cursor}

/-- Every text is cut into its tokens up to where cutting stops. -/
theorem exists_cutsInto
    (cursor : Cursor) :
    ∃ before behind failed?,
      cursor.rest = before ++ behind ∧
        CutsInto behind ⟨before, cursor.offset, cursor.line⟩
          (lexemes cursor).tokens ∧
        StopsAt behind failed? := by
  fun_induction lexemes cursor with
  | case1 cursor ahead =>
      exact ⟨[], [], none, ahead, .finished rfl, .finished⟩
  | case2 cursor c rest ahead blank inductionHypothesis =>
      obtain ⟨before, behind, failed?, isRest, cuts, stops⟩ := inductionHypothesis
      exact ⟨_, behind, failed?, Cursor.rest_eq_of_advance isRest,
        .blank_in_front ahead blank cuts, stops⟩
  | case3 cursor rest ahead noBlank =>
      exact ⟨[], '#' :: rest, none, ahead, .finished rfl, .comment rest⟩
  | case4 cursor c rest ahead noBlank noMark kind length found
      inductionHypothesis =>
      obtain ⟨before, behind, failed?, isRest, cuts, stops⟩ := inductionHypothesis
      rw [← longestMatch_eq_firstLongest] at found
      exact ⟨_, behind, failed?, Cursor.rest_eq_of_advance isRest,
        .token_in_front found isRest cuts, stops⟩
  | case5 cursor c rest ahead noBlank noMark unmatched =>
      rw [← longestMatch_eq_firstLongest, ahead] at unmatched
      exact ⟨[], c :: rest, some c, ahead, .finished rfl,
        .unmatched (by simpa using noBlank) noMark unmatched⟩

/-- Every text is cut into its tokens up to the end of any of them. -/
theorem exists_cutsInto_of_tokens
    {earlier later : List Token}
    {token : Token}
    (shape : (lexemes cursor).tokens = earlier ++ token :: later) :
    ∃ before behind,
      cursor.rest = before ++ behind ∧
        token.span.stop = cursor.offset + byteLength before ∧
        CutsInto behind ⟨before, cursor.offset, cursor.line⟩
          (earlier ++ [token]) := by
  fun_induction lexemes cursor generalizing earlier with
  | case1 =>
      simp at shape
  | case2 cursor c rest ahead blank inductionHypothesis =>
      obtain ⟨before, behind, isRest, stop, cuts⟩ := inductionHypothesis shape
      exact ⟨_, behind, Cursor.rest_eq_of_advance isRest,
        stop.trans (cursor.offset_advance_add 1 before),
        .blank_in_front ahead blank cuts⟩
  | case3 =>
      simp at shape
  | case4 cursor c rest ahead noBlank noMark kind length found
      inductionHypothesis =>
      rw [← longestMatch_eq_firstLongest] at found
      cases earlier with
      | nil =>
          obtain ⟨isToken, _⟩ := List.cons_eq_cons.mp shape
          have nothingBefore :
              (cursor.advance length).rest = [] ++ (cursor.advance length).rest :=
            rfl
          refine ⟨_, _, Cursor.rest_eq_of_advance nothingBefore, ?_,
            isToken ▸ .token_in_front found nothingBefore (.finished rfl)⟩
          rw [← isToken, List.append_nil]
          rfl
      | cons first earlier =>
          obtain ⟨rfl, isRest⟩ := List.cons_eq_cons.mp shape
          obtain ⟨before, behind, isBehind, stop, cuts⟩ := inductionHypothesis isRest
          exact ⟨_, behind, Cursor.rest_eq_of_advance isBehind,
            stop.trans (cursor.offset_advance_add length before),
            .token_in_front found isBehind cuts⟩
  | case5 =>
      simp at shape

end

/-! ### Lines that are cut into tokens -/

namespace Line

variable {line : Line}

/-- A line starts with the first part of its content, in front of the second. -/
theorem start_of_append
    {front behind : List Char}
    (content : line.content = front ++ behind) :
    line.start = Cursor.followedBy ⟨front, line.offset, line.number⟩ behind := by
  rw [start, content]
  rfl

/-- Every line is cut into its tokens; its error is that of where cutting stops. -/
theorem exists_cutsInto
    (line : Line) :
    ∃ front behind failed?,
      line.content = front ++ behind ∧
        CutsInto behind ⟨front, line.offset, line.number⟩ line.lexed.tokens ∧
        StopsAt behind failed? ∧
        line.lexed.error? =
          (Cursor.endsAt ⟨front, line.offset, line.number⟩ behind).failure? failed? := by
  obtain ⟨front, behind, failed?, content, cuts, stops⟩ :=
    LayoutLexer.exists_cutsInto line.start
  have read :=
    (congrArg lexemes (start_of_append content)).trans (cuts.lexemes_of_stopsAt stops)
  exact ⟨front, behind, failed?, content, cuts, stops, congrArg Lexed.error? read⟩

end Line

end LayoutLexer
