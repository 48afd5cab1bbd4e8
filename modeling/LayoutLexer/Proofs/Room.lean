import LayoutLexer.Proofs.Lookahead
import LayoutLexer.Proofs.SkippedLines
import LayoutLexer.Proofs.Surroundings

namespace LayoutLexer

/-!
# Room inside a line

Blanks behind a token and a comment at the end of a logical line take up room, and
that is all. Each token was matched against all that stood behind it, but what is put
in starts with a separator, so all matches before it are kept. What stands behind it
is found further on, and the blanks at the start of the line, which decide on its
block, are out of reach.

`Line.HasRoom` says of a line what this means for its tokens. Then the sources with and
without the text are alike (`Line.HasRoom.alike`).
-/

open Session

/-! ### Putting text into a source -/

/-- A source with some text put in at a place. -/
def insertAt (source : String) (place : Nat) (text : String) : String :=
  Span.textIn ⟨0, place⟩ source ++ text ++
    Span.textIn ⟨place, source.utf8ByteSize⟩ source

theorem toList_insertAt
    {source : String}
    {front behind : List Char}
    (shape : source.toList = front ++ behind)
    (text : String) :
    (insertAt source (byteLength front) text).toList =
      front ++ (text.toList ++ behind) := by
  have atStart : source.toList = [] ++ (front ++ behind) := shape
  have atEnd : source.toList = front ++ (behind ++ []) := by
    rw [shape, List.append_nil]
  have first := textIn_eq atStart
  have second := textIn_eq atEnd
  rw [byteLength_nil, Nat.zero_add] at first
  rw [insertAt, utf8ByteSize_eq_byteLength, shape, byteLength_append, first, second]
  simp

/-! ### Tokens before a place -/

theorem Blanks.separated
    {blanks : List Char}
    (areBlanks : Blanks blanks)
    (present : blanks ≠ [])
    (behind : List Char) :
    Separated (blanks ++ behind) := by
  intro c first
  rw [List.head?_append_of_ne_nil blanks present] at first
  have blank := areBlanks c (List.mem_of_head? first)
  simp [separates, blank]

namespace CutsInto

variable {behind : List Char}
variable {cursor : Cursor}
variable {tokens : List Token}

theorem rest_ne_nil
    (cuts : CutsInto behind cursor tokens)
    (present : tokens ≠ []) :
    cursor.rest ≠ [] := by
  cases cuts with
  | finished =>
      exact absurd rfl present
  | blank ahead =>
      rw [ahead]
      exact List.cons_ne_nil _ _
  | @token _ kind length _ within found =>
      have positive := longestMatch_nonempty _ _ kind length found
      exact List.ne_nil_of_length_pos (Nat.lt_of_lt_of_le positive within)

/-- The tokens that a text is cut into start before its end. -/
theorem start_lt
    {token : Token}
    (cuts : CutsInto behind cursor tokens)
    (member : token ∈ tokens) :
    token.span.start < cursor.offset + byteLength cursor.rest := by
  have advanced :
      ∀ (cursor : Cursor) (count : Nat),
        (cursor.advance count).offset + byteLength (cursor.advance count).rest =
          cursor.offset + byteLength cursor.rest := by
    intro cursor count
    rw [← byteLength_take_add_drop cursor.rest count, ← Nat.add_assoc]
    rfl
  induction cuts with
  | finished =>
      cases member
  | blank _ _ _ inductionHypothesis =>
      rw [← advanced _ 1]
      exact inductionHypothesis member
  | @token _ _ length _ within found cuts inductionHypothesis =>
      rcases List.mem_cons.mp member with rfl | later
      · have present := (token within found cuts).rest_ne_nil (List.cons_ne_nil _ _)
        exact Nat.lt_add_of_pos_right (byteLength_pos present)
      · rw [← advanced _ length]
        exact inductionHypothesis later

/-- The leading run of a text with tokens ends before them. -/
theorem takeWhile_append
    (cuts : CutsInto behind cursor tokens)
    (present : tokens ≠ [])
    (tail : List Char) :
    (cursor.rest ++ tail).takeWhile isBlank = cursor.rest.takeWhile isBlank := by
  induction cuts with
  | finished =>
      exact absurd rfl present
  | @blank cursor c rest _ ahead blank _ inductionHypothesis =>
      have further : (cursor.advance 1).rest = rest := by
        rw [Cursor.advance, ahead]
        rfl
      have same := inductionHypothesis present
      rw [further] at same
      rw [ahead, List.cons_append, List.takeWhile_cons_of_pos blank,
        List.takeWhile_cons_of_pos blank, same]
  | @token cursor kind length _ within found =>
      have positive := longestMatch_nonempty _ _ kind length found
      cases ahead : cursor.rest with
      | nil =>
          rw [ahead] at within
          exact absurd within (Nat.not_le.mpr positive)
      | cons c rest =>
          have noBlank : ¬ isBlank c = true := by
            intro blank
            obtain ⟨fewer, rfl⟩ := Nat.exists_eq_add_one.mpr positive
            have spells := spells_of_longestMatch found
            rw [ahead, List.cons_append, List.take_succ_cons] at spells
            have solid := spells.solid c List.mem_cons_self
            simp [separates, blank] at solid
          rw [List.cons_append, List.takeWhile_cons_of_neg noBlank,
            List.takeWhile_cons_of_neg noBlank]

/-- Blanks behind the tokens keep them, and move the tokens of the text behind. -/
theorem lexemes_followedBy_blanks
    {blanks : List Char}
    (cuts : CutsInto behind cursor tokens)
    (present : blanks ≠ [])
    (areBlanks : Blanks blanks) :
    lexemes (cursor.followedBy (blanks ++ behind)) =
      ((lexemes (cursor.endsAt behind)).movedBy ⟨0, byteLength blanks⟩).after tokens := by
  have separated := areBlanks.separated present behind
  rw [(cuts.of_keepsMatches (.of_separated separated)).lexemes_eq, ← lexemes_movedBy,
    Cursor.endsAt_eq, Cursor.endsAt_eq, lexemes_blanks areBlanks]
  rfl

end CutsInto

section

variable {place : Nat}
variable {displacement : Displacement}

theorem map_movedFrom_of_lt
    {tokens : List Token}
    (early : ∀ token ∈ tokens, token.span.start < place) :
    tokens.map (·.movedFrom place displacement) = tokens := by
  have stays : tokens.map (·.movedFrom place displacement) = tokens.map id :=
    List.map_congr_left fun token member => if_neg (Nat.not_le.mpr (early token member))
  rw [stays, List.map_id]

/-- Tokens before a place stay, those behind it are moved. -/
theorem map_movedFrom_append
    {kept moved : List Token}
    (early : ∀ token ∈ kept, token.span.start < place)
    (late : ∀ token ∈ moved, place ≤ token.span.start) :
    (kept ++ moved).map (·.movedFrom place displacement) =
      kept ++ moved.map (·.movedBy displacement) := by
  have goes :
      moved.map (·.movedFrom place displacement) = moved.map (·.movedBy displacement) :=
    List.map_congr_left fun token member => if_pos (late token member)
  rw [List.map_append, map_movedFrom_of_lt early, goes]

end

namespace Line.Amid

variable {source : String}
variable {before more : List Char}
variable {line : Line}

/-- The lines in front of a line end before it. -/
theorem ending_lt
    {earlier : Line}
    (amid : line.Amid source before more)
    (member : earlier ∈ remainingLines before 0 1) :
    earlier.ending.offset < line.offset := by
  have isLine : earlier ∈ logicalLines (String.ofList before) := by
    rwa [logicalLines_eq_remainingLines, String.toList_ofList]
  have whole : WholeLines (String.ofList before).toList := by
    rw [String.toList_ofList]
    exact amid.whole
  have ends := (standsIn_of_mem_logicalLines isLine).ending_lt whole
  rwa [LayoutLexer.utf8ByteSize_ofList, ← amid.offset] at ends

/-- The lines behind a line start behind its end. -/
theorem ending_le
    {later : Line}
    (amid : line.Amid source before more)
    (logical : line.isLogical = true)
    (member : later ∈ remainingLines more (line.next more).offset (line.next more).line) :
    line.ending.offset ≤ later.offset := by
  have ordered := amid.logicalLines_eq logical ▸ logicalLines_ordered source
  have isBefore :=
    List.rel_of_pairwise_cons (List.pairwise_append.mp ordered).2.1 member
  have ends := isBefore.offset
  rw [byteLength_append, ← Nat.add_assoc] at ends
  exact Nat.le_trans (Nat.le_add_right _ _) ends

/-- A source does not end before its lines do. -/
theorem ending_le_sourceEnd
    (amid : line.Amid source before more) :
    line.ending.offset ≤ (sourceEnd source).offset := by
  simp [ending, sourceEnd, amid.text, amid.offset]

end Line.Amid

/-! ### Lines with room -/

/-- The same line, with some text put into its content. -/
def Line.spaced (line : Line) (front inserted behind : List Char) : Line :=
  { line with content := front ++ (inserted ++ behind) }

/-- Text in a line that takes up room and does nothing else. -/
structure Line.HasRoom (line : Line) (front inserted behind : List Char) : Prop where
  content : line.content = front ++ behind
  begins : front ≠ []
  present : inserted ≠ []
  noLineFeed : '\n' ∉ inserted
  noReturn : inserted.getLast? ≠ some '\r'
  leadingRun : (line.spaced front inserted behind).leadingRun = line.leadingRun
  complete : line.lexed.error? = none
  lexed :
    (line.spaced front inserted behind).lexed =
      ⟨line.lexed.tokens.map
        (·.movedFrom (line.offset + byteLength front) ⟨0, byteLength inserted⟩), none⟩

namespace Line.HasRoom

variable {line : Line}
variable {front inserted behind : List Char}

/-- With the text put in, the line ends where it did. -/
theorem firstLine
    {text terminator more : List Char}
    (room : line.HasRoom front inserted behind)
    (first : FirstLine text line.content terminator more) :
    FirstLine (front ++ (inserted ++ behind) ++ (terminator ++ more))
      (front ++ (inserted ++ behind)) terminator more := by
  have noFeed : '\n' ∉ front ++ (inserted ++ behind) := by
    have noFeedHere := first.endsBefore.noLineFeed
    rw [room.content, List.mem_append] at noFeedHere
    simp only [List.mem_append, not_or] at noFeedHere ⊢
    exact ⟨noFeedHere.1, room.noLineFeed, noFeedHere.2⟩
  refine first.withContent (by simp [room.begins]) noFeed ?_
  intro feeds
  by_cases atEnd : behind = []
  · rw [atEnd, List.append_nil, List.getLast?_append_of_ne_nil _ room.present]
    exact room.noReturn
  · have noReturn := first.noReturn feeds
    rw [room.content, List.getLast?_append_of_ne_nil _ atEnd] at noReturn
    rwa [← List.append_assoc, List.getLast?_append_of_ne_nil _ atEnd]

/-- With the text put in, the line is found at its place. -/
theorem amid
    {source : String}
    {before more : List Char}
    (room : line.HasRoom front inserted behind)
    (amid : line.Amid source before more) :
    (line.spaced front inserted behind).Amid
      (insertAt source (line.offset + byteLength front) (String.ofList inserted))
      before more where
  text := by
    have shape :
        source.toList = (before ++ front) ++ (behind ++ (line.terminator ++ more)) := by
      rw [amid.text, room.content]
      simp
    rw [amid.offset, ← byteLength_append, toList_insertAt shape]
    simp [spaced]
  whole := amid.whole
  first := room.firstLine amid.first
  offset := amid.offset
  number := amid.number

/-- The text is put in before the line ends. -/
theorem place_le
    (room : line.HasRoom front inserted behind) :
    line.offset + byteLength front ≤ line.ending.offset := by
  rw [ending, room.content, byteLength_append, ← Nat.add_assoc]
  exact Nat.le_add_right _ _

/-- With the text put in, the line ends so much further on. -/
theorem ending_spaced
    (room : line.HasRoom front inserted behind) :
    (line.spaced front inserted behind).ending =
      line.ending.movedBy ⟨0, byteLength inserted⟩ := by
  simp [ending, spaced, Cursor.movedBy, room.content, Nat.add_comm, Nat.add_left_comm]

theorem newline_spaced
    (room : line.HasRoom front inserted behind) :
    pushedBy (line.spaced front inserted behind).newline =
      (pushedBy line.newline).map
        (·.movedFrom (line.offset + byteLength front) ⟨0, byteLength inserted⟩) := by
  by_cases terminated : line.terminator = []
  · have alsoOpen : (line.spaced front inserted behind).terminator = [] := terminated
    simp [newline, terminated, alsoOpen]
  · have alsoEnded : (line.spaced front inserted behind).terminator ≠ [] := terminated
    rw [newline_of_terminated terminated, newline_of_terminated alsoEnded,
      room.ending_spaced, Cursor.token_movedBy, List.map_singleton]
    exact congrArg (fun token => [token]) (if_pos room.place_le).symm

/-- A line is like the one with the text put in. -/
theorem lineAlike
    (room : line.HasRoom front inserted behind) :
    line.Alike
      (.ofMaps
        (·.movedFrom (line.offset + byteLength front) ⟨0, byteLength inserted⟩)
        (·.movedFrom (line.offset + byteLength front) ⟨0, byteLength inserted⟩))
      (line.spaced front inserted behind) := by
  -- What the width pushes, and what it fails with, is found at the start of the line.
  have starts : ¬ line.offset + byteLength front ≤ line.offset :=
    Nat.not_le.mpr (Nat.lt_add_of_pos_right (byteLength_pos room.begins))
  exact {
    width := width_of_leadingRun room.leadingRun
    layout := by
      intro kind _
      rw [token_of_leadingRun room.leadingRun rfl rfl]
      exact (if_neg starts).symm
    lexed := by
      rw [room.lexed]
      exact forall₂_eq_map_iff.mpr rfl
    error := by
      rw [room.lexed, room.complete]
      exact .none
    newline := forall₂_eq_map_iff.mpr room.newline_spaced
    misfit := by
      intro mismatch
      have levels : mismatch.mapWidths id = mismatch := by
        simp [IndentMismatch.mapWidths]
      rw [Likeness.ofMaps, levels, misfit_of_leadingRun room.leadingRun rfl rfl]
      exact (if_neg starts).symm
  }

theorem isLogical_spaced
    (room : line.HasRoom front inserted behind)
    (logical : line.isLogical = true) :
    (line.spaced front inserted behind).isLogical = true := by
  rw [← Bool.not_eq_false]
  intro skipped
  have noTokens := lexed_of_not_isLogical skipped
  rw [room.lexed, Lexed.mk.injEq] at noTokens
  exact lexed_tokens_ne_nil logical room.complete (List.map_eq_nil_iff.mp noTokens.1)

/-- The source ends so much further on. -/
theorem sourceEnd_insertAt
    {source : String}
    {before more : List Char}
    (room : line.HasRoom front inserted behind)
    (amid : line.Amid source before more) :
    sourceEnd
        (insertAt source (line.offset + byteLength front) (String.ofList inserted)) =
      (sourceEnd source).movedBy ⟨0, byteLength inserted⟩ := by
  have noFeed : inserted.count '\n' = 0 :=
    List.count_eq_zero.mpr room.noLineFeed
  rw [sourceEnd, sourceEnd, (room.amid amid).text, amid.text, room.content]
  simp [spaced, Cursor.movedBy, noFeed, Nat.add_comm, Nat.add_left_comm]

/-- A source is like the one with the text put into a logical line. -/
theorem alike
    {source : String}
    {before more : List Char}
    (room : line.HasRoom front inserted behind)
    (amid : line.Amid source before more)
    (logical : line.isLogical = true) :
    LayoutLexer.Alike
      (.ofMaps
        (·.movedFrom (line.offset + byteLength front) ⟨0, byteLength inserted⟩)
        (·.movedFrom (line.offset + byteLength front) ⟨0, byteLength inserted⟩))
      source
      (insertAt source (line.offset + byteLength front) (String.ofList inserted)) where
  lines := by
    have later :
        remainingLines more ((line.spaced front inserted behind).next more).offset
            ((line.spaced front inserted behind).next more).line =
          (remainingLines more (line.next more).offset (line.next more).line).map
            (·.movedBy ⟨0, byteLength inserted⟩) := by
      rw [← remainingLines_movedBy]
      congr 1
      simp [next, spaced, room.content, Nat.add_comm, Nat.add_left_comm]
    rw [amid.logicalLines_eq logical,
      (room.amid amid).logicalLines_eq (room.isLogical_spaced logical), later]
    refine List.rel_append ?_ (.cons room.lineAlike ?_)
    · rw [List.forall₂_same]
      intro earlier member
      exact alike_movedFrom_of_lt
        (Nat.lt_of_lt_of_le (amid.ending_lt member) (Nat.le_add_right _ _))
    · rw [List.forall₂_map_right_iff, List.forall₂_same]
      intro later member
      exact alike_movedFrom_of_le
        (Nat.le_trans room.place_le (amid.ending_le logical member))
  ending := by
    intro kind
    have behindPlace := Nat.le_trans room.place_le amid.ending_le_sourceEnd
    rw [room.sourceEnd_insertAt amid, Cursor.token_movedBy]
    exact (if_pos behindPlace).symm

end Line.HasRoom

/-! ### Where there is room -/

namespace Line

variable {line : Line}

/-- Behind every token of a line there is room for blanks. -/
theorem exists_hasRoom_of_tokens
    {earlier later : List Token}
    {token : Token}
    {inserted : List Char}
    (complete : line.lexed.error? = none)
    (shape : line.lexed.tokens = earlier ++ token :: later)
    (present : inserted ≠ [])
    (blanks : Blanks inserted) :
    ∃ front behind,
      token.span.stop = line.offset + byteLength front ∧
        line.HasRoom front inserted behind := by
  obtain ⟨front, behind, content, isPlace, cuts⟩ :
      ∃ front behind,
        line.content = front ++ behind ∧
          token.span.stop = line.offset + byteLength front ∧
          CutsInto behind ⟨front, line.offset, line.number⟩ (earlier ++ [token]) :=
    exists_cutsInto_of_tokens shape
  have someToken : earlier ++ [token] ≠ [] :=
    List.concat_ne_nil token earlier
  have noSeparator : ∀ c ∈ inserted, c ≠ '\n' ∧ c ≠ '\r' := by
    intro c member
    have blank := blanks c member
    constructor <;> rintro rfl <;> cases blank
  let start : Cursor := ⟨front, line.offset, line.number⟩
  have atPlace : (start.endsAt behind).offset = line.offset + byteLength front := by
    rw [Cursor.endsAt_eq]
  have read : line.lexed = (lexemes (start.endsAt behind)).after (earlier ++ [token]) := by
    rw [lexed, start_of_append content, cuts.lexemes_eq]
  have spacedRead :
      (line.spaced front inserted behind).lexed =
        ((lexemes (start.endsAt behind)).movedBy ⟨0, byteLength inserted⟩).after
          (earlier ++ [token]) :=
    (congrArg lexemes (start_of_append rfl)).trans
      (cuts.lexemes_followedBy_blanks present blanks)
  have noError : (lexemes (start.endsAt behind)).error? = none := by
    rw [read] at complete
    exact complete
  refine ⟨front, behind, isPlace, {
    content
    begins := cuts.rest_ne_nil someToken
    present
    noLineFeed := fun member => (noSeparator _ member).1 rfl
    noReturn := fun returns => (noSeparator _ (List.mem_of_getLast? returns)).2 rfl
    leadingRun := ?_
    complete
    lexed := ?_
  }⟩
  · rw [leadingRun, leadingRun, content]
    exact (cuts.takeWhile_append someToken _).trans
      (cuts.takeWhile_append someToken _).symm
  · -- The tokens before the blanks start before them, the others behind them.
    have late :
        ∀ other ∈ (lexemes (start.endsAt behind)).tokens,
          line.offset + byteLength front ≤ other.span.start :=
      fun _ member => atPlace ▸ (span_of_mem_lexemes member).1
    rw [spacedRead, read, Lexed.after, Lexed.after, Lexed.movedBy, noError]
    rw [map_movedFrom_append (fun _ member => cuts.start_lt member) late]
    rfl

/-- At the end of a logical line there is room for a comment. -/
theorem hasRoom_comment
    {text : List Char}
    (logical : line.isLogical = true)
    (complete : line.lexed.error? = none)
    (noFeed : '\n' ∉ text)
    (noReturn : '\r' ∉ text) :
    line.HasRoom line.content ('#' :: text) [] := by
  obtain ⟨front, rest, failed?, content, cuts, stops, isError⟩ := line.exists_cutsInto
  have someToken := lexed_tokens_ne_nil logical complete
  -- A comment that is already there goes on in the new one.
  obtain ⟨comment, isComment⟩ : ∃ comment, rest ++ '#' :: text = '#' :: comment := by
    rw [complete] at isError
    cases stops with
    | finished =>
        exact ⟨text, rfl⟩
    | comment rest =>
        exact ⟨rest ++ '#' :: text, rfl⟩
    | unmatched =>
        cases isError
  have spacedContent :
      (line.spaced line.content ('#' :: text) []).content = front ++ '#' :: comment := by
    rw [spaced, ← isComment, content]
    simp
  have separated : Separated ('#' :: comment) := by
    intro c first
    cases first
    rfl
  have spacedRead :
      (line.spaced line.content ('#' :: text) []).lexed = ⟨line.lexed.tokens, none⟩ := by
    have spacedCuts := cuts.of_keepsMatches (.of_separated separated)
    exact (congrArg lexemes (start_of_append spacedContent)).trans
      (spacedCuts.lexemes_of_stopsAt (.comment comment))
  have begins : line.content ≠ [] := by
    rw [content]
    exact List.append_ne_nil_of_left_ne_nil (cuts.rest_ne_nil someToken) rest
  have early :
      ∀ token ∈ line.lexed.tokens,
        token.span.start < line.offset + byteLength line.content := by
    intro token member
    have starts := cuts.start_lt member
    rw [content, byteLength_append, ← Nat.add_assoc]
    exact Nat.lt_of_lt_of_le starts (Nat.le_add_right _ _)
  exact {
    content := (List.append_nil _).symm
    begins
    present := List.cons_ne_nil _ _
    noLineFeed := by simpa using noFeed
    noReturn := by
      intro returns
      have member := List.mem_of_getLast? returns
      simp [noReturn] at member
    leadingRun := by
      rw [leadingRun, leadingRun, spacedContent, content]
      exact (cuts.takeWhile_append someToken _).trans
        (cuts.takeWhile_append someToken _).symm
    complete
    lexed := by
      rw [spacedRead, map_movedFrom_of_lt early]
  }

end Line

end LayoutLexer
