import LayoutLexer.Proofs.Bytes
import LayoutLexer.Proofs.Coverage
import LayoutLexer.Proofs.Spelling

namespace LayoutLexer

/-!
# Checked scans

A scanner that counts bytes takes slices of its text and subtracts lengths, and
both can go wrong. A slice can be out of range or cut a character in two, a
difference can be below zero. The scanner of this module checks both and has no
result where one of them is missing.

It has one for every text, namely that of the scanner by characters, with its
length in bytes (`Checked.scan_eq`). In particular what it finds ends where a
character ends.
-/

instance (span : Span) (text : String) : Decidable (span.LiesIn text) :=
  decidable_of_iff
    (span.start ≤ span.stop ∧ span.stop ≤ text.utf8ByteSize ∧
      String.Pos.Raw.IsValid text ⟨span.start⟩ ∧
      String.Pos.Raw.IsValid text ⟨span.stop⟩)
    ⟨fun ⟨ordered, within, starts, stops⟩ => ⟨ordered, within, starts, stops⟩,
      fun ⟨ordered, within, starts, stops⟩ => ⟨ordered, within, starts, stops⟩⟩

namespace Checked

/-! ### Definitions -/

/--
The part of a text between two offsets. There is none if they are out of order or
out of range, or if one of them is inside a character.
-/
def slice (text : String) (start stop : Nat) : Option String :=
  if Span.LiesIn ⟨start, stop⟩ text then
    some (Span.textIn ⟨start, stop⟩ text)
  else
    none

/-- The difference of two lengths, unless it is below zero. -/
def difference (length less : Nat) : Option Nat :=
  if less ≤ length then
    some (length - less)
  else
    none

/--
The length of a comment that starts a text. It ends before the first line feed,
and before a carriage return in front of that.
-/
def commentLength (text : String) : Option Nat :=
  match (Bytes.ofString text).idxOf? 0x0A with
  | some feed => do
      let content ← slice text 0 feed
      if (Bytes.ofString content).getLast? = some 0x0D then
        difference feed 1
      else
        return feed
  | none =>
      some text.utf8ByteSize

/-- The length of the decimal fraction that starts a text, or zero. -/
def floatLength (text : String) : Option Nat :=
  let whole := Bytes.digitRun (Bytes.ofString text)
  if (Bytes.ofString text)[whole]? = some 0x2E then do
    let behind ← slice text (whole + 1) text.utf8ByteSize
    let fraction := Bytes.digitRun (Bytes.ofString behind)
    return if fraction = 0 then 0 else whole + 1 + fraction
  else
    some 0

/-- The length of the match at the start of a text; zero if there is none. -/
def matchLength (text : String) : Pattern → Option Nat
  | .spelled spelling =>
      if (Bytes.ofString spelling).isPrefixOf (Bytes.ofString text) then
        some spelling.utf8ByteSize
      else
        some 0
  | .identifier =>
      some (Bytes.identifierRun (Bytes.ofString text))
  | .float =>
      floatLength text
  | .number =>
      some (Bytes.digitRun (Bytes.ofString text))

/-- Keep the match found so far unless the rule matches more bytes. -/
def extend (text : String) (found : Match) (rule : Rule) : Option Match := do
  let length ← matchLength text rule.pattern
  return if found.length < length then some (rule.kind, length) else found

/-- The longest match of a rule table at the start of a text. -/
def longestMatch (rules : List Rule) (text : String) : Option Match :=
  rules.foldlM (extend text) none

/-- Classify the start of a text by its bytes; lengths count bytes. -/
def scan (text : String) : Option Scan :=
  match text.toList with
  | [] =>
      some .finished
  | c :: _ =>
      if isBlank c then
        some (.blank (Bytes.blankRun (Bytes.ofString text)))
      else if c = '#' then
        (commentLength text).map .comment
      else
        match Bytes.terminatorLength? (Bytes.ofString text) with
        | some length =>
            some (.lineEnd length)
        | none => do
            match ← longestMatch Rule.all text with
            | some (kind, length) =>
                return .token kind length
            | none =>
                return .unmatched c

/-! ### Slices -/

section

variable {text : String}
variable {before middle after : List Char}

/-- The characters between two others are a slice. -/
theorem slice_eq
    (shape : text.toList = before ++ (middle ++ after)) :
    slice text (byteLength before) (byteLength before + byteLength middle) =
      some (String.ofList middle) := by
  rw [slice, if_pos (liesIn_of_append shape), textIn_eq shape]

theorem slice_front
    (shape : text.toList = middle ++ after) :
    slice text 0 (byteLength middle) = some (String.ofList middle) := by
  have behindNothing : text.toList = [] ++ (middle ++ after) := shape
  have found := slice_eq behindNothing
  rwa [byteLength_nil, Nat.zero_add] at found

theorem slice_back
    (shape : text.toList = before ++ middle) :
    slice text (byteLength before) text.utf8ByteSize =
      some (String.ofList middle) := by
  have beforeNothing : text.toList = before ++ (middle ++ []) := by
    rw [List.append_nil, shape]
  rw [utf8ByteSize_eq_byteLength, shape, byteLength_append]
  exact slice_eq beforeNothing

/-- A slice is where its span says. -/
theorem liesIn_of_slice
    {start stop : Nat}
    {found : String}
    (taken : slice text start stop = some found) :
    Span.LiesIn ⟨start, stop⟩ text := by
  rw [slice] at taken
  split at taken
  · assumption
  · cases taken

end

-- The second byte is inside the only character.
example : slice "é" 0 1 = none := by
  decide

theorem difference_add
    (length less : Nat) :
    difference (length + less) less = some length := by
  rw [difference, if_pos (Nat.le_add_left less length), Nat.add_sub_cancel]

/-! ### Matches -/

section

variable (text : List Char)

/-- A comment has the bytes of the characters up to the end of its line. -/
theorem commentLength_eq :
    commentLength (String.ofList text) =
      some (byteLength (text.take (commentRun text))) := by
  by_cases isEmpty : text = []
  · rw [isEmpty]
    rfl
  · obtain ⟨content, terminator, more, first⟩ := exists_firstLine isEmpty
    have whole : text.take (commentRun text) = content := by
      rw [first.text_eq, first.endsBefore.commentRun_append, List.take_left]
    rw [whole, commentLength, Bytes.ofString_ofList]
    cases first with
    | lineFeed _ _ noFeed noReturn =>
        have taken :
            slice (String.ofList (content ++ '\n' :: more)) 0 (byteLength content) =
              some (String.ofList content) :=
          slice_front String.toList_ofList
        have noReturnByte : ¬ (Bytes.encode content).getLast? = some 0x0D :=
          fun returns =>
            noReturn
              ((Bytes.getLast?_encode_iff (c := '\r') (by decide) content).mp returns)
        rw [Bytes.idxOf?_encode_lineFeed noFeed more]
        simp only [taken, noReturnByte, Bytes.ofString_ofList, Option.bind_eq_bind,
          Option.bind_some, ↓reduceIte]
        rfl
    | returnFeed _ _ noFeed =>
        have noFeedBefore : '\n' ∉ content ++ ['\r'] := by
          simpa using noFeed
        have sameText :
            content ++ '\r' :: '\n' :: more = content ++ ['\r'] ++ '\n' :: more := by
          simp
        have taken :
            slice (String.ofList (content ++ ['\r'] ++ '\n' :: more)) 0
                (byteLength (content ++ ['\r'])) =
              some (String.ofList (content ++ ['\r'])) :=
          slice_front String.toList_ofList
        have returns : (Bytes.encode (content ++ ['\r'])).getLast? = some 0x0D :=
          (Bytes.getLast?_encode_iff (c := '\r') (by decide) (content ++ ['\r'])).mpr
            List.getLast?_concat
        have less :
            difference (byteLength (content ++ ['\r'])) 1 =
              some (byteLength content) := by
          rw [byteLength_append]
          exact difference_add (byteLength content) 1
        rw [sameText, Bytes.idxOf?_encode_lineFeed noFeedBefore more]
        simp only [taken, returns, less, Bytes.ofString_ofList, Option.bind_eq_bind,
          Option.bind_some, ↓reduceIte]
    | unterminated _ noFeed _ =>
        rw [Bytes.idxOf?_encode_eq_none noFeed]
        dsimp only
        rw [utf8ByteSize_ofList]

theorem floatLength_eq :
    floatLength (String.ofList text) = some (floatRun text) := by
  have digits : Bytes.digitRun (Bytes.encode text) = digitRun text :=
    Bytes.digitRun_encode text
  have behind :
      (Bytes.encode text)[digitRun text]? =
        (Bytes.encode (text.dropWhile Char.isDigit)).head? := by
    rw [← List.head?_drop, ← digits, Bytes.drop_digitRun,
      (Bytes.reads_isDigit.runs_encode text).2]
  rw [floatLength, Bytes.ofString_ofList, floatRun]
  dsimp only
  rw [digits, behind]
  cases ahead : text.dropWhile Char.isDigit with
  | nil =>
      rfl
  | cons c fraction =>
      by_cases point : c = '.'
      · have shape :
            (String.ofList text).toList =
              (text.takeWhile Char.isDigit ++ ['.']) ++ fraction := by
          rw [String.toList_ofList, List.append_assoc, List.singleton_append,
            ← point, ← ahead, List.takeWhile_append_dropWhile]
        have size :
            byteLength (text.takeWhile Char.isDigit ++ ['.']) = digitRun text + 1 := by
          rw [byteLength_append, byteLength_eq_length]
          · rfl
          · intro digit member
            exact Bytes.utf8Size_of_isAscii
              (Bytes.isAscii_of_isDigit (List.mem_takeWhile_imp member))
        have taken := slice_back shape
        rw [size] at taken
        have isPoint : (Bytes.encode ('.' :: fraction)).head? = some 0x2E := rfl
        rw [point, if_pos isPoint, taken]
        simp only [Option.bind_eq_bind, Option.bind_some, Bytes.ofString_ofList,
          Bytes.digitRun_encode]
        rfl
      · obtain ⟨byte, others, form, outside⟩ :=
          (Bytes.reads_character (c := '.') (by decide)).exists_byte
            (by simpa using point)
        have noPoint : ¬ (Bytes.encode (c :: fraction)).head? = some 0x2E := by
          rw [Bytes.encode_cons, form, List.cons_append, List.head?_cons]
          intro same
          exact outside (by rw [Option.some.inj same]; rfl)
        rw [if_neg noPoint]
        split
        · rename_i pointAhead
          exact absurd (List.cons.inj pointAhead).1 point
        · rfl

/-- Whether a pattern, if it is a literal, is in ASCII. -/
def isPlain : Pattern → Bool
  | .spelled spelling => spelling.toList.all fun c => decide (Bytes.IsAscii c)
  | _ => true

theorem isAscii_of_spelled
    {rule : Rule}
    {spelling : String}
    (member : rule ∈ Rule.all)
    (literal : rule.pattern = .spelled spelling) :
    ∀ c ∈ spelling.toList, Bytes.IsAscii c := by
  have plain : ∀ rule ∈ Rule.all, isPlain rule.pattern = true := by
    decide +kernel
  have inAscii := plain rule member
  rw [literal, isPlain, List.all_eq_true] at inAscii
  intro c inside
  exact of_decide_eq_true (inAscii c inside)

/-- A rule of the language matches as many bytes as characters. -/
theorem matchLength_eq
    {rule : Rule}
    (member : rule ∈ Rule.all) :
    matchLength (String.ofList text) rule.pattern =
      some (rule.pattern.matchLength text) := by
  cases shape : rule.pattern with
  | spelled spelling =>
      have ascii := isAscii_of_spelled member shape
      have size : spelling.utf8ByteSize = spelling.length := by
        rw [utf8ByteSize_eq_byteLength, ← String.length_toList]
        exact byteLength_eq_length fun c inside =>
          Bytes.utf8Size_of_isAscii (ascii c inside)
      rw [matchLength, Bytes.ofString_ofList, Bytes.ofString_eq,
        Bytes.isPrefixOf_encode text ascii, size, ← apply_ite some]
      rfl
  | identifier =>
      rw [matchLength, Bytes.ofString_ofList, Bytes.identifierRun_encode]
      rfl
  | float =>
      exact floatLength_eq text
  | number =>
      rw [matchLength, Bytes.ofString_ofList, Bytes.digitRun_encode]
      rfl

theorem extend_eq
    {rule : Rule}
    (member : rule ∈ Rule.all)
    (found : Match) :
    extend (String.ofList text) found rule = some (found.extend text rule) := by
  rw [extend, matchLength_eq text member]
  rfl

/-- The longest match is the same, by bytes and by characters. -/
theorem longestMatch_eq :
    longestMatch Rule.all (String.ofList text) =
      some (LayoutLexer.longestMatch Rule.all text) := by
  have folded :
      ∀ rules : List Rule,
        (∀ rule ∈ rules, rule ∈ Rule.all) →
        ∀ found : Match,
          rules.foldlM (extend (String.ofList text)) found =
            some (rules.foldl (Match.extend text) found) := by
    intro rules
    induction rules with
    | nil =>
        intro _ found
        rfl
    | cons rule rules inductionHypothesis =>
        intro members found
        obtain ⟨member, others⟩ := List.forall_mem_cons.mp members
        rw [List.foldlM_cons, extend_eq text member, List.foldl_cons]
        exact inductionHypothesis others (found.extend text rule)
  exact folded Rule.all (fun _ member => member) none

end

/-! ### Scans -/

/--
A scan reads some bytes of a text, up to the end of a character, or gives back the
first character, which it does not match.
-/
inductive ScansWithin (text : String) (found : Scan) : Prop where
  | unmatched {c : Char} {others : List Char} :
      text.toList = c :: others →
      found = .unmatched c →
      ScansWithin text found
  | reads :
      found.reads = true →
      1 ≤ found.length →
      found.length ≤ text.utf8ByteSize →
      Span.LiesIn ⟨0, found.length⟩ text →
      ScansWithin text found

/-- The same scan of a text, with its length in bytes. -/
def inBytes (text : List Char) : Scan → Scan
  | .token kind length => .token kind (byteLength (text.take length))
  | .blank length => .blank (byteLength (text.take length))
  | .comment length => .comment (byteLength (text.take length))
  | .lineEnd length => .lineEnd (byteLength (text.take length))
  | .finished => .finished
  | .unmatched c => .unmatched c

/-- The characters that spell a token are single bytes. -/
theorem isAscii_of_spells
    {kind : TokenKind}
    {word : List Char}
    (spells : Spells kind word) :
    ∀ c ∈ word, Bytes.IsAscii c := by
  cases spells with
  | keyword word =>
      exact isAscii_of_spelled (Rule.ofKeyword_mem_all word) rfl
  | operator symbol =>
      exact isAscii_of_spelled (Rule.ofOperator_mem_all symbol) rfl
  | punctuation mark =>
      exact isAscii_of_spelled (Rule.ofPunctuation_mem_all mark) rfl
  | identifier starts continues _ =>
      intro c member
      rcases List.mem_cons.mp member with isFirst | isLater
      · rw [isFirst]
        exact Bytes.reads_startsIdentifier.charactersAscii _ starts
      · exact Bytes.reads_continuesIdentifier.charactersAscii c (continues c isLater)
  | number _ digits =>
      exact fun c member => Bytes.isAscii_of_isDigit (digits c member)
  | float whole _ fraction =>
      intro c member
      rcases List.mem_append.mp member with inWhole | behind
      · exact Bytes.isAscii_of_isDigit (whole c inWhole)
      · rcases List.mem_cons.mp behind with isPoint | inFraction
        · rw [isPoint]
          decide
        · exact Bytes.isAscii_of_isDigit (fraction c inFraction)

theorem byteLength_take_of_longestMatch
    {text : List Char}
    {kind : TokenKind}
    {length : Nat}
    (found : LayoutLexer.longestMatch Rule.all text = some (kind, length)) :
    byteLength (text.take length) = length := by
  have ascii := isAscii_of_spells (spells_of_longestMatch found)
  rw [byteLength_eq_length fun c member => Bytes.utf8Size_of_isAscii (ascii c member),
    List.length_take_of_le (length_le_of_longestMatch found)]

theorem byteLength_take_blankRun
    (text : List Char) :
    byteLength (text.take (blankRun text)) = blankRun text := by
  have run : text.take (blankRun text) = text.takeWhile isBlank :=
    (List.prefix_iff_eq_take.mp (List.takeWhile_prefix isBlank)).symm
  rw [run]
  apply byteLength_eq_length
  intro c member
  exact utf8Size_of_isBlank (List.mem_takeWhile_imp member)

theorem byteLength_take_terminator
    {text : List Char}
    {length : Nat}
    (found : terminatorLength? text = some length) :
    byteLength (text.take length) = length := by
  rw [terminatorLength?.eq_def] at found
  split at found
  · cases found
    rfl
  · cases found
    rfl
  · cases found

/-- By bytes, the same is found, and it ends where a character ends. -/
theorem scan_eq
    (text : List Char) :
    scan (String.ofList text) = some (inBytes text (LayoutLexer.scan text)) := by
  rw [scan, String.toList_ofList]
  cases text with
  | nil =>
      rfl
  | cons c rest =>
      rw [LayoutLexer.scan]
      dsimp only
      split
      · rw [Bytes.ofString_ofList, Bytes.blankRun_encode, inBytes,
          byteLength_take_blankRun]
      · split
        · rw [commentLength_eq]
          rfl
        · rw [Bytes.ofString_ofList, Bytes.terminatorLength?_encode, longestMatch_eq]
          cases terminated : terminatorLength? (c :: rest) with
          | some length =>
              dsimp only
              rw [inBytes, byteLength_take_terminator terminated]
          | none =>
              cases matched : LayoutLexer.longestMatch Rule.all (c :: rest) with
              | some found =>
                  dsimp only
                  rw [inBytes, byteLength_take_of_longestMatch matched]
                  rfl
              | none =>
                  rfl

example : scan "#é\r\n" = some (.comment 3) := by
  decide +kernel

theorem reads_inBytes
    (text : List Char)
    (found : Scan) :
    (inBytes text found).reads = found.reads := by
  cases found <;> rfl

theorem length_inBytes
    (text : List Char)
    (found : Scan) :
    (inBytes text found).length = byteLength (text.take found.length) := by
  cases found <;> rfl

/-- Only the first character can be one that is not matched. -/
theorem unmatched_of_scan
    {c : Char}
    {rest : List Char}
    (nothingRead : (LayoutLexer.scan (c :: rest)).reads = false) :
    LayoutLexer.scan (c :: rest) = .unmatched c := by
  rw [LayoutLexer.scan] at nothingRead ⊢
  split at nothingRead
  · cases nothingRead
  · split at nothingRead
    · cases nothingRead
    · rename_i noBlank noMark
      rw [if_neg noBlank, if_neg noMark]
      split at nothingRead
      · cases nothingRead
      · split at nothingRead
        · cases nothingRead
        · rfl

/-- A scan of a text that is not empty stays within it. -/
theorem scansWithin_scan
    {text : String}
    (unread : text ≠ "") :
    ScansWithin text (inBytes text.toList (LayoutLexer.scan text.toList)) := by
  cases ahead : text.toList with
  | nil =>
      exact absurd (String.toList_eq_nil_iff.mp ahead) unread
  | cons c rest =>
      by_cases reads : (LayoutLexer.scan (c :: rest)).reads = true
      · have positive := length_scan_pos reads
        have present :
            (c :: rest).take (LayoutLexer.scan (c :: rest)).length ≠ [] := by
          simp [Nat.ne_of_gt positive]
        have size := length_inBytes (c :: rest) (LayoutLexer.scan (c :: rest))
        have front :
            text.toList =
              (c :: rest).take (LayoutLexer.scan (c :: rest)).length ++
                (c :: rest).drop (LayoutLexer.scan (c :: rest)).length := by
          rw [List.take_append_drop, ahead]
        have lies := liesIn_of_slice (slice_front front)
        rw [← size] at lies
        refine .reads ?_ ?_ lies.within lies
        · rw [reads_inBytes, reads]
        · rw [size]
          exact byteLength_pos present
      · rw [Bool.not_eq_true] at reads
        refine .unmatched ahead ?_
        rw [unmatched_of_scan reads]
        rfl

end Checked

end LayoutLexer
