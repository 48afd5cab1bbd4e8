import LayoutLexer.Proofs.Places
import LayoutLexer.Proofs.Spelling
import Mathlib.Data.List.Forall2

namespace LayoutLexer

/-!
# Writing programs and reading them back

A program is a list of lines, each with a leading run of blanks and some words
of lexical kinds. It is written in one way: the run, the words with one space
between them, and a line feed. Reading such a text gives back the words, and the
indents and dedents that the widths of the runs make (`lex_render`).
-/

/-! ### Programs -/

/-- A lexical token that can be written. -/
structure Word where
  kind : TokenKind
  text : List Char
  spelled : Spells kind text

/-- A line that can be written: blanks, and at least one word. -/
structure WrittenLine where
  run : List Char
  words : List Word
  blanks : Blanks run
  present : words ≠ []

/-- The texts of some words, with one space between them. -/
def joinWords (words : List Word) : List Char :=
  [' '].intercalate (words.map Word.text)

namespace WrittenLine

/-- The length of the run that a line starts with. -/
def width (line : WrittenLine) : Nat :=
  line.run.length

/-- The text of a line before its terminator. -/
def content (line : WrittenLine) : List Char :=
  line.run ++ joinWords line.words

/-- The text of a line. -/
def text (line : WrittenLine) : List Char :=
  line.content ++ ['\n']

end WrittenLine

/-- The source text of a program. -/
def render (program : List WrittenLine) : String :=
  String.ofList (program.flatMap WrittenLine.text)

/-! ### What tokens are, wherever they stand -/

/-- The kind and the text of a token. -/
def Token.outline (token : Token) : TokenKind × String :=
  (token.kind, token.text)

/-- The kind and the text of a word. -/
def Word.outline (word : Word) : TokenKind × String :=
  (word.kind, String.ofList word.text)

/-- The indents or dedents before a line that starts with a run. -/
def layoutOutline (run : List Char) : IndentChange → List (TokenKind × String)
  | .unchanged =>
      []
  | .indent =>
      [(.indent, String.ofList run)]
  | .dedent closed =>
      List.replicate closed (.dedent, String.ofList run)

/-- The tokens of a written line, by what its width does. -/
def WrittenLine.outline
    (line : WrittenLine)
    (change : IndentChange) :
    List (TokenKind × String) :=
  layoutOutline line.run change ++
    (line.words.map Word.outline ++ [(.newline, "\n")])

/-- The tokens that end a program while some blocks are open. -/
def closingOutline (depth : Nat) : List (TokenKind × String) :=
  List.replicate depth (.dedent, "") ++ [(.eof, "")]

/-! ### Words -/

theorem joinWords_cons_cons
    (word next : Word)
    (others : List Word) :
    joinWords (word :: next :: others) =
      word.text ++ ' ' :: joinWords (next :: others) := by
  simp [joinWords, List.intercalate_cons_cons]

/-- Where a match is found, a token comes first. -/
theorem lexemes_of_longestMatch
    {cursor : Cursor}
    {c : Char}
    {rest : List Char}
    {kind : TokenKind}
    {length : Nat}
    (ahead : cursor.rest = c :: rest)
    (solid : separates c = false)
    (found : longestMatch Rule.all cursor.rest = some (kind, length)) :
    lexemes cursor =
      (lexemes (cursor.advance length)).cons (cursor.token kind length) := by
  simp only [separates, Bool.or_eq_false_iff, beq_eq_false_iff_ne] at solid
  obtain ⟨⟨⟨noBlank, noMark⟩, _⟩, _⟩ := solid
  rw [lexemes_eq, found, ahead]
  simp [noBlank, noMark]

/-- A word before a separator is read as a token. -/
theorem lexemes_word
    (word : Word)
    {tail : List Char}
    (separated : Separated tail)
    (offset number : Nat) :
    ∃ token : Token,
      token.outline = word.outline ∧
        lexemes ⟨word.text ++ tail, offset, number⟩ =
          (lexemes ⟨tail, offset + byteLength word.text, number⟩).cons token := by
  have found :
      longestMatch Rule.all (word.text ++ tail) =
        some (word.kind, word.text.length) := by
    rw [longestMatch_append separated]
    exact longestMatch_of_spells word.spelled
  obtain ⟨c, rest, shape⟩ := List.exists_cons_of_ne_nil word.spelled.ne_nil
  have solid : separates c = false :=
    word.spelled.solid c (shape ▸ List.mem_cons_self)
  have ahead : word.text ++ tail = c :: (rest ++ tail) := by
    rw [shape, List.cons_append]
  let cursor : Cursor := ⟨word.text ++ tail, offset, number⟩
  refine ⟨cursor.token word.kind word.text.length, ?_, ?_⟩
  · simp [cursor, Token.outline, Word.outline, Cursor.token]
  · rw [← Cursor.advance_append]
    exact lexemes_of_longestMatch ahead solid found

/-- Words are read back as they are written. -/
theorem lexemes_joinWords
    (words : List Word)
    (offset number : Nat) :
    (lexemes ⟨joinWords words, offset, number⟩).error? = none ∧
      (lexemes ⟨joinWords words, offset, number⟩).tokens.map Token.outline =
        words.map Word.outline := by
  induction words generalizing offset with
  | nil =>
      rw [lexemes_eq]
      exact ⟨rfl, rfl⟩
  | cons word others inductionHypothesis =>
      cases others with
      | nil =>
          have noTail : Separated [] := nofun
          have single : joinWords [word] = word.text ++ [] := by
            simp [joinWords]
          obtain ⟨token, sameOutline, read⟩ :=
            lexemes_word word noTail offset number
          rw [single, read, lexemes_eq]
          exact ⟨rfl, by simp [Lexed.cons, sameOutline]⟩
      | cons next others =>
          have separated : Separated (' ' :: joinWords (next :: others)) := by
            intro c first
            cases first
            rfl
          obtain ⟨token, sameOutline, read⟩ :=
            lexemes_word word separated offset number
          obtain ⟨noError, outlines⟩ :=
            inductionHypothesis (offset + byteLength word.text + 1)
          have skipped :
              lexemes ⟨' ' :: joinWords (next :: others),
                  offset + byteLength word.text, number⟩ =
                lexemes ⟨joinWords (next :: others),
                  offset + byteLength word.text + 1, number⟩ :=
            lexemes_advance_one rfl rfl
          rw [joinWords_cons_cons, read, skipped]
          exact ⟨noError, by simp [Lexed.cons, sameOutline, outlines]⟩

/-! ### Written lines -/

/-- Blanks do not start a token, so they can be passed over. -/
theorem lexemes_blanks
    {run : List Char}
    (blanks : Blanks run)
    (text : List Char)
    (offset number : Nat) :
    lexemes ⟨run ++ text, offset, number⟩ =
      lexemes ⟨text, offset + byteLength run, number⟩ := by
  induction run generalizing offset with
  | nil =>
      rfl
  | cons c run inductionHypothesis =>
      obtain ⟨blank, others⟩ := List.forall_mem_cons.mp blanks
      have skipped :
          lexemes ⟨c :: (run ++ text), offset, number⟩ =
            lexemes ⟨run ++ text, offset + c.utf8Size, number⟩ :=
        lexemes_advance_one rfl blank
      rw [List.cons_append, skipped, inductionHypothesis others,
        byteLength_cons, Nat.add_assoc]

/-- Between words there is nothing but spaces. -/
theorem separates_of_mem_joinWords
    {words : List Word}
    {c : Char}
    (member : c ∈ joinWords words) :
    separates c = false ∨ c = ' ' := by
  induction words with
  | nil =>
      cases member
  | cons word others inductionHypothesis =>
      cases others with
      | nil =>
          rw [joinWords, List.map_singleton, List.intercalate_singleton] at member
          exact .inl (word.spelled.solid c member)
      | cons next others =>
          rw [joinWords_cons_cons] at member
          rcases List.mem_append.mp member with inWord | behind
          · exact .inl (word.spelled.solid c inWord)
          · rcases List.mem_cons.mp behind with isSpace | later
            · exact .inr isSpace
            · exact inductionHypothesis later

/-- Words start with a character that separates nothing. -/
theorem exists_joinWords_eq_cons
    {words : List Word}
    (present : words ≠ []) :
    ∃ c rest, joinWords words = c :: rest ∧ separates c = false := by
  obtain ⟨word, others, rfl⟩ := List.exists_cons_of_ne_nil present
  obtain ⟨c, rest, shape⟩ := List.exists_cons_of_ne_nil word.spelled.ne_nil
  have solid : separates c = false :=
    word.spelled.solid c (shape ▸ List.mem_cons_self)
  cases others with
  | nil =>
      exact ⟨c, rest, by simp [joinWords, shape], solid⟩
  | cons next others =>
      refine ⟨c, rest ++ ' ' :: joinWords (next :: others), ?_, solid⟩
      rw [joinWords_cons_cons, shape, List.cons_append]

namespace WrittenLine

/-- No character of a content ends a line. -/
theorem ne_terminator_of_mem_content
    {line : WrittenLine}
    {c : Char}
    (member : c ∈ line.content) :
    c ≠ '\n' ∧ c ≠ '\r' := by
  rcases List.mem_append.mp member with inRun | inWords
  · have blank := line.blanks c inRun
    constructor
    · rintro rfl
      cases blank
    · rintro rfl
      cases blank
  · rcases separates_of_mem_joinWords inWords with solid | rfl
    · constructor
      · rintro rfl
        cases solid
      · rintro rfl
        cases solid
    · decide

/-- Behind its run, a content is made of its words. -/
theorem dropWhile_content
    (line : WrittenLine) :
    line.content.takeWhile isBlank = line.run ∧
      line.content.dropWhile isBlank = joinWords line.words := by
  obtain ⟨c, rest, shape, solid⟩ := exists_joinWords_eq_cons line.present
  have noBlank : isBlank c = false := by
    simp only [separates, Bool.or_eq_false_iff] at solid
    exact solid.1.1.1
  rw [content, shape, List.takeWhile_append_of_pos line.blanks,
    List.dropWhile_append_of_pos line.blanks]
  simp [noBlank]

end WrittenLine

/-- The indents or dedents before a line have its run as their text. -/
theorem Line.outline_layout
    (line : Line)
    (change : IndentChange) :
    (pushedBy (line.layout change)).map Token.outline =
      layoutOutline line.leadingRun change := by
  have outline :
      ∀ kind,
        (line.start.token kind line.width).outline =
          (kind, String.ofList line.leadingRun) := by
    intro kind
    rw [← line.take_width]
    rfl
  cases change with
  | unchanged =>
      rfl
  | indent =>
      simp [layout, layoutOutline, outline]
  | dedent closed =>
      simp [layout, layoutOutline, outline]

/-- A line of a source is a written one. -/
structure Line.Shows (line : Line) (written : WrittenLine) : Prop where
  content : line.content = written.content
  terminator : line.terminator = ['\n']

namespace Line.Shows

variable {line : Line}
variable {written : WrittenLine}

theorem leadingRun_eq
    (shows : line.Shows written) :
    line.leadingRun = written.run := by
  rw [leadingRun, shows.content]
  exact written.dropWhile_content.1

theorem width_eq
    (shows : line.Shows written) :
    line.width = written.width := by
  rw [WrittenLine.width, ← shows.leadingRun_eq]
  rfl

theorem isLogical
    (shows : line.Shows written) :
    line.isLogical = true := by
  obtain ⟨c, rest, shape, solid⟩ := exists_joinWords_eq_cons written.present
  have noMark : c ≠ '#' := by
    rintro rfl
    cases solid
  rw [Line.isLogical, shows.content, written.dropWhile_content.2, shape]
  simpa using noMark

/-- The words of a written line are its lexical tokens. -/
theorem lexed
    (shows : line.Shows written) :
    line.lexed.error? = none ∧
      line.lexed.tokens.map Token.outline = written.words.map Word.outline := by
  have read :
      line.lexed =
        lexemes ⟨joinWords written.words,
          line.offset + byteLength written.run, line.number⟩ := by
    rw [Line.lexed, start, shows.content]
    exact lexemes_blanks written.blanks _ _ _
  rw [read]
  exact lexemes_joinWords written.words _ _

/-- The tokens of a written line are those of its outline. -/
theorem outline
    (shows : line.Shows written)
    (change : IndentChange) :
    (line.tokens change).map Token.outline = written.outline change := by
  have terminated : line.terminator ≠ [] := by
    rw [shows.terminator]
    exact List.cons_ne_nil _ _
  have newline :
      (pushedBy line.newline).map Token.outline = [(.newline, "\n")] := by
    rw [newline_of_terminated terminated]
    simp [Token.outline, Cursor.token, ending, shows.terminator]
  rw [tokens, List.map_append, List.map_append, outline_layout,
    shows.leadingRun_eq, shows.lexed.2, newline, WrittenLine.outline]

end Line.Shows

/-! ### Programs are read back -/

open Session in
/-- The logical lines of a written program are its lines. -/
theorem remainingLines_shows
    (program : List WrittenLine)
    (offset number : Nat) :
    List.Forall₂ Line.Shows
      (remainingLines (program.flatMap WrittenLine.text) offset number)
      program := by
  induction program generalizing offset number with
  | nil =>
      exact .nil
  | cons written others inductionHypothesis =>
      have noFeed : '\n' ∉ written.content := by
        intro member
        exact (WrittenLine.ne_terminator_of_mem_content member).1 rfl
      have noReturn : written.content.getLast? ≠ some '\r' := by
        intro last
        exact (WrittenLine.ne_terminator_of_mem_content
          (List.mem_of_getLast? last)).2 rfl
      have first :
          FirstLine ((written :: others).flatMap WrittenLine.text)
            written.content ['\n'] (others.flatMap WrittenLine.text) := by
        rw [List.flatMap_cons, WrittenLine.text, List.append_assoc]
        exact .lineFeed _ _ noFeed noReturn
      have shows :
          Line.Shows ⟨number, offset, written.content, ['\n']⟩ written :=
        ⟨rfl, rfl⟩
      rw [remainingLines_eq first, if_pos shows.isLogical]
      exact .cons shows (inductionHypothesis _ _)

theorem logicalLines_render
    (program : List WrittenLine) :
    List.Forall₂ Line.Shows (logicalLines (render program)) program := by
  have shows := remainingLines_shows program 0 1
  rwa [← String.toList_ofList (l := program.flatMap WrittenLine.text)] at shows

theorem map_eq_map_of_forall₂
    {related : α → β → Prop}
    {first : List α}
    {second : List β}
    {f : α → γ}
    {g : β → γ}
    (same : ∀ a b, related a b → f a = g b)
    (pairs : List.Forall₂ related first second) :
    first.map f = second.map g := by
  have equal : List.Forall₂ (· = ·) (first.map f) (second.map g) :=
    List.rel_map same pairs
  rwa [List.forall₂_eq_eq_eq] at equal

/-- Line by line, the tokens of a written program are those of its outline. -/
theorem outline_groups
    {lines : List Line}
    {program : List WrittenLine}
    (shows : List.Forall₂ Line.Shows lines program)
    (changes : List IndentChange) :
    (List.zipWith Line.tokens lines changes).flatten.map Token.outline =
      (List.zipWith WrittenLine.outline program changes).flatten := by
  induction shows generalizing changes with
  | nil =>
      rfl
  | cons lineShows _ inductionHypothesis =>
      cases changes with
      | nil =>
          rfl
      | cons change changes =>
          rw [List.zipWith_cons_cons, List.zipWith_cons_cons, List.flatten_cons,
            List.flatten_cons, List.map_append, lineShows.outline,
            inductionHypothesis]

/--
A program whose widths resolve is read back: its words, with the indents and
dedents that the widths make, and at the end the dedents that are left.
-/
theorem lex_render
    {program : List WrittenLine}
    {changes : List IndentChange}
    {final : Indentation}
    (applied :
      Indentation.topLevel.resolveAll (program.map WrittenLine.width) =
        .ok (changes, final)) :
    ∃ tokens,
      lex (render program) = .ok tokens ∧
        tokens.map Token.outline =
          (List.zipWith WrittenLine.outline program changes).flatten ++
            closingOutline final.depth := by
  have shows := logicalLines_render program
  have widths :
      (logicalLines (render program)).map Line.width =
        program.map WrittenLine.width :=
    map_eq_map_of_forall₂ (fun _ _ => Line.Shows.width_eq) shows
  have noErrors :
      ∀ line ∈ logicalLines (render program), line.lexed.error? = none :=
    ((List.forall₂_and_left _ _).mp
      (shows.imp fun _ _ lineShows => ⟨lineShows.lexed.1, lineShows⟩)).1
  have closing :
      (closingTokens (render program) final).map Token.outline =
        closingOutline final.depth := by
    simp [closingTokens, closingOutline, Token.outline, Cursor.token, sourceEnd]
  rw [← widths] at applied
  refine ⟨_, lex_eq_ok_iff.mpr ⟨changes, final, applied, noErrors, rfl⟩, ?_⟩
  rw [List.map_append, outline_groups shows, closing]

end LayoutLexer
