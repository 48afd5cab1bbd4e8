import LayoutLexer.Proofs.LineTokens
import Mathlib.Data.String.Basic

namespace LayoutLexer

/-!
# Places in a source

A cursor counts bytes and lines as it goes. Whether it counts right can be said
without it: the bytes before an offset are part of the source, and its line is
one more than the line feeds among them. A cursor that stands where it says
makes tokens whose text is the slice of the source that their span covers
(`Cursor.StandsIn.placed`), and reading on within a line keeps it so
(`Cursor.StandsIn.advance`).

The lines of a source stand in it one behind the other, each at its offset and
with its number.
-/

/-! ### Spans and slices -/

namespace Span

/-- The text of a source that a span covers. -/
def textIn (span : Span) (source : String) : String :=
  String.Pos.Raw.extract source ⟨span.start⟩ ⟨span.stop⟩

/-- A span lies in a source, and neither end is inside a character. -/
structure LiesIn (span : Span) (source : String) : Prop where
  ordered : span.start ≤ span.stop
  within : span.stop ≤ source.utf8ByteSize
  startsAtCharacter : String.Pos.Raw.IsValid source ⟨span.start⟩
  stopsAtCharacter : String.Pos.Raw.IsValid source ⟨span.stop⟩

end Span

/-- The number of the line that an offset stands on. -/
def lineNumber (source : String) (offset : Nat) : Nat :=
  1 + (Span.textIn ⟨0, offset⟩ source).toList.count '\n'

/-- A token has the text that its span covers, and the line that this starts on. -/
structure Token.PlacedIn (token : Token) (source : String) : Prop where
  span : token.span.LiesIn source
  text : token.text = token.span.textIn source
  line : token.line = lineNumber source token.span.start

theorem byteLength_eq_utf8Len
    (text : List Char) :
    byteLength text = String.utf8Len text := by
  rw [← String.utf8ByteSize_ofList, LayoutLexer.utf8ByteSize_ofList]

theorem utf8ByteSize_eq_byteLength
    (source : String) :
    source.utf8ByteSize = byteLength source.toList := by
  rw [← LayoutLexer.utf8ByteSize_ofList, String.ofList_toList]

section

variable {source : String}
variable {before text after : List Char}

/-- The bytes behind some text of a source are those of the text that follows. -/
theorem textIn_eq
    (shape : source.toList = before ++ (text ++ after)) :
    Span.textIn ⟨byteLength before, byteLength before + byteLength text⟩ source =
      String.ofList text := by
  have whole : source = String.ofList (before ++ text ++ after) := by
    rw [List.append_assoc, ← shape, String.ofList_toList]
  rw [Span.textIn, whole, byteLength_eq_utf8Len, byteLength_eq_utf8Len]
  exact String.extract_of_valid before text after

/-- An offset behind some text of a source is at a character. -/
theorem isValid_byteLength
    (shape : source.toList = before ++ after) :
    String.Pos.Raw.IsValid source ⟨byteLength before⟩ := by
  apply String.Pos.Raw.isValid_iff_exists_append.mpr
  refine ⟨String.ofList before, String.ofList after, ?_, ?_⟩
  · rw [← String.ofList_append, ← shape, String.ofList_toList]
  · rw [String.rawEndPos_ofList, byteLength_eq_utf8Len]

/-- The text of a source behind some other text has a span. -/
theorem liesIn_of_append
    (shape : source.toList = before ++ (text ++ after)) :
    Span.LiesIn ⟨byteLength before, byteLength before + byteLength text⟩
      source where
  ordered := Nat.le_add_right _ _
  within := by
    simp only [utf8ByteSize_eq_byteLength, shape, byteLength_append]
    omega
  startsAtCharacter := isValid_byteLength shape
  stopsAtCharacter := by
    rw [← byteLength_append]
    have regrouped : source.toList = (before ++ text) ++ after := by
      rw [shape, List.append_assoc]
    exact isValid_byteLength regrouped

/-- Lines are counted by the line feeds before an offset. -/
theorem lineNumber_byteLength
    (shape : source.toList = before ++ after) :
    lineNumber source (byteLength before) = 1 + before.count '\n' := by
  have start : source.toList = [] ++ (before ++ after) := shape
  have slice := textIn_eq start
  rw [byteLength_nil, Nat.zero_add] at slice
  rw [lineNumber, slice, String.toList_ofList]

end

/-! ### Cursors -/

namespace Cursor

/-- A cursor stands in a source where its offset and its line say. -/
def StandsIn (cursor : Cursor) (source : String) : Prop :=
  ∃ before after,
    source.toList = before ++ (cursor.rest ++ after) ∧
      cursor.offset = byteLength before ∧
      cursor.line = 1 + before.count '\n'

namespace StandsIn

variable {cursor : Cursor}
variable {source : String}

/-- Reading on within a line keeps a cursor where it says. -/
theorem advance
    (stands : cursor.StandsIn source)
    {count : Nat}
    (noFeed : '\n' ∉ cursor.rest.take count) :
    (cursor.advance count).StandsIn source := by
  obtain ⟨before, after, shape, offset, line⟩ := stands
  refine ⟨before ++ cursor.rest.take count, after, ?_, ?_, ?_⟩
  · rw [shape, Cursor.advance]
    simp only [List.append_assoc]
    rw [← List.append_assoc (cursor.rest.take count), List.take_append_drop]
  · rw [Cursor.advance, offset, byteLength_append]
  · have passed : (cursor.rest.take count).count '\n' = 0 :=
      List.count_eq_zero.mpr noFeed
    rw [List.count_append, passed]
    exact line

/-- The next characters have a span that covers them. -/
theorem spanOf
    (stands : cursor.StandsIn source)
    (length : Nat) :
    (cursor.spanOf length).LiesIn source ∧
      (cursor.spanOf length).textIn source =
        String.ofList (cursor.rest.take length) ∧
      cursor.line = lineNumber source cursor.offset := by
  obtain ⟨before, after, shape, offset, line⟩ := stands
  have ahead :
      source.toList =
        before ++ (cursor.rest.take length ++
          (cursor.rest.drop length ++ after)) := by
    rw [shape, ← List.append_assoc (cursor.rest.take length),
      List.take_append_drop]
  rw [Cursor.spanOf, offset, line, lineNumber_byteLength ahead]
  exact ⟨liesIn_of_append ahead, textIn_eq ahead, rfl⟩

/-- A cursor makes tokens that are placed where it stands. -/
theorem placed
    (stands : cursor.StandsIn source)
    (kind : TokenKind)
    (length : Nat) :
    (cursor.token kind length).PlacedIn source := by
  obtain ⟨lies, text, line⟩ := stands.spanOf length
  exact ⟨lies, text.symm, line⟩

end StandsIn

end Cursor

/-- The end of a source is where it is counted to be. -/
theorem sourceEnd_standsIn (source : String) : (sourceEnd source).StandsIn source :=
  ⟨source.toList, [], by simp [sourceEnd], rfl, rfl⟩

/-! ### Lexical tokens -/

section

variable {cursor : Cursor}

/-- The tokens of a text, by what stands first in it. -/
theorem lexemes_eq
    (cursor : Cursor) :
    lexemes cursor =
      match cursor.rest with
      | [] =>
          ⟨[], none⟩
      | c :: _ =>
          if isBlank c then
            lexemes (cursor.advance 1)
          else if c = '#' then
            ⟨[], none⟩
          else
            match longestMatch Rule.all cursor.rest with
            | some (kind, length) =>
                (lexemes (cursor.advance length)).cons (cursor.token kind length)
            | none =>
                ⟨[], some (.lexical c cursor.line (cursor.spanOf 1))⟩ := by
  rw [lexemes, longestMatch_eq_firstLongest]
  split
  · rename_i empty
    rw [empty]
  · rename_i c rest ahead
    rw [ahead]
    dsimp only
    split
    · rfl
    · split
      · rfl
      · split
        · rename_i found
          rw [found]
        · rename_i unmatched
          rw [unmatched]

theorem lexemes_advance_one
    {c : Char}
    {rest : List Char}
    (ahead : cursor.rest = c :: rest)
    (blank : isBlank c = true) :
    lexemes cursor = lexemes (cursor.advance 1) := by
  rw [lexemes_eq, ahead]
  exact if_pos blank

/-- Blanks before the first token do not matter. -/
theorem lexemes_blankRun
    (cursor : Cursor) :
    lexemes cursor = lexemes (cursor.advance (blankRun cursor.rest)) := by
  induction run : blankRun cursor.rest generalizing cursor with
  | zero =>
      rw [Cursor.advance_zero]
  | succ run' inductionHypothesis =>
      cases ahead : cursor.rest with
      | nil =>
          simp [ahead, blankRun] at run
      | cons c rest =>
          by_cases blank : isBlank c = true
          · have shorter : blankRun (cursor.advance 1).rest = run' := by
              simpa [ahead, blankRun, blank, Cursor.advance] using run
            rw [lexemes_advance_one ahead blank,
              inductionHypothesis _ shorter, Cursor.advance_advance,
              Nat.add_comm]
          · simp [ahead, blankRun, blank] at run

/-- A lexical token is the longest match where it stands. -/
theorem exists_match_of_mem_lexemes
    {token : Token}
    (member : token ∈ (lexemes cursor).tokens) :
    ∃ count kind length,
      token = (cursor.advance count).token kind length ∧
        longestMatch Rule.all (cursor.advance count).rest =
          some (kind, length) := by
  fun_induction lexemes cursor with
  | case1 =>
      simp at member
  | case2 cursor _ _ _ _ inductionHypothesis =>
      obtain ⟨count, kind, length, isToken, longest⟩ :=
        inductionHypothesis member
      rw [Cursor.advance_advance] at isToken longest
      exact ⟨1 + count, kind, length, isToken, longest⟩
  | case3 =>
      simp at member
  | case4 cursor _ _ _ _ _ kind length found inductionHypothesis =>
      rcases List.mem_cons.mp member with isFirst | later
      · rw [← longestMatch_eq_firstLongest] at found
        exact ⟨0, kind, length, by simpa using isFirst, by simpa using found⟩
      · obtain ⟨count, laterKind, laterLength, isToken, longest⟩ :=
          inductionHypothesis later
        rw [Cursor.advance_advance] at isToken longest
        exact ⟨length + count, laterKind, laterLength, isToken, longest⟩
  | case5 =>
      simp at member

/-- The error of a text is about the character where no token starts. -/
theorem exists_character_of_lexemes_error
    {error : SessionError}
    (failed : (lexemes cursor).error? = some error) :
    ∃ count c rest,
      (cursor.advance count).rest = c :: rest ∧
        error = .lexical c cursor.line ((cursor.advance count).spanOf 1) := by
  fun_induction lexemes cursor with
  | case1 =>
      cases failed
  | case2 cursor _ _ _ _ inductionHypothesis =>
      obtain ⟨count, c, rest, ahead, isError⟩ := inductionHypothesis failed
      rw [Cursor.advance_advance] at ahead isError
      exact ⟨1 + count, c, rest, ahead, isError⟩
  | case3 =>
      cases failed
  | case4 cursor _ _ _ _ _ _ length _ inductionHypothesis =>
      obtain ⟨count, c, rest, ahead, isError⟩ := inductionHypothesis failed
      rw [Cursor.advance_advance] at ahead isError
      exact ⟨length + count, c, rest, ahead, isError⟩
  | case5 cursor c rest ahead _ _ _ =>
      cases failed
      exact ⟨0, c, rest, by simpa using ahead, by simp⟩

end

/-! ### Lines -/

/-- Nothing comes behind a line that has no terminator. -/
theorem FirstLine.eq_of_unterminated
    {text content terminator more : List Char}
    (first : FirstLine text content terminator more)
    (unterminated : terminator = []) :
    text = content ∧ more = [] := by
  cases first with
  | lineFeed =>
      cases unterminated
  | returnFeed =>
      cases unterminated
  | unterminated =>
      exact ⟨rfl, rfl⟩

theorem FirstLine.count_terminator
    {text content terminator more : List Char}
    (first : FirstLine text content terminator more)
    (terminated : terminator ≠ []) :
    terminator.count '\n' = 1 := by
  cases first with
  | lineFeed =>
      rfl
  | returnFeed =>
      rfl
  | unterminated =>
      exact absurd rfl terminated

namespace Line

/-- A line ends before another one starts. -/
structure IsBefore (line later : Line) : Prop where
  number : line.number < later.number
  offset :
    line.offset + byteLength (line.content ++ line.terminator) ≤ later.offset

/-- A line is the first of what is left of a source behind the lines before it. -/
def StandsIn (line : Line) (source : String) : Prop :=
  ∃ before text more,
    source.toList = before ++ text ∧
      FirstLine text line.content line.terminator more ∧
      line.offset = byteLength before ∧
      line.number = 1 + before.count '\n'

variable {line : Line}
variable {source : String}

theorem StandsIn.noLineFeed
    (stands : line.StandsIn source) :
    '\n' ∉ line.content := by
  obtain ⟨_, _, _, _, first, _⟩ := stands
  exact first.endsBefore.noLineFeed

/-- The content of a line stands where the line says. -/
theorem StandsIn.start
    (stands : line.StandsIn source) :
    line.start.StandsIn source := by
  obtain ⟨before, text, more, shape, first, offset, number⟩ := stands
  exact ⟨before, line.terminator ++ more, by rw [shape, first.text_eq]; rfl,
    offset, number⟩

/-- The terminator of a line stands behind its content. -/
theorem StandsIn.ending
    (stands : line.StandsIn source) :
    line.ending.StandsIn source := by
  have noFeed : line.content.count '\n' = 0 :=
    List.count_eq_zero.mpr stands.noLineFeed
  obtain ⟨before, text, more, shape, first, offset, number⟩ := stands
  refine ⟨before ++ line.content, more, ?_, ?_, ?_⟩
  · rw [shape, first.text_eq, List.append_assoc]
    rfl
  · rw [Line.ending, offset, byteLength_append]
  · rw [Line.ending, number, List.count_append, noFeed]
    rfl

/-- A line without a terminator is the one that the source ends on. -/
theorem StandsIn.number_eq
    (stands : line.StandsIn source)
    (unterminated : line.terminator = []) :
    line.number = (sourceEnd source).line := by
  have noFeed : line.content.count '\n' = 0 :=
    List.count_eq_zero.mpr stands.noLineFeed
  obtain ⟨before, text, more, shape, first, _, number⟩ := stands
  rw [number, sourceEnd, shape, (first.eq_of_unterminated unterminated).1]
  simp [noFeed]

end Line

/-- The lines of a text stand in it, one behind the other. -/
theorem locateLines_standsIn
    {source : String}
    {before text : List Char}
    (shape : source.toList = before ++ text) :
    (∀ line ∈ locateLines (1 + before.count '\n') (byteLength before)
        (cutLines text),
      line.StandsIn source ∧
        1 + before.count '\n' ≤ line.number ∧
        byteLength before ≤ line.offset) ∧
    (locateLines (1 + before.count '\n') (byteLength before)
      (cutLines text)).Pairwise Line.IsBefore := by
  induction text using firstLine_induction generalizing before with
  | nil =>
      simp [cutLines, locateLines]
  | @line text content terminator more first inductionHypothesis =>
      let line : Line :=
        ⟨1 + before.count '\n', byteLength before, content, terminator⟩
      have noFeed : content.count '\n' = 0 :=
        List.count_eq_zero.mpr first.endsBefore.noLineFeed
      have nextNumber :
          (line.next more).line =
            1 + (before ++ (content ++ terminator)).count '\n' := by
        simp [line, Line.next, noFeed, Nat.add_assoc]
      have nextOffset :
          (line.next more).offset =
            byteLength (before ++ (content ++ terminator)) := by
        simp [line, Line.next]
      have nextShape :
          source.toList = (before ++ (content ++ terminator)) ++ more := by
        rw [shape, first.text_eq]
        simp
      obtain ⟨standing, ordered⟩ := inductionHypothesis nextShape
      rw [← nextNumber, ← nextOffset] at standing ordered
      rw [Session.locateLines_eq first]
      refine ⟨List.forall_mem_cons.mpr ⟨⟨?_, ?_, ?_⟩, ?_⟩,
        List.pairwise_cons.mpr ⟨?_, ordered⟩⟩
      · exact ⟨before, text, more, shape, first, rfl, rfl⟩
      · exact Nat.le_refl _
      · exact Nat.le_refl _
      · intro later member
        obtain ⟨stands, number, offset⟩ := standing later member
        refine ⟨stands, Nat.le_trans ?_ number, Nat.le_trans ?_ offset⟩
        · exact Nat.le_add_right _ _
        · exact Nat.le_add_right _ _
      · intro later member
        obtain ⟨_, number, offset⟩ := standing later member
        have terminated : terminator ≠ [] := by
          intro unterminated
          simp [(first.eq_of_unterminated unterminated).2, cutLines, locateLines]
            at member
        have counted : terminator.count '\n' = 1 :=
          first.count_terminator terminated
        refine ⟨Nat.lt_of_lt_of_le ?_ number, offset⟩
        simp only [line, Line.next, counted]
        exact Nat.lt_succ_self _

theorem physicalLines_standsIn
    (source : String) :
    (∀ line ∈ physicalLines source, line.StandsIn source) ∧
      (physicalLines source).Pairwise Line.IsBefore := by
  have shape : source.toList = [] ++ source.toList := rfl
  obtain ⟨standing, ordered⟩ := locateLines_standsIn shape
  exact ⟨fun line member => (standing line member).1, ordered⟩

theorem logicalLines_ordered
    (source : String) :
    (logicalLines source).Pairwise Line.IsBefore :=
  (physicalLines_standsIn source).2.filter Line.isLogical

end LayoutLexer
