import LayoutLexer.Proofs.Places

namespace LayoutLexer

/-!
# Text in front of a source

A text that is put in front of a source moves everything in it by the same
number of lines and bytes. What is found in the source does not depend on where
it stands: a moved line has the same width and the same tokens, moved with it.
If the text in front is made of whole lines, the lines of the source stay as
they are behind it (`logicalLines_append`).
-/

/-- How many lines and bytes something is moved. -/
structure Displacement where
  lines : Nat
  bytes : Nat

/-- How far a text moves what is put behind it. -/
def Displacement.behind (source : String) : Displacement where
  lines := source.toList.count '\n'
  bytes := source.utf8ByteSize

/-! ### Moved things -/

def Span.movedBy (span : Span) (displacement : Displacement) : Span where
  start := span.start + displacement.bytes
  stop := span.stop + displacement.bytes

/-- The same token, further on in a source. -/
def Token.movedBy (token : Token) (displacement : Displacement) : Token :=
  { token with
    line := token.line + displacement.lines
    span := token.span.movedBy displacement }

/-- The same error, further on in a source. -/
def SessionError.movedBy
    (error : SessionError)
    (displacement : Displacement) :
    SessionError :=
  match error with
  | .lexical c line span =>
      .lexical c (line + displacement.lines) (span.movedBy displacement)
  | .indentation line width span levels =>
      .indentation (line + displacement.lines) width (span.movedBy displacement)
        levels
  | .parser line kind rejection span =>
      .parser (line + displacement.lines) kind rejection
        (span.movedBy displacement)

/-- The same text, further on in a source. -/
def Cursor.movedBy (cursor : Cursor) (displacement : Displacement) : Cursor :=
  { cursor with
    offset := cursor.offset + displacement.bytes
    line := cursor.line + displacement.lines }

/-- The same tokens and the same error, further on in a source. -/
def Lexed.movedBy (lexed : Lexed) (displacement : Displacement) : Lexed where
  tokens := lexed.tokens.map (·.movedBy displacement)
  error? := lexed.error?.map (·.movedBy displacement)

/-- The same line, further on in a source. -/
def Line.movedBy (line : Line) (displacement : Displacement) : Line :=
  { line with
    number := line.number + displacement.lines
    offset := line.offset + displacement.bytes }

section

variable (displacement : Displacement)

namespace Cursor

variable (cursor : Cursor)

@[simp] theorem rest_movedBy : (cursor.movedBy displacement).rest = cursor.rest :=
  rfl

theorem spanOf_movedBy
    (length : Nat) :
    (cursor.movedBy displacement).spanOf length =
      (cursor.spanOf length).movedBy displacement := by
  simp [movedBy, spanOf, Span.movedBy, Nat.add_right_comm]

theorem token_movedBy
    (kind : TokenKind)
    (length : Nat) :
    (cursor.movedBy displacement).token kind length =
      (cursor.token kind length).movedBy displacement := by
  rw [token, spanOf_movedBy]
  rfl

theorem advance_movedBy
    (length : Nat) :
    (cursor.movedBy displacement).advance length =
      (cursor.advance length).movedBy displacement := by
  simp [movedBy, advance, Nat.add_right_comm]

end Cursor

/-- A moved text has the same tokens, moved with it, and the same error. -/
theorem lexemes_movedBy
    (cursor : Cursor) :
    lexemes (cursor.movedBy displacement) =
      (lexemes cursor).movedBy displacement := by
  fun_induction lexemes cursor with
  | case1 cursor ahead =>
      rw [lexemes_eq, Cursor.rest_movedBy, ahead]
      rfl
  | case2 cursor c rest ahead blank inductionHypothesis =>
      rw [lexemes_eq, Cursor.rest_movedBy, ahead]
      dsimp only
      rw [if_pos blank, Cursor.advance_movedBy, inductionHypothesis]
  | case3 cursor rest ahead noBlank =>
      rw [lexemes_eq, Cursor.rest_movedBy, ahead]
      dsimp only
      rw [if_neg noBlank, if_pos rfl]
      rfl
  | case4 cursor c rest ahead noBlank noMark kind length found
      inductionHypothesis =>
      rw [← longestMatch_eq_firstLongest] at found
      rw [lexemes_eq, Cursor.rest_movedBy, found, ahead]
      dsimp only
      rw [if_neg noBlank, if_neg noMark, Cursor.advance_movedBy,
        Cursor.token_movedBy, inductionHypothesis]
      rfl
  | case5 cursor c rest ahead noBlank noMark unmatched =>
      rw [← longestMatch_eq_firstLongest] at unmatched
      rw [lexemes_eq, Cursor.rest_movedBy, unmatched, ahead]
      dsimp only
      rw [if_neg noBlank, if_neg noMark, Cursor.spanOf_movedBy]
      rfl

/-! ### Moved lines -/

namespace Line

variable (line : Line)

@[simp] theorem width_movedBy : (line.movedBy displacement).width = line.width :=
  rfl

theorem lexed_movedBy :
    (line.movedBy displacement).lexed = line.lexed.movedBy displacement :=
  lexemes_movedBy displacement line.start

theorem misfit_movedBy
    (mismatch : IndentMismatch) :
    (line.movedBy displacement).misfit mismatch =
      (line.misfit mismatch).movedBy displacement := by
  have place :
      (line.movedBy displacement).start = line.start.movedBy displacement :=
    rfl
  rw [misfit, place, width_movedBy, Cursor.spanOf_movedBy]
  rfl

theorem layout_movedBy
    (change : IndentChange) :
    pushedBy ((line.movedBy displacement).layout change) =
      (pushedBy (line.layout change)).map (·.movedBy displacement) := by
  have moved :
      ∀ kind,
        (line.movedBy displacement).start.token kind line.width =
          (line.start.token kind line.width).movedBy displacement :=
    fun kind => line.start.token_movedBy displacement kind line.width
  cases change with
  | unchanged =>
      rfl
  | indent =>
      simp [layout, moved]
  | dedent closed =>
      simp [layout, moved]

theorem newline_movedBy :
    pushedBy (line.movedBy displacement).newline =
      (pushedBy line.newline).map (·.movedBy displacement) := by
  have place :
      (line.movedBy displacement).ending = line.ending.movedBy displacement := by
    simp [ending, movedBy, Cursor.movedBy, Nat.add_right_comm]
  by_cases terminated : line.terminator = []
  · have moved : (line.movedBy displacement).terminator = [] := terminated
    simp [newline, terminated, moved]
  · have moved : (line.movedBy displacement).terminator ≠ [] := terminated
    rw [newline_of_terminated terminated, newline_of_terminated moved, place,
      Cursor.token_movedBy]
    rfl

/-- A moved line has the same tokens, moved with it. -/
theorem tokens_movedBy
    (change : IndentChange) :
    (line.movedBy displacement).tokens change =
      (line.tokens change).map (·.movedBy displacement) := by
  rw [tokens, layout_movedBy, lexed_movedBy, newline_movedBy, tokens,
    List.map_append, List.map_append]
  rfl

end Line

/-- The lines of a text are the same wherever it stands. -/
theorem locateLines_movedBy
    (number offset : Nat)
    (pieces : List (List Char)) :
    locateLines (number + displacement.lines) (offset + displacement.bytes)
        pieces =
      (locateLines number offset pieces).map (·.movedBy displacement) := by
  induction pieces generalizing number offset with
  | nil =>
      rfl
  | cons piece pieces inductionHypothesis =>
      rw [locateLines, locateLines, List.map_cons, ← inductionHypothesis,
        Nat.add_right_comm number, Nat.add_right_comm offset]
      rfl

end

/-! ### Whole lines in front -/

/-- A text ends where a line ends. -/
def WholeLines (text : List Char) : Prop :=
  text = [] ∨ text.getLast? = some '\n'

theorem FirstLine.append
    {text content terminator more : List Char}
    (first : FirstLine text content terminator more)
    (terminated : terminator ≠ [])
    (others : List Char) :
    FirstLine (text ++ others) content terminator (more ++ others) := by
  cases first with
  | lineFeed _ _ noFeed noReturn =>
      rw [List.append_assoc]
      exact .lineFeed content (more ++ others) noFeed noReturn
  | returnFeed _ _ noFeed =>
      rw [List.append_assoc]
      exact .returnFeed content (more ++ others) noFeed
  | unterminated =>
      exact absurd rfl terminated

/-- The first of whole lines has a terminator, and whole lines behind it. -/
theorem FirstLine.wholeLines
    {text content terminator more : List Char}
    (first : FirstLine text content terminator more)
    (whole : WholeLines text) :
    terminator ≠ [] ∧ WholeLines more := by
  rcases whole with isEmpty | ends
  · have shorter := first.length_lt
    rw [isEmpty] at shorter
    cases shorter
  · constructor
    · intro unterminated
      apply first.endsBefore.noLineFeed
      rw [(first.eq_of_unterminated unterminated).1] at ends
      exact List.mem_of_getLast? ends
    · by_cases isEmpty : more = []
      · exact .inl isEmpty
      · right
        have sameLast : more.getLast? = some (more.getLast isEmpty) :=
          List.getLast?_eq_some_getLast isEmpty
        rw [first.text_eq, ← List.append_assoc, List.getLast?_append, sameLast,
          Option.some_or] at ends
        rw [sameLast, ends]

/-- Behind whole lines, the lines of a text are what they are alone. -/
theorem locateLines_append
    {text : List Char}
    (whole : WholeLines text)
    (others : List Char)
    (number offset : Nat) :
    locateLines number offset (cutLines (text ++ others)) =
      locateLines number offset (cutLines text) ++
        locateLines (number + text.count '\n') (offset + byteLength text)
          (cutLines others) := by
  induction text using firstLine_induction generalizing number offset with
  | nil =>
      rfl
  | @line text content terminator more first inductionHypothesis =>
      obtain ⟨terminated, wholeMore⟩ := first.wholeLines whole
      have noFeed : content.count '\n' = 0 :=
        List.count_eq_zero.mpr first.endsBefore.noLineFeed
      let line : Line := ⟨number, offset, content, terminator⟩
      have behindLines :
          (line.next more).line + more.count '\n' = number + text.count '\n' := by
        simp [line, Line.next, first.text_eq, noFeed, Nat.add_assoc]
      have behindBytes :
          (line.next more).offset + byteLength more =
            offset + byteLength text := by
        simp [line, Line.next, first.text_eq, Nat.add_assoc]
      rw [Session.locateLines_eq (first.append terminated others),
        Session.locateLines_eq first, List.cons_append, ← behindLines,
        ← behindBytes, ← inductionHypothesis wholeMore]
      rfl

/-- The logical lines of two texts, the first of which is made of whole lines. -/
theorem logicalLines_append
    {first : String}
    (whole : WholeLines first.toList)
    (second : String) :
    logicalLines (first ++ second) =
      logicalLines first ++
        (logicalLines second).map (·.movedBy (.behind first)) := by
  have moved :
      locateLines (1 + first.toList.count '\n') (0 + byteLength first.toList)
          (cutLines second.toList) =
        (physicalLines second).map (·.movedBy (.behind first)) := by
    rw [← utf8ByteSize_eq_byteLength]
    exact locateLines_movedBy (.behind first) 1 0 (cutLines second.toList)
  rw [logicalLines, physicalLines, String.toList_append,
    locateLines_append whole, moved, List.filter_append, List.filter_map]
  rfl

/-- The end of a source is moved with it. -/
theorem sourceEnd_append
    (first second : String) :
    sourceEnd (first ++ second) = (sourceEnd second).movedBy (.behind first) := by
  simp [sourceEnd, Cursor.movedBy, Displacement.behind, utf8ByteSize_eq_byteLength,
    Nat.add_comm, Nat.add_left_comm]

theorem closingTokens_append
    (first second : String)
    (indentation : Indentation) :
    closingTokens (first ++ second) indentation =
      (closingTokens second indentation).map (·.movedBy (.behind first)) := by
  simp [closingTokens, sourceEnd_append, Cursor.token_movedBy]

end LayoutLexer
