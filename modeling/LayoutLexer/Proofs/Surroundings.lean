import LayoutLexer.Proofs.Coverage
import LayoutLexer.Proofs.Displacement

namespace LayoutLexer

/-!
# A line and the text around it

A logical line has whole lines in front of it and some text behind it. The lines in
front are found without the line itself, so they stay as they are when it changes
(`Line.Amid.logicalLines_eq`). This module takes a source apart around one of its
logical lines and says which other lines may stand in its place.
-/

open Session

/-! ### First lines -/

namespace FirstLine

variable {text content terminator more : List Char}

/-- A line that has ended ends in the same way before any other text. -/
theorem withMore
    (first : FirstLine text content terminator more)
    (terminated : terminator ≠ [])
    (other : List Char) :
    FirstLine (content ++ (terminator ++ other)) content terminator other := by
  cases first with
  | lineFeed _ _ noFeed noReturn =>
      exact .lineFeed content other noFeed noReturn
  | returnFeed _ _ noFeed =>
      exact .returnFeed content other noFeed
  | unterminated =>
      exact absurd rfl terminated

/-- A line that has ended is a whole line, and whole lines may follow it. -/
theorem wholeLines_append
    {others : List Char}
    (first : FirstLine text content terminator more)
    (terminated : terminator ≠ [])
    (whole : WholeLines others) :
    WholeLines (content ++ (terminator ++ others)) := by
  right
  rcases whole with rfl | ends
  · cases first with
    | lineFeed =>
        simp
    | returnFeed =>
        simp
    | unterminated =>
        exact absurd rfl terminated
  · simp [List.getLast?_append, ends]

/-- Before a bare line feed, no content ends in a carriage return. -/
theorem noReturn
    (first : FirstLine text content terminator more)
    (feeds : terminator = ['\n']) :
    content.getLast? ≠ some '\r' := by
  cases first with
  | lineFeed _ _ _ noReturn =>
      exact noReturn
  | returnFeed =>
      cases feeds
  | unterminated =>
      cases feeds

/-- Another content may stand before a terminator if it does not change it. -/
theorem withContent
    {other : List Char}
    (first : FirstLine text content terminator more)
    (present : other ≠ [])
    (noFeed : '\n' ∉ other)
    (noReturn : terminator = ['\n'] → other.getLast? ≠ some '\r') :
    FirstLine (other ++ (terminator ++ more)) other terminator more := by
  cases first with
  | lineFeed =>
      exact .lineFeed other more noFeed (noReturn rfl)
  | returnFeed =>
      exact .returnFeed other more noFeed
  | unterminated =>
      rw [List.append_nil, List.append_nil]
      exact .unterminated other noFeed present

/-- Text before a line joins its content, unless it ends in half a terminator. -/
theorem prepend
    {front : List Char}
    (first : FirstLine text content terminator more)
    (noFeed : '\n' ∉ front)
    (noReturn : front.getLast? = some '\r' → text.head? ≠ some '\n') :
    FirstLine (front ++ text) (front ++ content) terminator more := by
  have noFeedBoth : ∀ {text}, '\n' ∉ text → '\n' ∉ front ++ text := by
    intro text noFeedHere member
    exact (List.mem_append.mp member).elim noFeed noFeedHere
  cases first with
  | lineFeed _ _ noFeedHere noReturnHere =>
      rw [← List.append_assoc]
      refine .lineFeed (front ++ content) more (noFeedBoth noFeedHere) ?_
      cases content with
      | nil =>
          rw [List.append_nil]
          exact fun returns => noReturn returns rfl
      | cons c rest =>
          rwa [List.getLast?_append_of_ne_nil front (List.cons_ne_nil c rest)]
  | returnFeed _ _ noFeedHere =>
      rw [← List.append_assoc]
      exact .returnFeed (front ++ content) more (noFeedBoth noFeedHere)
  | unterminated _ noFeedHere present =>
      exact .unterminated (front ++ text) (noFeedBoth noFeedHere) (by simp [present])

end FirstLine

theorem logicalLines_eq_remainingLines
    (source : String) :
    logicalLines source = remainingLines source.toList 0 1 :=
  rfl

/-- Behind whole lines, the logical lines of a text are what they are alone. -/
theorem remainingLines_append
    {text : List Char}
    (whole : WholeLines text)
    (others : List Char)
    (offset number : Nat) :
    remainingLines (text ++ others) offset number =
      remainingLines text offset number ++
        remainingLines others (offset + byteLength text) (number + text.count '\n') := by
  rw [remainingLines, locateLines_append whole, List.filter_append]
  rfl

/-- The logical lines of a text are the same wherever it stands. -/
theorem remainingLines_movedBy
    (displacement : Displacement)
    (text : List Char)
    (offset number : Nat) :
    remainingLines text (offset + displacement.bytes) (number + displacement.lines) =
      (remainingLines text offset number).map (·.movedBy displacement) := by
  rw [remainingLines, locateLines_movedBy, List.filter_map]
  rfl

/-- Text without line feeds is one line, if it is a logical one at all. -/
theorem remainingLines_of_noLineFeed
    {text : List Char}
    (noFeed : '\n' ∉ text)
    (offset number : Nat) :
    let line : Line := ⟨number, offset, text, []⟩
    remainingLines text offset number = if line.isLogical then [line] else [] := by
  intro line
  by_cases isEmpty : text = []
  · simp only [line, isEmpty]
    rfl
  · exact remainingLines_eq (.unterminated text noFeed isEmpty) offset number

/-! ### Lines that begin alike -/

namespace Line

variable {line other : Line}

/-- A line that is passed over has no tokens. -/
theorem lexed_of_not_isLogical
    (skipped : line.isLogical = false) :
    line.lexed = ⟨[], none⟩ := by
  have body :
      (line.start.advance line.width).rest = line.content.dropWhile isBlank :=
    drop_blankRun line.content
  have passed : line.lexed = lexemes (line.start.advance line.width) :=
    lexemes_blankRun line.start
  rw [isLogical] at skipped
  rw [passed, lexemes_eq, body]
  cases ahead : line.content.dropWhile isBlank with
  | nil =>
      rfl
  | cons c rest =>
      rw [ahead] at skipped
      obtain rfl : c = '#' := by
        simpa using skipped
      rfl

section

variable (run : other.leadingRun = line.leadingRun)
variable (offset : other.offset = line.offset)
variable (number : other.number = line.number)
include run

theorem width_of_leadingRun : other.width = line.width :=
  congrArg List.length run

include offset

/-- Lines with the same leading run at the same place have the same bytes in it. -/
theorem spanOf_of_leadingRun :
    other.start.spanOf other.width = line.start.spanOf line.width := by
  rw [Cursor.spanOf, Cursor.spanOf, start, start, take_width, take_width, run, offset]

include number

theorem token_of_leadingRun
    (kind : TokenKind) :
    other.start.token kind other.width = line.start.token kind line.width := by
  rw [Cursor.token, Cursor.token, spanOf_of_leadingRun run offset, start, start,
    take_width, take_width, run, number]

/-- What the width of a line pushes is settled by its leading run and its place. -/
theorem layout_of_leadingRun
    (change : IndentChange) :
    other.layout change = line.layout change := by
  have width := width_of_leadingRun run
  have token := token_of_leadingRun run offset number
  cases change with
  | unchanged =>
      rfl
  | indent =>
      rw [layout, layout, token, number, width]
  | dedent closed =>
      rw [layout, layout, token, number, width]

theorem misfit_of_leadingRun
    (mismatch : IndentMismatch) :
    other.misfit mismatch = line.misfit mismatch := by
  rw [misfit, misfit, spanOf_of_leadingRun run offset, width_of_leadingRun run, number]

end

end Line

/-! ### Tokens in lines -/

section

variable {source : String}
variable {token : Token}

/-- A token that stands for text is found in a logical line, or ends one. -/
theorem exists_line_of_visible
    (member : token ∈ stream source)
    (visible : token.isVisible = true) :
    ∃ line ∈ logicalLines source,
      token ∈ line.lexed.tokens ∨
        token = line.ending.token .newline line.terminator.length := by
  rw [stream_eq_streamFrom] at member
  rcases emits_of_mem_streamFrom member with
    ⟨line, isLine, emits⟩ | ⟨kind, isDedent | isEof, rfl⟩
  · refine ⟨line, isLine, ?_⟩
    cases emits with
    | layout isLayout =>
        rcases isLayout with rfl | rfl <;> cases visible
    | lexical member =>
        exact .inl member
    | newline _ =>
        exact .inr rfl
  · rw [isDedent] at visible
    cases visible
  · rw [isEof] at visible
    cases visible

theorem exists_line_of_lexical
    (member : token ∈ stream source)
    (isLexical : token.kind.isLayout = false) :
    ∃ line ∈ logicalLines source, token ∈ line.lexed.tokens := by
  have visible : token.isVisible = true := by
    simp [Token.isVisible, isLexical]
  obtain ⟨line, isLine, inLine | rfl⟩ := exists_line_of_visible member visible
  · exact ⟨line, isLine, inLine⟩
  · cases isLexical

theorem exists_line_of_newline
    (member : token ∈ stream source)
    (isNewline : token.kind = .newline) :
    ∃ line ∈ logicalLines source,
      token = line.ending.token .newline line.terminator.length := by
  have visible : token.isVisible = true := by
    simp [Token.isVisible, isNewline]
  obtain ⟨line, isLine, inLine | isEnding⟩ := exists_line_of_visible member visible
  · have isLexical := isLayout_of_mem_lexemes inLine
    rw [isNewline] at isLexical
    cases isLexical
  · exact ⟨line, isLine, isEnding⟩

end

/-! ### Lines in a source -/

/-- A line stands in a source between whole lines and some other text. -/
structure Line.Amid
    (line : Line)
    (source : String)
    (before more : List Char) : Prop where
  text : source.toList = before ++ (line.content ++ (line.terminator ++ more))
  whole : WholeLines before
  first :
    FirstLine (line.content ++ (line.terminator ++ more)) line.content
      line.terminator more
  offset : line.offset = byteLength before
  number : line.number = 1 + before.count '\n'

/-- A logical line has its place among those in front of it and those behind it. -/
theorem Line.Amid.logicalLines_eq
    {line : Line}
    {source : String}
    {before more : List Char}
    (amid : line.Amid source before more)
    (logical : line.isLogical = true) :
    logicalLines source =
      remainingLines before 0 1 ++
        line :: remainingLines more (line.next more).offset (line.next more).line := by
  have isLine :
      (⟨line.number, line.offset, line.content, line.terminator⟩ : Line) = line :=
    rfl
  rw [logicalLines_eq_remainingLines, amid.text, remainingLines_append amid.whole,
    Nat.zero_add, ← amid.offset, ← amid.number, remainingLines_eq amid.first, isLine,
    if_pos logical]

/-- What is left of a text can be taken apart around any of its logical lines. -/
theorem exists_lines_before
    {text : List Char}
    {offset number : Nat}
    {earlier later : List Line}
    {line : Line}
    (lines : remainingLines text offset number = earlier ++ line :: later) :
    ∃ before more,
      text = before ++ (line.content ++ (line.terminator ++ more)) ∧
        WholeLines before ∧
        FirstLine (line.content ++ (line.terminator ++ more)) line.content
          line.terminator more ∧
        line.offset = offset + byteLength before ∧
        line.number = number + before.count '\n' ∧
        remainingLines before offset number = earlier := by
  induction text using firstLine_induction generalizing offset number earlier with
  | nil =>
      exact absurd lines.symm (by simp [remainingLines, cutLines, locateLines])
  | @line text content terminator more first inductionHypothesis =>
      let head : Line := ⟨number, offset, content, terminator⟩
      have allLines := (remainingLines_eq first offset number).symm.trans lines
      by_cases isHead : head.isLogical = true ∧ earlier = []
      · obtain ⟨logical, rfl⟩ := isHead
        rw [if_pos logical] at allLines
        obtain ⟨rfl, _⟩ := List.cons_eq_cons.mp allLines
        exact ⟨[], more, first.text_eq, .inl rfl, first.text_eq ▸ first, rfl, rfl, rfl⟩
      · -- The line is found behind the first one, which therefore has ended.
        obtain ⟨earlierBehind, isEarlier, linesBehind⟩ :
            ∃ earlierBehind,
              earlier = (if head.isLogical then [head] else []) ++ earlierBehind ∧
                remainingLines more (head.next more).offset (head.next more).line =
                  earlierBehind ++ line :: later := by
          by_cases logical : head.isLogical = true
          · rw [if_pos logical] at allLines ⊢
            cases earlier with
            | nil =>
                exact absurd ⟨logical, rfl⟩ isHead
            | cons _ earlier =>
                obtain ⟨rfl, behind⟩ := List.cons_eq_cons.mp allLines
                exact ⟨earlier, rfl, behind⟩
          · rw [if_neg logical] at allLines ⊢
            exact ⟨earlier, rfl, allLines⟩
        obtain ⟨before, moreBehind, isMore, whole, firstBehind, isOffset, isNumber,
          areEarlier⟩ := inductionHypothesis linesBehind
        have terminated : terminator ≠ [] := by
          intro unterminated
          rw [(first.eq_of_unterminated unterminated).2] at linesBehind
          exact absurd linesBehind.symm
            (by simp [remainingLines, cutLines, locateLines])
        have noFeed : content.count '\n' = 0 :=
          List.count_eq_zero.mpr first.endsBefore.noLineFeed
        refine ⟨content ++ (terminator ++ before), moreBehind, ?_, ?_, firstBehind, ?_,
          ?_, ?_⟩
        · rw [first.text_eq, isMore]
          simp only [List.append_assoc]
        · exact first.wholeLines_append terminated whole
        · rw [isOffset]
          simp [head, Line.next, Nat.add_assoc]
        · rw [isNumber]
          simp [head, Line.next, noFeed, Nat.add_assoc]
        · rw [remainingLines_eq (first.withMore terminated before), isEarlier,
            ← areEarlier]
          by_cases logical : head.isLogical = true
          · rw [if_pos logical, if_pos logical]
            rfl
          · rw [if_neg logical, if_neg logical]
            rfl

/-- A source can be taken apart around any of its logical lines. -/
theorem exists_amid
    {source : String}
    {earlier later : List Line}
    {line : Line}
    (lines : logicalLines source = earlier ++ line :: later) :
    ∃ before more,
      line.Amid source before more ∧ remainingLines before 0 1 = earlier := by
  obtain ⟨before, more, text, whole, first, offset, number, isEarlier⟩ :=
    exists_lines_before lines
  rw [Nat.zero_add] at offset
  exact ⟨before, more, ⟨text, whole, first, offset, number⟩, isEarlier⟩

end LayoutLexer
