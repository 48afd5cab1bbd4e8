import LayoutLexer.Proofs.Coverage
import LayoutLexer.Proofs.Displacement
import LayoutLexer.Proofs.WellBlocked

namespace LayoutLexer

/-!
# A final line feed

A line feed at the end of a source closes a last line that had no terminator, or
adds a blank line. Either way the logical lines keep their widths and contents
(`logicalLines_concat_lineFeed`), so nothing changes in front of the place where
the source used to end. What stood there, the dedents that close the open blocks
and the end of the input, moves one line and one byte further on, and behind an
unterminated logical line its line end comes in front of them.

For the checker this is a change of order: it now sees the end of the last line
before these dedents, where it used to close that line only at the end of the
input. Its answer is the same (`check_concat_lineFeed_iff`).

A source that ends in a carriage return is apart, because the line feed would
make one terminator with it.
-/

/-! ### Closed lines -/

namespace Line

/-- The line, with a line feed behind it if it had no terminator. -/
def closed (line : Line) : Line :=
  { line with
    terminator := if line.terminator = [] then ['\n'] else line.terminator }

/-- The line end that a line gets when it is closed, if it had none. -/
def addedNewline (line : Line) : List Token :=
  if line.terminator = [] then
    [line.closed.ending.token .newline 1]
  else
    []

theorem closed_of_terminated
    {line : Line}
    (terminated : line.terminator ≠ []) :
    line.closed = line := by
  rw [closed, if_neg terminated]

theorem addedNewline_of_terminated
    {line : Line}
    (terminated : line.terminator ≠ []) :
    line.addedNewline = [] :=
  if_neg terminated

theorem closed_terminated
    (line : Line) :
    line.closed.terminator ≠ [] := by
  rw [closed]
  split
  · exact List.cons_ne_nil '\n' []
  · assumption

theorem newline_closed
    (line : Line) :
    pushedBy line.closed.newline =
      pushedBy line.newline ++ line.addedNewline := by
  by_cases terminated : line.terminator = []
  · have added : line.closed.terminator = ['\n'] := if_pos terminated
    rw [newline_of_terminated line.closed_terminated, addedNewline,
      if_pos terminated, added]
    simp [newline, terminated]
  · rw [closed_of_terminated terminated, addedNewline_of_terminated terminated,
      List.append_nil]

/-- A closed line has the tokens it had, and the line end it lacked. -/
theorem tokens_closed
    (line : Line)
    (change : IndentChange) :
    line.closed.tokens change = line.tokens change ++ line.addedNewline := by
  have sameLayout : line.closed.layout change = line.layout change := rfl
  have sameLexed : line.closed.lexed = line.lexed := rfl
  rw [tokens, sameLayout, sameLexed, newline_closed, tokens]
  simp only [List.append_assoc]

end Line

/-- A line feed behind a text closes the last of its logical lines. -/
theorem remainingLines_concat_lineFeed
    {text : List Char}
    (noReturn : text.getLast? ≠ some '\r')
    (offset number : Nat) :
    Session.remainingLines (text ++ ['\n']) offset number =
      (Session.remainingLines text offset number).map Line.closed := by
  induction text using firstLine_induction generalizing offset number with
  | nil =>
      -- The line feed makes a blank line, which is not a logical one.
      rfl
  | @line text content terminator more first inductionHypothesis =>
      let line : Line := ⟨number, offset, content, terminator⟩
      by_cases terminated : terminator = []
      · obtain ⟨isContent, isLast⟩ := first.eq_of_unterminated terminated
        have noFeed := first.endsBefore.noLineFeed
        rw [isContent] at noReturn first ⊢
        rw [isLast, terminated] at first
        have opened :
            Session.remainingLines content offset number =
              if line.isLogical then [line] else [] := by
          simp only [line, terminated]
          exact Session.remainingLines_eq first offset number
        have closed :
            Session.remainingLines (content ++ ['\n']) offset number =
              if line.isLogical then [line.closed] else [] := by
          simp only [line, terminated]
          exact Session.remainingLines_eq
            (.lineFeed content [] noFeed noReturn) offset number
        rw [opened, closed]
        split <;> rfl
      · have moreNoReturn : more.getLast? ≠ some '\r' := by
          intro returns
          apply noReturn
          rw [first.text_eq, ← List.append_assoc, List.getLast?_append, returns,
            Option.some_or]
        have later :
            Session.remainingLines (more ++ ['\n'])
                (line.next (more ++ ['\n'])).offset
                (line.next (more ++ ['\n'])).line =
              (Session.remainingLines more (line.next more).offset
                (line.next more).line).map Line.closed :=
          inductionHypothesis moreNoReturn _ _
        rw [Session.remainingLines_eq (first.append terminated ['\n']),
          Session.remainingLines_eq first, later]
        split
        · rw [List.map_cons, Line.closed_of_terminated terminated]
        · rfl

theorem logicalLines_concat_lineFeed
    {source : String}
    (noReturn : source.toList.getLast? ≠ some '\r') :
    logicalLines (source ++ "\n") = (logicalLines source).map Line.closed := by
  have text : (source ++ "\n").toList = source.toList ++ ['\n'] := by
    rw [String.toList_append]
    rfl
  rw [logicalLines, physicalLines, text]
  exact remainingLines_concat_lineFeed noReturn 0 1

/-! ### The line end that is added -/

/-- Whether the last line of a source is a logical one and has no terminator. -/
def endsInOpenLine (source : String) : Bool :=
  (physicalLines source).getLast?.any fun line =>
    line.isLogical && line.terminator.isEmpty

/-- The line end that a line feed makes at the end of a source. -/
def finalNewline (source : String) : Token where
  kind := .newline
  text := "\n"
  line := (sourceEnd source).line
  span := ⟨source.utf8ByteSize, source.utf8ByteSize + 1⟩

/-- An unterminated line is closed at the end of the source. -/
theorem Line.StandsIn.addedNewline_eq
    {line : Line}
    {source : String}
    (stands : line.StandsIn source)
    (unterminated : line.terminator = []) :
    line.addedNewline = [finalNewline source] := by
  have number := stands.number_eq unterminated
  obtain ⟨before, text, more, shape, first, offset, _⟩ := stands
  have size :
      line.offset + byteLength line.content = source.utf8ByteSize := by
    rw [utf8ByteSize_eq_byteLength, shape, byteLength_append, offset,
      (first.eq_of_unterminated unterminated).1]
  have feed : '\n'.utf8Size = 1 := rfl
  simp [Line.addedNewline, unterminated, finalNewline, Line.closed, Line.ending,
    Cursor.token, Cursor.spanOf, size, number, feed]

/-- Only a last line can be unterminated, so at most one line end is added. -/
theorem flatMap_addedNewline_logicalLines
    (source : String) :
    (logicalLines source).flatMap Line.addedNewline =
      if endsInOpenLine source then [finalNewline source] else [] := by
  have standing := (physicalLines_standsIn source).1
  have terminated :
      (physicalLines source).Pairwise fun line _ => line.terminator ≠ [] :=
    locateLines_terminated source.toList 1 0
  rw [logicalLines, endsInOpenLine]
  rcases List.eq_nil_or_concat' (physicalLines source) with
    none | ⟨init, last, shape⟩
  · rw [none]
    rfl
  · rw [shape] at standing terminated ⊢
    have initTerminated : ∀ line ∈ init, line.terminator ≠ [] := by
      intro line member
      have before := (List.pairwise_append.mp terminated).2.2
      exact before line member last List.mem_cons_self
    have nothingAdded :
        (init.filter Line.isLogical).flatMap Line.addedNewline = [] := by
      rw [List.flatMap_eq_nil_iff]
      intro line member
      exact Line.addedNewline_of_terminated
        (initTerminated line (List.mem_of_mem_filter member))
    rw [List.filter_append, List.flatMap_append, nothingAdded, List.nil_append,
      List.getLast?_concat, Option.any_some, List.filter_singleton]
    cases last.isLogical with
    | false =>
        rfl
    | true =>
        by_cases unterminated : last.terminator = []
        · have added :=
            (standing last (by simp)).addedNewline_eq unterminated
          simp [unterminated, added]
        · simp [unterminated, Line.addedNewline_of_terminated unterminated]

/-- Closing lines of which only the last can be open adds to the end only. -/
theorem groups_map_closed
    {lines : List Line}
    {changes : List IndentChange}
    (terminated : lines.Pairwise fun line _ => line.terminator ≠ [])
    (sameLength : changes.length = lines.length) :
    (List.zipWith Line.tokens (lines.map Line.closed) changes).flatten =
      (List.zipWith Line.tokens lines changes).flatten ++
        lines.flatMap Line.addedNewline := by
  induction lines generalizing changes with
  | nil =>
      rfl
  | cons line others inductionHypothesis =>
      obtain ⟨endsBefore, terminatedOthers⟩ := List.pairwise_cons.mp terminated
      obtain ⟨change, otherChanges, rfl⟩ :=
        List.exists_cons_of_length_eq_add_one sameLength
      rw [List.map_cons, List.zipWith_cons_cons, List.flatten_cons,
        inductionHypothesis terminatedOthers (Nat.succ.inj sameLength),
        Line.tokens_closed, List.zipWith_cons_cons, List.flatten_cons,
        List.flatMap_cons]
      cases others with
      | nil =>
          simp
      | cons next later =>
          have closedAlready := endsBefore next List.mem_cons_self
          simp [Line.addedNewline_of_terminated closedAlready]

/-- The last token of some lines stands for text. -/
theorem isVisible_of_getLast?_groups
    {lines : List Line}
    {changes : List IndentChange}
    {last : Token}
    (present : ∀ line ∈ lines, line.lexed.tokens ≠ [])
    (isLast :
      (List.zipWith Line.tokens lines changes).flatten.getLast? = some last) :
    last.isVisible = true := by
  induction lines generalizing changes with
  | nil =>
      cases isLast
  | cons line others inductionHypothesis =>
      obtain ⟨presentHere, presentOthers⟩ := List.forall_mem_cons.mp present
      cases changes with
      | nil =>
          cases isLast
      | cons change changes =>
          rw [List.zipWith_cons_cons, List.flatten_cons, List.getLast?_append,
            Option.or_eq_some_iff] at isLast
          rcases isLast with later | ⟨_, isLastHere⟩
          · exact inductionHypothesis presentOthers later
          · rw [Line.tokens, List.getLast?_append_of_ne_nil _ (by simp [presentHere])]
              at isLastHere
            rcases List.mem_append.mp (List.mem_of_getLast? isLastHere) with
              isLexical | isNewline
            · simp [Token.isVisible, isLayout_of_mem_lexemes isLexical]
            · rw [(Line.eq_of_mem_newline isNewline).2]
              rfl

/-! ### Tokens -/

/-- The end of a source is one line and one byte further behind a line feed. -/
theorem sourceEnd_concat_lineFeed
    (source : String) :
    sourceEnd (source ++ "\n") = (sourceEnd source).movedBy ⟨1, 1⟩ := by
  have feed : '\n'.utf8Size = 1 := rfl
  simp [sourceEnd, Cursor.movedBy, feed, Nat.add_assoc]

theorem closingTokens_concat_lineFeed
    (source : String)
    (indentation : Indentation) :
    closingTokens (source ++ "\n") indentation =
      (closingTokens source indentation).map (·.movedBy ⟨1, 1⟩) := by
  simp [closingTokens, sourceEnd_concat_lineFeed, Cursor.token_movedBy]

section

variable {source : String}

/-- The tokens of a source with one more line feed, by its own lines. -/
theorem lex_concat_lineFeed_eq_ok_iff
    {tokens : List Token}
    (noReturn : source.toList.getLast? ≠ some '\r') :
    lex (source ++ "\n") = .ok tokens ↔
      ∃ changes final,
        Indentation.topLevel.resolveAll ((logicalLines source).map Line.width) =
            .ok (changes, final) ∧
          (∀ line ∈ logicalLines source, line.lexed.error? = none) ∧
          tokens =
            (List.zipWith Line.tokens (logicalLines source) changes).flatten ++
              ((if endsInOpenLine source then [finalNewline source] else []) ++
                (closingTokens source final).map (·.movedBy ⟨1, 1⟩)) := by
  have sameWidths :
      ((logicalLines source).map Line.closed).map Line.width =
        (logicalLines source).map Line.width := by
    rw [List.map_map]
    rfl
  rw [lex_eq_ok_iff, logicalLines_concat_lineFeed noReturn, sameWidths,
    List.forall_mem_map]
  refine exists_congr fun changes => exists_congr fun final => ?_
  refine and_congr_right fun applied => and_congr_right fun _ => ?_
  have sameLength : changes.length = (logicalLines source).length := by
    simpa using Indentation.length_of_resolveAll applied
  rw [groups_map_closed (logicalLines_terminated source) sameLength,
    flatMap_addedNewline_logicalLines, closingTokens_concat_lineFeed,
    List.append_assoc]

end

/-! ### The checker -/

theorem completes_map_closed_iff
    (lines : List Line)
    (indentation : Indentation) :
    Completes (lines.map Line.closed) indentation ↔
      Completes lines indentation := by
  induction lines generalizing indentation with
  | nil =>
      rfl
  | cons line others inductionHypothesis =>
      rw [List.map_cons, completes_cons, completes_cons]
      simp only [inductionHypothesis]
      rfl

namespace Blocks

/--
Closing the last of some lines does not change what the checker says of them.
The line ends before the last dedents then and not behind them, but it is judged
at the same depth and the dedents are taken either way.
-/
theorem output?_streamFrom_map_closed
    {source : String}
    {lines : List Line}
    {indentation : Indentation}
    {announced : Bool}
    {counted summary : Summary}
    (other : String)
    (logical : ∀ line ∈ lines, line.isLogical = true)
    (terminated : lines.Pairwise fun line _ => line.terminator ≠ [])
    (complete : Completes lines indentation) :
    parser.output? (.atLine indentation.depth announced counted)
        (streamFrom other (lines.map Line.closed) indentation) = some summary ↔
      parser.output? (.atLine indentation.depth announced counted)
        (streamFrom source lines indentation) = some summary := by
  induction lines generalizing indentation announced counted with
  | nil =>
      rw [List.map_nil, streamFrom, streamFrom, output?_closingTokens,
        output?_closingTokens]
  | cons line others inductionHypothesis =>
      obtain ⟨isLogical, logicalOthers⟩ := List.forall_mem_cons.mp logical
      obtain ⟨endsBefore, terminatedOthers⟩ := List.pairwise_cons.mp terminated
      obtain ⟨change, resolved, found, noError, completeOthers⟩ :=
        (completes_cons line others indentation).mp complete
      have present := Line.lexed_tokens_ne_nil isLogical noError
      have lexical : ∀ token ∈ line.lexed.tokens, token.kind.isLayout = false :=
        fun _ member => isLayout_of_mem_lexemes member
      have ends := streamFrom_of_unterminated source resolved endsBefore
      obtain ⟨deepest, starts⟩ :=
        exists_output?_lineStart announced counted
          (Indentation.resolves_of_resolve found) lexical present
      have opened :
          streamFrom source (line :: others) indentation =
            pushedBy (line.layout change) ++
              (line.lexed.tokens ++
                (pushedBy line.newline ++ streamFrom source others resolved)) := by
        rw [streamFrom, found, noError]
      have closed :
          streamFrom other (line.closed :: others.map Line.closed) indentation =
            pushedBy (line.layout change) ++
              (line.lexed.tokens ++
                (pushedBy line.closed.newline ++
                  streamFrom other (others.map Line.closed) resolved)) := by
        have foundClosed :
            indentation.resolve line.closed.width = .ok (change, resolved) :=
          found
        have noErrorClosed : line.closed.lexed.error? = none := noError
        rw [streamFrom, foundClosed, noErrorClosed]
        rfl
      have presentClosed : line.closed.lexed.tokens ≠ [] := present
      have endsClosed :
          line.closed.terminator = [] →
            streamFrom other (others.map Line.closed) resolved =
              closingTokens other resolved :=
        fun unterminated => absurd unterminated line.closed_terminated
      rw [List.map_cons, opened, closed, starts, starts,
        output?_lineEnd present ends,
        ← inductionHypothesis logicalOthers terminatedOthers completeOthers]
      refine and_congr_right fun _ => and_congr_right fun _ => ?_
      exact output?_lineEnd presentClosed endsClosed

end Blocks

open Blocks

/-- The checker says the same of a source with and without a last line feed. -/
theorem check_concat_lineFeed_iff
    {source : String}
    (noReturn : source.toList.getLast? ≠ some '\r')
    (summary : Summary) :
    check (source ++ "\n") = .ok summary ↔ check source = .ok summary := by
  have logical : ∀ line ∈ logicalLines source, line.isLogical = true :=
    fun _ member => (isLogical_of_mem_logicalLines member).2
  have lines := logicalLines_concat_lineFeed noReturn
  have same :
      Completes (logicalLines source) .topLevel →
        (check (source ++ "\n") = .ok summary ↔ check source = .ok summary) := by
    intro complete
    rw [check_eq_ok_iff, check_eq_ok_iff, stream_eq_streamFrom, lines,
      stream_eq_streamFrom]
    exact output?_streamFrom_map_closed (source ++ "\n") logical
      (logicalLines_terminated source) complete
  constructor
  · intro accepted
    have complete :=
      (exists_lex_iff_completes (source ++ "\n")).mp (exists_lex_of_check accepted)
    rw [lines, completes_map_closed_iff] at complete
    exact (same complete).mp accepted
  · intro accepted
    have complete :=
      (exists_lex_iff_completes source).mp (exists_lex_of_check accepted)
    exact (same complete).mpr accepted

/--
A missing final line feed does not matter. The checker says the same with and
without it. A source can be lexed with it exactly if it can be without it. Then
all tokens stay as they are up to the last one that stands for text, the dedents
at the end of the input and the end itself move one line and one byte on, and
exactly behind an open last line one line end comes in front of them.
-/
theorem final_lineFeed_immaterial
    {source : String}
    (noReturn : source.toList.getLast? ≠ some '\r') :
    (∀ summary,
      check source = .ok summary ↔ check (source ++ "\n") = .ok summary) ∧
    ((∃ tokens, lex source = .ok tokens) ↔
      ∃ tokens, lex (source ++ "\n") = .ok tokens) ∧
    ∀ tokens, lex source = .ok tokens →
      ∃ before dedents eof,
        tokens = before ++ (dedents ++ [eof]) ∧
          (∀ last, before.getLast? = some last → last.isVisible = true) ∧
          Closes source.utf8ByteSize dedents eof ∧
          lex (source ++ "\n") =
            .ok (before ++
              ((if endsInOpenLine source then [finalNewline source] else []) ++
                (dedents ++ [eof]).map (·.movedBy ⟨1, 1⟩))) := by
  refine ⟨fun summary => (check_concat_lineFeed_iff noReturn summary).symm,
    ?_, ?_⟩
  · rw [exists_lex_iff_completes, exists_lex_iff_completes,
      logicalLines_concat_lineFeed noReturn, completes_map_closed_iff]
  · intro tokens lexed
    obtain ⟨changes, final, applied, noErrors, shape⟩ := lex_eq_ok_iff.mp lexed
    have present :
        ∀ line ∈ logicalLines source, line.lexed.tokens ≠ [] := by
      intro line member
      have logical := (isLogical_of_mem_logicalLines member).2
      exact Line.lexed_tokens_ne_nil logical (noErrors line member)
    refine ⟨_, _, _, shape, ?_, ?_, ?_⟩
    · intro last isLast
      exact isVisible_of_getLast?_groups present isLast
    · rw [utf8ByteSize_eq_byteLength]
      exact closes_closingTokens source final
    · exact (lex_concat_lineFeed_eq_ok_iff noReturn).mpr
        ⟨changes, final, applied, noErrors, rfl⟩

/--
An open last line in a block is closed in front of its dedent, which moves to the
next line with the end of the input.
-/
theorem final_lineFeed_immaterial_block :
    check "if x:\n  (y)\n" = .ok ⟨2, 1⟩ ∧
      ∃ (before dedents : List Token) (eof : Token),
        lex "if x:\n  (y)" = .ok (before ++ (dedents ++ [eof])) ∧
          lex "if x:\n  (y)\n" =
            .ok (before ++ (finalNewline "if x:\n  (y)" ::
              (dedents ++ [eof]).map (·.movedBy ⟨1, 1⟩))) := by
  have noReturn : "if x:\n  (y)".toList.getLast? ≠ some '\r' := by
    decide
  have joined : "if x:\n  (y)" ++ "\n" = "if x:\n  (y)\n" := by
    decide
  obtain ⟨sameCheck, _, sameTokens⟩ := final_lineFeed_immaterial noReturn
  rw [joined] at sameCheck sameTokens
  refine ⟨(sameCheck ⟨2, 1⟩).mp (check_eq_ok_iff.mpr (by decide +kernel)), ?_⟩
  have lexed : lex "if x:\n  (y)" = .ok (stream "if x:\n  (y)") := by
    rw [lex, (collect_eq _).2]
    decide +kernel
  have opened : endsInOpenLine "if x:\n  (y)" = true := by
    decide +kernel
  obtain ⟨before, dedents, eof, shape, _, _, longer⟩ := sameTokens _ lexed
  rw [if_pos opened] at longer
  exact ⟨before, dedents, eof, shape ▸ lexed, longer⟩

end LayoutLexer
