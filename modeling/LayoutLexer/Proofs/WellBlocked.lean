import LayoutLexer.Proofs.CheckerRuns
import LayoutLexer.Proofs.OpenLevels
import Mathlib.Order.Bounds.Basic

namespace LayoutLexer

/-!
# Well-blocked programs

A program is well blocked when exactly the lines that end in a colon are
followed by a wider one, and parentheses match within each line. This speaks of
the logical lines only, not of open blocks or tokens of layout. The checker
accepts a source that can be lexed exactly when its lines are well blocked.
-/

/-- The parentheses of a line match. -/
def Line.ParensBalanced (line : Line) : Prop :=
  Balanced (.punctuation .openParen) (.punctuation .closeParen)
    line.lexed.tokens

/-- Whether the last token of a line is a colon. -/
def Line.endsInColon (line : Line) : Bool :=
  line.lexed.tokens.getLast?.any (·.kind = .punctuation .colon)

/-- The logical lines of a program form blocks. -/
structure WellBlocked (lines : List Line) : Prop where
  first : ∀ line, lines.head? = some line → line.width = 0
  announced :
    lines.IsChain fun line next =>
      line.endsInColon = true ↔ line.width < next.width
  last : ∀ line, lines.getLast? = some line → line.endsInColon = false
  parens : ∀ line ∈ lines, line.ParensBalanced

/-! ### One line after the other -/

/-- Lines form blocks behind a line of some width, which may end in a colon. -/
def WellBlockedFrom : Nat → Bool → List Line → Prop
  | _, announced, [] =>
      announced = false
  | width, announced, line :: others =>
      (announced = true ↔ width < line.width) ∧
        line.ParensBalanced ∧
        WellBlockedFrom line.width line.endsInColon others

theorem wellBlockedFrom_cons_iff
    (width : Nat)
    (announced : Bool)
    (line : Line)
    (others : List Line) :
    WellBlockedFrom width announced (line :: others) ↔
      (announced = true ↔ width < line.width) ∧
        ((line :: others).IsChain fun line next =>
          line.endsInColon = true ↔ line.width < next.width) ∧
        (∀ last, (line :: others).getLast? = some last →
          last.endsInColon = false) ∧
        ∀ member ∈ line :: others, member.ParensBalanced := by
  induction others generalizing width announced line with
  | nil =>
      simp [WellBlockedFrom, and_comm]
  | cons next others inductionHypothesis =>
      rw [WellBlockedFrom, inductionHypothesis, List.isChain_cons_cons,
        List.getLast?_cons_cons, List.forall_mem_cons (a := line)]
      constructor
      · rintro ⟨begins, parens, follows, chain, last, otherParens⟩
        exact ⟨begins, ⟨follows, chain⟩, last, parens, otherParens⟩
      · rintro ⟨begins, ⟨follows, chain⟩, last, parens, otherParens⟩
        exact ⟨begins, parens, follows, chain, last, otherParens⟩

theorem wellBlocked_iff_wellBlockedFrom
    (lines : List Line) :
    WellBlocked lines ↔ WellBlockedFrom 0 false lines := by
  cases lines with
  | nil =>
      constructor
      · intro _
        rfl
      · intro _
        exact ⟨nofun, .nil, nofun, nofun⟩
  | cons line others =>
      rw [wellBlockedFrom_cons_iff]
      constructor
      · rintro ⟨first, announced, last, parens⟩
        exact ⟨by simp [first line rfl], announced, last, parens⟩
      · rintro ⟨first, announced, last, parens⟩
        refine ⟨?_, announced, last, parens⟩
        intro head isFirst
        cases isFirst
        simpa using first

/-! ### The checker on a line -/

/-- The colon is the only kind that announces a block. -/
theorem TokenKind.opensBlock_eq
    (kind : TokenKind) :
    kind.opensBlock = decide (kind = .punctuation .colon) := by
  cases kind with
  | punctuation mark =>
      cases mark <;> rfl
  | _ =>
      rfl

namespace Blocks

theorem announcesBlock_behind
    {line : Line}
    {depth : Nat}
    {counted : Summary} :
    (Checker.behind (.atLine depth false counted)
        line.lexed.tokens).announcesBlock = line.endsInColon := by
  rw [Line.endsInColon]
  cases last : line.lexed.tokens.getLast? with
  | none =>
      simp [Checker.announcesBlock, Checker.behind, Checker.atLine, last]
  | some token =>
      simp [Checker.announcesBlock, Checker.behind, last,
        TokenKind.opensBlock_eq]

section

variable {source : String}
variable {line : Line}
variable {indentation resolved : Indentation}
variable {rest : List Token}
variable {summary : Summary}

/-- Between lines, lexical tokens only have to match their parentheses. -/
theorem output?_atLine_append
    {tokens : List Token}
    {depth : Nat}
    {counted : Summary}
    (lexical : ∀ token ∈ tokens, token.kind.isLayout = false) :
    parser.output? (.atLine depth false counted) (tokens ++ rest) =
        some summary ↔
      (∀ earlier, earlier <+: tokens →
        closeParens earlier ≤ openParens earlier) ∧
      parser.output? (Checker.behind (.atLine depth false counted) tokens)
        rest = some summary := by
  rw [output?_lexical_append lexical]
  simp [Checker.atLine]

/-- A line starts well when it is wider exactly if that was announced. -/
theorem exists_output?_lineStart
    {change : IndentChange}
    {tokens : List Token}
    (announced : Bool)
    (counted : Summary)
    (resolves : indentation.Resolves line.width change resolved)
    (lexical : ∀ token ∈ tokens, token.kind.isLayout = false)
    (present : tokens ≠ []) :
    ∃ deepest, ∀ rest summary,
      parser.output? (.atLine indentation.depth announced counted)
          (pushedBy (line.layout change) ++ (tokens ++ rest)) = some summary ↔
        (announced = true ↔ indentation.top < line.width) ∧
          (∀ earlier, earlier <+: tokens →
            closeParens earlier ≤ openParens earlier) ∧
          parser.output?
            (Checker.behind
              (.atLine resolved.depth false ⟨counted.statements, deepest⟩)
              tokens)
            rest = some summary := by
  cases resolves with
  | unchanged same =>
      refine ⟨counted.maxDepth, ?_⟩
      intro rest summary
      cases announced with
      | true =>
          simp [Line.layout, output?_lexical_append lexical, present,
            Checker.atLine, same]
      | false =>
          simp only [Line.layout, pushedBy_nil, List.nil_append,
            output?_atLine_append lexical]
          simp [same]
  | indent wider levels =>
      have entered :
          Checker.enter (.atLine indentation.depth announced counted) =
            .atLine resolved.depth false
              ⟨counted.statements, max counted.maxDepth resolved.depth⟩ := by
        rw [Indentation.depth_of_opened levels]
        rfl
      refine ⟨max counted.maxDepth resolved.depth, ?_⟩
      intro rest summary
      simp only [Line.layout, pushedBy_note, pushedBy_push, pushedBy_nil,
        List.cons_append, List.nil_append]
      rw [output?_indent rfl, entered, output?_atLine_append lexical]
      simp [Checker.atLine, wider]
  | @dedent closed _ narrower positive within levels top =>
      have left :
          Checker.leave (.atLine indentation.depth announced counted) closed =
            .atLine resolved.depth announced counted := by
        rw [Indentation.depth_of_closed within levels]
        rfl
      refine ⟨counted.maxDepth, ?_⟩
      intro rest summary
      simp only [Line.layout, pushedBy_note, pushedBy_replicate_push]
      rw [output?_dedents rfl within, left]
      cases announced with
      | true =>
          simp [Checker.atLine, positive, Nat.le_of_lt narrower]
      | false =>
          rw [output?_atLine_append lexical]
          simp [Checker.atLine, Nat.le_of_lt narrower]

/-- A line ends well when no parenthesis is left open. -/
theorem output?_lineEnd
    {counted : Summary}
    (present : line.lexed.tokens ≠ [])
    (ends : line.terminator = [] → rest = closingTokens source resolved) :
    parser.output?
        (Checker.behind (.atLine resolved.depth false counted)
          line.lexed.tokens)
        (pushedBy line.newline ++ rest) = some summary ↔
      openParens line.lexed.tokens ≤ closeParens line.lexed.tokens ∧
        parser.output?
          (.atLine resolved.depth line.endsInColon
            ⟨counted.statements + 1, counted.maxDepth⟩)
          rest = some summary := by
  obtain ⟨checker, shape⟩ :
      ∃ checker,
        checker =
          Checker.behind (.atLine resolved.depth false counted)
            line.lexed.tokens :=
    ⟨_, rfl⟩
  have hasTokens : 0 < checker.lineTokens := by
    simp [shape, Checker.behind, Checker.atLine, List.length_pos_iff, present]
  have closed :
      checker.parenDepth = 0 ↔
        openParens line.lexed.tokens ≤ closeParens line.lexed.tokens := by
    simp [shape, Checker.behind, Checker.atLine, Nat.sub_eq_zero_iff_le]
  have next :
      checker.nextLine =
        .atLine resolved.depth line.endsInColon
          ⟨counted.statements + 1, counted.maxDepth⟩ := by
    rw [Checker.nextLine, shape, announcesBlock_behind]
    rfl
  rw [← shape, ← closed, ← next, Line.newline]
  split
  · rename_i unterminated
    rw [ends unterminated]
    exact output?_closingTokens_of_present (by rw [shape]; rfl)
      (by rw [shape]; rfl) hasTokens
  · exact output?_newline rfl hasTokens

/-- A line is taken when it is wider as announced and its parentheses match. -/
theorem exists_output?_line
    {change : IndentChange}
    (announced : Bool)
    (counted : Summary)
    (resolves : indentation.Resolves line.width change resolved)
    (present : line.lexed.tokens ≠ [])
    (ends : line.terminator = [] → rest = closingTokens source resolved) :
    ∃ deepest, ∀ summary,
      parser.output? (.atLine indentation.depth announced counted)
          (pushedBy (line.layout change) ++
            (line.lexed.tokens ++ (pushedBy line.newline ++ rest))) =
          some summary ↔
        (announced = true ↔ indentation.top < line.width) ∧
          line.ParensBalanced ∧
          parser.output?
            (.atLine resolved.depth line.endsInColon
              ⟨counted.statements + 1, deepest⟩)
            rest = some summary := by
  have lexical : ∀ token ∈ line.lexed.tokens, token.kind.isLayout = false :=
    fun _ member => isLayout_of_mem_lexemes member
  obtain ⟨deepest, starts⟩ :=
    exists_output?_lineStart announced counted resolves lexical present
  refine ⟨deepest, ?_⟩
  intro summary
  rw [starts, output?_lineEnd present ends]
  constructor
  · rintro ⟨wide, opened, closed, remaining⟩
    have whole := opened line.lexed.tokens (List.prefix_refl _)
    exact ⟨wide, ⟨opened, Nat.le_antisymm closed whole⟩, remaining⟩
  · rintro ⟨wide, ⟨opened, matched⟩, remaining⟩
    exact ⟨wide, opened, Nat.le_of_eq matched, remaining⟩

/-! ### The checker on a source -/

/-- The checker counts complete lines, and takes those that form blocks. -/
theorem exists_output?_streamFrom
    {lines : List Line}
    {announced : Bool}
    {counted : Summary}
    {statements : Nat}
    (logical : ∀ line ∈ lines, line.isLogical = true)
    (terminated : lines.Pairwise fun line _ => line.terminator ≠ [])
    (complete : Completes lines indentation) :
    (∃ maxDepth,
      parser.output? (.atLine indentation.depth announced counted)
        (streamFrom source lines indentation) = some ⟨statements, maxDepth⟩) ↔
      WellBlockedFrom indentation.top announced lines ∧
        statements = counted.statements + lines.length := by
  induction lines generalizing indentation announced counted with
  | nil =>
      obtain ⟨counted, deepest⟩ := counted
      simp only [streamFrom, output?_closingTokens, WellBlockedFrom,
        Summary.mk.injEq, List.length_nil, Nat.add_zero]
      constructor
      · rintro ⟨maxDepth, noBlock, same, _⟩
        exact ⟨noBlock, same.symm⟩
      · rintro ⟨noBlock, same⟩
        exact ⟨deepest, noBlock, same.symm, rfl⟩
  | cons line others inductionHypothesis =>
      obtain ⟨isLogical, logicalOthers⟩ := List.forall_mem_cons.mp logical
      obtain ⟨endsBefore, terminatedOthers⟩ := List.pairwise_cons.mp terminated
      obtain ⟨change, resolved, found, noError, completeOthers⟩ :=
        (completes_cons line others indentation).mp complete
      have resolves := Indentation.resolves_of_resolve found
      obtain ⟨deepest, taken⟩ :=
        exists_output?_line announced counted resolves
          (Line.lexed_tokens_ne_nil isLogical noError)
          (streamFrom_of_unterminated source resolved endsBefore)
      simp only [streamFrom, found, noError, taken, exists_and_left]
      rw [inductionHypothesis logicalOthers terminatedOthers completeOthers,
        WellBlockedFrom, resolves.top_eq, List.length_cons,
        Nat.add_right_comm, ← Nat.add_assoc]
      simp only [and_assoc]

end

end Blocks

open Blocks

/-- The numbers of open blocks behind the prefixes of some tokens. -/
def nestings (tokens : List Token) : Set ℤ :=
  {depth | ∃ earlier, earlier <+: tokens ∧
    depth = countKind .indent earlier - countKind .dedent earlier}

theorem check_eq_ok_iff
    {source : String}
    {summary : Summary} :
    check source = .ok summary ↔
      parser.output? .start (stream source) = some summary :=
  Session.run_eq_ok_iff parser source summary

/-- A source that is accepted can be lexed. -/
theorem exists_lex_of_check
    {source : String}
    {summary : Summary}
    (accepted : check source = .ok summary) :
    ∃ tokens, lex source = .ok tokens := by
  obtain ⟨eof, member, last⟩ :=
    Parser.eof_mem_of_output? (check_eq_ok_iff.mp accepted)
  exact exists_lex_of_eof_mem member last

/-- A source that can be lexed is accepted when its lines form blocks. -/
theorem exists_check_iff
    {source : String}
    {statements : Nat}
    (complete : Completes (logicalLines source) .topLevel) :
    (∃ maxDepth, check source = .ok ⟨statements, maxDepth⟩) ↔
      WellBlocked (logicalLines source) ∧
        statements = (logicalLines source).length := by
  have logical : ∀ line ∈ logicalLines source, line.isLogical = true :=
    fun _ member => (isLogical_of_mem_logicalLines member).2
  have taken :
      (∃ maxDepth,
        parser.output? (.atLine 0 false ⟨0, 0⟩)
          (streamFrom source (logicalLines source) .topLevel) =
            some ⟨statements, maxDepth⟩) ↔
        WellBlockedFrom 0 false (logicalLines source) ∧
          statements = 0 + (logicalLines source).length :=
    exists_output?_streamFrom logical (logicalLines_terminated source) complete
  simp only [check_eq_ok_iff, stream_eq_streamFrom]
  rw [wellBlocked_iff_wellBlockedFrom, ← Nat.zero_add (logicalLines source).length]
  exact taken

/-- The deepest nesting is the greatest that the tokens come to. -/
theorem isGreatest_maxDepth
    {source : String}
    {tokens : List Token}
    {summary : Summary}
    (lexed : lex source = .ok tokens)
    (accepted : check source = .ok summary) :
    IsGreatest (nestings tokens) summary.maxDepth := by
  obtain ⟨before, eof, whole, shape, last, notLast⟩ := exists_eof_of_lex lexed
  have found := check_eq_ok_iff.mp accepted
  rw [whole, shape] at found
  obtain ⟨_, bounds, reached⟩ :=
    maxDepth_of_output? last notLast (Nat.le_refl 0) found
  rw [shape]
  constructor
  · rcases reached with neverNested | ⟨earlier, early, exactly⟩
    · refine ⟨[], List.nil_prefix, ?_⟩
      rw [neverNested]
      rfl
    · refine ⟨earlier, early, ?_⟩
      simp only [Checker.start] at exactly
      omega
  · rintro depth ⟨earlier, early, isDepth⟩
    have bound := bounds earlier early
    simp only [Checker.start] at bound
    omega

/--
The checker accepts exactly the sources that can be lexed and whose logical
lines are well blocked. It counts these lines, and finds the deepest nesting
that the tokens come to.
-/
theorem check_accepts_iff_wellBlocked
    (source : String) :
    ((∃ summary, check source = .ok summary) ↔
      (∃ tokens, lex source = .ok tokens) ∧
        WellBlocked (logicalLines source)) ∧
    ∀ summary, check source = .ok summary →
      summary.statements = (logicalLines source).length ∧
        ∃ tokens, lex source = .ok tokens ∧
          IsGreatest (nestings tokens) summary.maxDepth := by
  have accepted :
      ∀ summary, check source = .ok summary →
        WellBlocked (logicalLines source) ∧
          summary.statements = (logicalLines source).length := by
    intro summary checked
    have complete :=
      (exists_lex_iff_completes source).mp (exists_lex_of_check checked)
    exact (exists_check_iff complete).mp ⟨summary.maxDepth, checked⟩
  refine ⟨⟨?_, ?_⟩, ?_⟩
  · rintro ⟨summary, checked⟩
    exact ⟨exists_lex_of_check checked, (accepted summary checked).1⟩
  · rintro ⟨lexed, wellBlocked⟩
    have complete := (exists_lex_iff_completes source).mp lexed
    obtain ⟨maxDepth, checked⟩ :=
      (exists_check_iff complete).mpr ⟨wellBlocked, rfl⟩
    exact ⟨_, checked⟩
  · intro summary checked
    obtain ⟨tokens, lexed⟩ := exists_lex_of_check checked
    exact ⟨(accepted summary checked).2, tokens, lexed,
      isGreatest_maxDepth lexed checked⟩

end LayoutLexer
