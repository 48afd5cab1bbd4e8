import LayoutLexer.Proofs.Displacement
import LayoutLexer.Proofs.IndentEncoding
import LayoutLexer.Proofs.WellBlocked

namespace LayoutLexer

/-!
# Sources one after the other

At a line that starts without blanks nothing of what came before is left: all
blocks are closed, and the checker is where it started. So two sources can be put
one behind the other there. The end of the first one closes its blocks with the
same tokens as the first line of the second one, which is why only the end of the
input disappears.
-/

/-- A text is empty or begins with a logical line at the top level. -/
structure StartsAtTopLevel (text : List Char) : Prop where
  noRun : ∀ c, text.head? = some c → c ≠ ' ' ∧ c ≠ '\t'
  noComment : text.head? ≠ some '#'
  noLineFeed : text.head? ≠ some '\n'
  noReturnFeed : ¬ ['\r', '\n'] <+: text

/-- Whole lines, and a text that begins at the top level. -/
structure JoinsAtTopLevel (first second : String) : Prop where
  whole : WholeLines first.toList
  starts : StartsAtTopLevel second.toList

/-! ### The first line behind -/

theorem StartsAtTopLevel.content_ne_nil
    {text content terminator more : List Char}
    (starts : StartsAtTopLevel text)
    (first : FirstLine text content terminator more) :
    content ≠ [] := by
  rintro rfl
  cases first with
  | lineFeed =>
      exact starts.noLineFeed rfl
  | returnFeed =>
      exact starts.noReturnFeed ⟨more, rfl⟩
  | unterminated _ _ present =>
      exact present rfl

/-- A text that begins at the top level begins with a logical line of width zero. -/
theorem exists_logicalLines_eq_cons
    {source : String}
    (starts : StartsAtTopLevel source.toList)
    (present : source.toList ≠ []) :
    ∃ line others,
      logicalLines source = line :: others ∧
        line.width = 0 ∧ line.number = 1 ∧ line.offset = 0 := by
  obtain ⟨content, terminator, more, first⟩ := exists_firstLine present
  obtain ⟨c, rest, isContent⟩ :=
    List.exists_cons_of_ne_nil (starts.content_ne_nil first)
  have isFirst : source.toList.head? = some c := by
    rw [first.text_eq, isContent]
    rfl
  have noBlank : isBlank c = false := by
    obtain ⟨noSpace, noTab⟩ := starts.noRun c isFirst
    simp [isBlank, noSpace, noTab]
  have noMark : c ≠ '#' := by
    rintro rfl
    exact starts.noComment isFirst
  let line : Line := ⟨1, 0, content, terminator⟩
  have width : line.width = 0 := by
    simp [line, Line.width, blankRun, isContent, noBlank]
  have logical : line.isLogical = true := by
    simp [line, Line.isLogical, isContent, noBlank, noMark]
  have lines :
      logicalLines source =
        line ::
          Session.remainingLines more (line.next more).offset
            (line.next more).line :=
    (Session.remainingLines_eq first 0 1).trans (if_pos logical)
  exact ⟨line, _, lines, width, rfl, rfl⟩

theorem logicalLines_empty : logicalLines "" = [] := by
  decide

theorem width_of_head?_logicalLines
    {source : String}
    (starts : StartsAtTopLevel source.toList) :
    ∀ line, (logicalLines source).head? = some line → line.width = 0 := by
  intro line isFirst
  by_cases isEmpty : source.toList = []
  · rw [String.toList_eq_nil_iff.mp isEmpty, logicalLines_empty] at isFirst
    cases isFirst
  · obtain ⟨head, others, lines, width, _⟩ :=
      exists_logicalLines_eq_cons starts isEmpty
    rw [lines] at isFirst
    cases isFirst
    exact width

/-- What is lexed, further on in a source. -/
def movedOutcome
    (displacement : Displacement) :
    Except SessionError (List Token) → Except SessionError (List Token)
  | .ok tokens =>
      .ok (tokens.map (·.movedBy displacement))
  | .error error =>
      .error (error.movedBy displacement)

/-- Lines are lexed in the same way with a text in front of their source. -/
theorem lexFrom_movedBy
    (first second : String)
    (lines : List Line)
    (indentation : Indentation) :
    lexFrom (first ++ second) (lines.map (·.movedBy (.behind first))) indentation =
      movedOutcome (.behind first) (lexFrom second lines indentation) := by
  induction lines generalizing indentation with
  | nil =>
      exact congrArg Except.ok (closingTokens_append first second indentation)
  | cons line others inductionHypothesis =>
      rw [List.map_cons, lexFrom, lexFrom, Line.width_movedBy, Line.lexed_movedBy]
      cases indentation.resolve line.width with
      | error mismatch =>
          exact congrArg Except.error (line.misfit_movedBy _ mismatch)
      | ok resolution =>
          obtain ⟨change, resolved⟩ := resolution
          cases read : line.lexed.error? with
          | some error =>
              simp [Lexed.movedBy, read, movedOutcome]
          | none =>
              simp only [Lexed.movedBy, read, Option.map_none,
                inductionHypothesis resolved, Line.tokens_movedBy]
              cases lexFrom second others resolved <;>
                simp [Except.map, movedOutcome]

/-- Lines that begin at the top level first close the blocks that are open. -/
theorem lexFrom_of_ordered
    {line : Line}
    {indentation : Indentation}
    (atTopLevel : line.width = 0)
    (ordered : indentation.Ordered)
    (source : String)
    (others : List Line) :
    lexFrom source (line :: others) indentation =
      (lexFrom source (line :: others) .topLevel).map
        (List.replicate indentation.depth (line.start.token .dedent 0) ++ ·) := by
  have fresh := Indentation.resolve_zero Indentation.ordered_topLevel
  rw [lexFrom, lexFrom, atTopLevel, Indentation.resolve_zero ordered, fresh]
  cases line.lexed.error? with
  | some error =>
      rfl
  | none =>
      have dedents :
          line.tokens
              (if indentation.depth = 0 then .unchanged
                else .dedent indentation.depth) =
            List.replicate indentation.depth (line.start.token .dedent 0) ++
              line.tokens .unchanged := by
        by_cases flat : indentation.depth = 0
        · simp [flat]
        · simp [flat, Line.tokens, Line.layout, atTopLevel]
      dsimp only
      rw [dedents]
      cases lexFrom source others .topLevel <;>
        simp [Except.map, Indentation.depth, Indentation.topLevel]

/-! ### Tokens -/

section

variable {first second : String}
variable {tokens : List Token}

/-- The end of the first text closes the blocks that the second finds open. -/
theorem lexFrom_of_joins
    {final : Indentation}
    (joins : JoinsAtTopLevel first second)
    (ordered : final.Ordered) :
    lexFrom (first ++ second)
        ((logicalLines second).map (·.movedBy (.behind first))) final =
      (movedOutcome (.behind first) (lex second)).map
        (List.replicate final.depth ((sourceEnd first).token .dedent 0) ++ ·) := by
  rw [lex_eq_lexFrom, ← lexFrom_movedBy]
  by_cases isEmpty : second.toList = []
  · obtain rfl : second = "" := String.toList_eq_nil_iff.mp isEmpty
    rw [logicalLines_empty, String.append_empty]
    rfl
  · obtain ⟨line, others, lines, width, number, offset⟩ :=
      exists_logicalLines_eq_cons joins.starts isEmpty
    have dedent :
        (line.movedBy (.behind first)).start.token .dedent 0 =
          (sourceEnd first).token .dedent 0 := by
      simp [Cursor.token, Cursor.spanOf, Line.movedBy, Line.start, sourceEnd,
        number, offset, Displacement.behind, utf8ByteSize_eq_byteLength]
    have movedWidth : (line.movedBy (.behind first)).width = 0 := width
    rw [lines, List.map_cons, lexFrom_of_ordered movedWidth ordered, dedent]

/-- Behind a text that can be lexed, a text is lexed as it is alone. -/
theorem lex_append
    {before : List Token}
    {eof : Token}
    (joins : JoinsAtTopLevel first second)
    (lexed : lex first = .ok (before ++ [eof])) :
    lex (first ++ second) =
      (movedOutcome (.behind first) (lex second)).map (before ++ ·) := by
  obtain ⟨changes, final, applied, noErrors, isTokens⟩ := lex_eq_ok_iff.mp lexed
  have ordered : final.Ordered :=
    Indentation.ordered_of_resolveAll applied Indentation.ordered_topLevel
  have isBefore :
      before =
        (List.zipWith Line.tokens (logicalLines first) changes).flatten ++
          List.replicate final.depth ((sourceEnd first).token .dedent 0) := by
    rw [closingTokens, ← List.append_assoc] at isTokens
    exact (List.append_inj' isTokens rfl).1
  rw [lex_eq_lexFrom (first ++ second), logicalLines_append joins.whole,
    lexFrom_append _ applied noErrors, lexFrom_of_joins joins ordered, isBefore]
  cases movedOutcome (.behind first) (lex second) <;> simp [Except.map]

/-- Two texts that can be lexed together can be lexed alone. -/
theorem exists_lex_of_append
    (joins : JoinsAtTopLevel first second)
    (lexed : lex (first ++ second) = .ok tokens) :
    (∃ firstTokens, lex first = .ok firstTokens) ∧
      ∃ secondTokens, lex second = .ok secondTokens := by
  obtain ⟨changes, final, applied, noErrors, _⟩ := lex_eq_ok_iff.mp lexed
  rw [logicalLines_append joins.whole] at applied noErrors
  rw [List.map_append] at applied
  obtain ⟨earlier, reached, appliedFirst⟩ :=
    Indentation.exists_resolveAll_of_append applied
  have lexedFirst :=
    lex_eq_ok_iff.mpr ⟨earlier, reached, appliedFirst,
      fun line member => noErrors line (List.mem_append_left _ member), rfl⟩
  refine ⟨⟨_, lexedFirst⟩, ?_⟩
  obtain ⟨before, eof, _, isTokens, _⟩ := exists_eof_of_lex lexedFirst
  rw [isTokens] at lexedFirst
  rw [lex_append joins lexedFirst] at lexed
  cases outcome : lex second with
  | error error =>
      rw [outcome] at lexed
      cases lexed
  | ok secondTokens =>
      exact ⟨secondTokens, rfl⟩

end

/-! ### Blocks -/

section

variable (displacement : Displacement)

theorem countKind_movedBy
    (kind : TokenKind)
    (tokens : List Token) :
    countKind kind (tokens.map (·.movedBy displacement)) =
      countKind kind tokens := by
  rw [countKind, List.countP_map]
  rfl

/-- Moved parentheses match as they did. -/
theorem Line.parensBalanced_movedBy
    (line : Line) :
    (line.movedBy displacement).ParensBalanced ↔ line.ParensBalanced := by
  rw [ParensBalanced, lexed_movedBy, Lexed.movedBy, ParensBalanced]
  constructor
  · rintro ⟨opened, matched⟩
    rw [countKind_movedBy, countKind_movedBy] at matched
    refine ⟨?_, matched⟩
    intro earlier early
    have bound := opened _ (early.map (·.movedBy displacement))
    rwa [countKind_movedBy, countKind_movedBy] at bound
  · rintro ⟨opened, matched⟩
    refine ⟨?_, ?_⟩
    · intro earlier early
      obtain ⟨original, originalEarly, rfl⟩ := List.prefix_map_iff.mp early
      rw [countKind_movedBy, countKind_movedBy]
      exact opened original originalEarly
    · rw [countKind_movedBy, countKind_movedBy]
      exact matched

theorem Line.endsInColon_movedBy
    (line : Line) :
    (line.movedBy displacement).endsInColon = line.endsInColon := by
  rw [endsInColon, lexed_movedBy, Lexed.movedBy, List.getLast?_map,
    Option.any_map]
  rfl

/-- Moved lines form the same blocks. -/
theorem wellBlockedFrom_movedBy
    (width : Nat)
    (announced : Bool)
    (lines : List Line) :
    WellBlockedFrom width announced (lines.map (·.movedBy displacement)) ↔
      WellBlockedFrom width announced lines := by
  induction lines generalizing width announced with
  | nil =>
      rfl
  | cons line others inductionHypothesis =>
      rw [List.map_cons, WellBlockedFrom, WellBlockedFrom, Line.width_movedBy,
        Line.parensBalanced_movedBy, Line.endsInColon_movedBy,
        inductionHypothesis]

theorem nestings_movedBy
    (tokens : List Token) :
    nestings (tokens.map (·.movedBy displacement)) = nestings tokens := by
  ext depth
  constructor
  · rintro ⟨earlier, early, isDepth⟩
    obtain ⟨original, originalEarly, rfl⟩ := List.prefix_map_iff.mp early
    rw [countKind_movedBy, countKind_movedBy] at isDepth
    exact ⟨original, originalEarly, isDepth⟩
  · rintro ⟨earlier, early, isDepth⟩
    refine ⟨_, early.map (·.movedBy displacement), ?_⟩
    rw [countKind_movedBy, countKind_movedBy]
    exact isDepth

end

/-- Lines that begin at the top level form blocks of their own. -/
theorem wellBlockedFrom_append
    {second : List Line}
    (atTopLevel : ∀ line, second.head? = some line → line.width = 0)
    (width : Nat)
    (announced : Bool)
    (first : List Line) :
    WellBlockedFrom width announced (first ++ second) ↔
      WellBlockedFrom width announced first ∧ WellBlockedFrom 0 false second := by
  induction first generalizing width announced with
  | nil =>
      cases second with
      | nil =>
          simp [WellBlockedFrom]
      | cons line others =>
          simp [WellBlockedFrom, atTopLevel line rfl]
  | cons line others inductionHypothesis =>
      rw [List.cons_append, WellBlockedFrom, WellBlockedFrom,
        inductionHypothesis, and_assoc, and_assoc]

theorem wellBlocked_append
    {first second : String}
    (joins : JoinsAtTopLevel first second) :
    WellBlocked (logicalLines (first ++ second)) ↔
      WellBlocked (logicalLines first) ∧ WellBlocked (logicalLines second) := by
  have atTopLevel :
      ∀ line,
        ((logicalLines second).map (·.movedBy (.behind first))).head? = some line →
          line.width = 0 := by
    intro line isFirst
    rw [List.head?_map] at isFirst
    obtain ⟨original, isOriginal, rfl⟩ := Option.map_eq_some_iff.mp isFirst
    exact width_of_head?_logicalLines joins.starts original isOriginal
  rw [wellBlocked_iff_wellBlockedFrom, wellBlocked_iff_wellBlockedFrom,
    wellBlocked_iff_wellBlockedFrom, logicalLines_append joins.whole,
    wellBlockedFrom_append atTopLevel, wellBlockedFrom_movedBy]

/-! ### Nesting -/

/-- Behind tokens that leave no block open, nesting starts anew. -/
theorem nestings_append
    {first : List Token}
    (closed : countKind .indent first = countKind .dedent first)
    (second : List Token) :
    nestings (first ++ second) = nestings first ∪ nestings second := by
  have anew :
      ∀ later : List Token,
        (countKind .indent (first ++ later) : ℤ) -
            countKind .dedent (first ++ later) =
          countKind .indent later - countKind .dedent later := by
    intro later
    rw [countKind_append, countKind_append, closed]
    omega
  ext depth
  constructor
  · rintro ⟨earlier, early, isDepth⟩
    rcases List.prefix_or_prefix_of_prefix early (List.prefix_append first second) with
      inFirst | ⟨later, isEarlier⟩
    · exact .inl ⟨earlier, inFirst, isDepth⟩
    · rw [← isEarlier, List.prefix_append_right_inj] at early
      rw [← isEarlier, anew] at isDepth
      exact .inr ⟨later, early, isDepth⟩
  · rintro (⟨earlier, early, isDepth⟩ | ⟨later, early, isDepth⟩)
    · exact ⟨earlier, early.trans (List.prefix_append first second), isDepth⟩
    · rw [← anew] at isDepth
      exact ⟨first ++ later, (List.prefix_append_right_inj first).mpr early, isDepth⟩

section

variable {before : List Token}
variable {eof : Token}

theorem countKind_eof
    {kind : TokenKind}
    (last : eof.kind = .eof)
    (different : kind ≠ .eof) :
    countKind kind [eof] = 0 := by
  simp [countKind, last, different.symm]

/-- The tokens of a source close all their blocks before the end of the input. -/
theorem closed_of_lex
    {source : String}
    (lexed : lex source = .ok (before ++ [eof]))
    (last : eof.kind = .eof) :
    countKind .indent before = countKind .dedent before := by
  obtain ⟨_, _, whole, _⟩ := exists_eof_of_lex lexed
  have fit : FitFrom source [0] (before ++ [eof]) :=
    whole ▸ fitFrom_stream source
  have matched := (fit.balanced last).matched
  rw [countKind_append, countKind_append,
    countKind_eof last TokenKind.noConfusion,
    countKind_eof last TokenKind.noConfusion] at matched
  exact matched

/-- The end of the input is not nested. -/
theorem nestings_concat_eof
    (closed : countKind .indent before = countKind .dedent before)
    (last : eof.kind = .eof) :
    nestings (before ++ [eof]) = nestings before := by
  rw [nestings_append closed]
  apply Set.union_eq_left.mpr
  rintro depth ⟨earlier, early, isDepth⟩
  refine ⟨[], List.nil_prefix, ?_⟩
  rcases List.prefix_cons_iff.mp early with isEmpty | ⟨others, isEarlier, rest⟩
  · rw [isDepth, isEmpty]
  · rw [isDepth, isEarlier, List.prefix_nil.mp rest,
      countKind_eof last TokenKind.noConfusion,
      countKind_eof last TokenKind.noConfusion]
    rfl

end

/-! ### Checking -/

open Blocks

section

variable {first second : String}

theorem exists_check_iff_of_lex
    {source : String}
    {tokens : List Token}
    {statements : Nat}
    (lexed : lex source = .ok tokens) :
    (∃ maxDepth, check source = .ok ⟨statements, maxDepth⟩) ↔
      WellBlocked (logicalLines source) ∧
        statements = (logicalLines source).length :=
  exists_check_iff ((exists_lex_iff_completes source).mp ⟨tokens, lexed⟩)

/-- Two sources that are accepted are accepted one after the other. -/
theorem check_append
    {firstSummary secondSummary : Summary}
    (joins : JoinsAtTopLevel first second)
    (checkedFirst : check first = .ok firstSummary)
    (checkedSecond : check second = .ok secondSummary) :
    check (first ++ second) =
      .ok {
        statements := firstSummary.statements + secondSummary.statements
        maxDepth := max firstSummary.maxDepth secondSummary.maxDepth
      } := by
  obtain ⟨firstTokens, lexedFirst⟩ := exists_lex_of_check checkedFirst
  obtain ⟨secondTokens, lexedSecond⟩ := exists_lex_of_check checkedSecond
  obtain ⟨before, eof, _, rfl, last, _⟩ := exists_eof_of_lex lexedFirst
  have lexed :
      lex (first ++ second) =
        .ok (before ++ secondTokens.map (·.movedBy (.behind first))) := by
    rw [lex_append joins lexedFirst, lexedSecond]
    rfl
  obtain ⟨blocksFirst, countFirst⟩ :=
    (exists_check_iff_of_lex lexedFirst).mp ⟨_, checkedFirst⟩
  obtain ⟨blocksSecond, countSecond⟩ :=
    (exists_check_iff_of_lex lexedSecond).mp ⟨_, checkedSecond⟩
  have statements :
      firstSummary.statements + secondSummary.statements =
        (logicalLines (first ++ second)).length := by
    rw [countFirst, countSecond, logicalLines_append joins.whole,
      List.length_append, List.length_map]
  have blocks := (wellBlocked_append joins).mpr ⟨blocksFirst, blocksSecond⟩
  obtain ⟨maxDepth, checked⟩ :=
    (exists_check_iff_of_lex lexed).mpr ⟨blocks, statements⟩
  -- Behind the first source no block is open, so each of the two reaches its own
  -- depths again.
  have closed := closed_of_lex lexedFirst last
  have deepestFirst := isGreatest_maxDepth lexedFirst checkedFirst
  have deepestSecond := isGreatest_maxDepth lexedSecond checkedSecond
  have deepest := isGreatest_maxDepth lexed checked
  rw [nestings_concat_eof closed last] at deepestFirst
  rw [nestings_append closed, nestings_movedBy] at deepest
  have isMax := deepest.unique (deepestFirst.union deepestSecond)
  have sameDepth :
      maxDepth = max firstSummary.maxDepth secondSummary.maxDepth := by
    simp only at isMax
    omega
  rw [checked, sameDepth]

/-- Two sources that are accepted one after the other are accepted alone. -/
theorem exists_check_of_append
    {summary : Summary}
    (joins : JoinsAtTopLevel first second)
    (checked : check (first ++ second) = .ok summary) :
    (∃ firstSummary, check first = .ok firstSummary) ∧
      ∃ secondSummary, check second = .ok secondSummary := by
  obtain ⟨tokens, lexed⟩ := exists_lex_of_check checked
  obtain ⟨⟨firstTokens, lexedFirst⟩, secondTokens, lexedSecond⟩ :=
    exists_lex_of_append joins lexed
  obtain ⟨blocks, _⟩ := (exists_check_iff_of_lex lexed).mp ⟨_, checked⟩
  obtain ⟨blocksFirst, blocksSecond⟩ := (wellBlocked_append joins).mp blocks
  obtain ⟨firstDepth, checkedFirst⟩ :=
    (exists_check_iff_of_lex lexedFirst).mpr ⟨blocksFirst, rfl⟩
  obtain ⟨secondDepth, checkedSecond⟩ :=
    (exists_check_iff_of_lex lexedSecond).mpr ⟨blocksSecond, rfl⟩
  exact ⟨⟨_, checkedFirst⟩, ⟨_, checkedSecond⟩⟩

/--
Sources can be put one after the other at the top level. If the first can be
lexed, the second is lexed as it is alone, moved behind the first; the tokens of
the first stay as they are, up to the end of the input, and so do the dedents
that closed its blocks. Both are accepted together exactly when each is accepted,
and then their lines add up and the deeper nesting counts.
-/
theorem append_at_top_level
    (joins : JoinsAtTopLevel first second) :
    (∀ tokens, lex first = .ok tokens →
      ∃ before eof,
        tokens = before ++ [eof] ∧
          eof.kind = .eof ∧
          (∀ others, lex second = .ok others →
            lex (first ++ second) =
              .ok (before ++ others.map (·.movedBy (.behind first)))) ∧
          (∀ error, lex second = .error error →
            lex (first ++ second) = .error (error.movedBy (.behind first)))) ∧
    ∀ summary,
      check (first ++ second) = .ok summary ↔
        ∃ firstSummary secondSummary,
          check first = .ok firstSummary ∧
            check second = .ok secondSummary ∧
            summary.statements =
              firstSummary.statements + secondSummary.statements ∧
            summary.maxDepth =
              max firstSummary.maxDepth secondSummary.maxDepth := by
  refine ⟨?_, ?_⟩
  · intro tokens lexed
    obtain ⟨before, eof, _, rfl, last, _⟩ := exists_eof_of_lex lexed
    have together := lex_append joins lexed
    refine ⟨before, eof, rfl, last, ?_, ?_⟩
    · intro others lexedSecond
      rw [together, lexedSecond]
      rfl
    · intro error failed
      rw [together, failed]
      rfl
  · intro summary
    constructor
    · intro checked
      obtain ⟨⟨firstSummary, checkedFirst⟩, secondSummary, checkedSecond⟩ :=
        exists_check_of_append joins checked
      refine ⟨firstSummary, secondSummary, checkedFirst, checkedSecond, ?_⟩
      rw [check_append joins checkedFirst checkedSecond] at checked
      cases checked
      exact ⟨rfl, rfl⟩
    · rintro ⟨firstSummary, secondSummary, checkedFirst, checkedSecond,
        statements, maxDepth⟩
      rw [check_append joins checkedFirst checkedSecond, ← statements, ← maxDepth]

end

/-- A line behind an open block: its dedent closes the block, as the end did. -/
theorem append_at_top_level_block :
    JoinsAtTopLevel "if x:\n\ty # é\n" "z" ∧
      (∃ tokens,
        lex ("if x:\n\ty # é\n" ++ "z") = .ok tokens ∧
          tokens.map (fun token => (token.text, token.line, token.span.start)) =
            [("if", 1, 0), ("x", 1, 3), (":", 1, 4), ("\n", 1, 5), ("\t", 2, 6),
              ("y", 2, 7), ("\n", 2, 13), ("", 3, 14), ("z", 3, 14),
              ("", 3, 15)]) ∧
      check ("if x:\n\ty # é\n" ++ "z") = .ok ⟨3, 1⟩ := by
  have noRun : ∀ c, "z".toList.head? = some c → c ≠ ' ' ∧ c ≠ '\t' := by
    intro c isFirst
    cases isFirst
    decide
  have joins : JoinsAtTopLevel "if x:\n\ty # é\n" "z" :=
    ⟨.inr (by decide), noRun, by decide, by decide, by decide⟩
  have lexedFirst :
      lex "if x:\n\ty # é\n" = .ok (stream "if x:\n\ty # é\n") := by
    rw [lex, (collect_eq _).2]
    decide +kernel
  have lexedSecond : lex "z" = .ok (stream "z") := by
    rw [lex, (collect_eq _).2]
    decide +kernel
  obtain ⟨lexing, checking⟩ := append_at_top_level joins
  obtain ⟨before, eof, shape, _, together, _⟩ := lexing _ lexedFirst
  have isBefore : before = (stream "if x:\n\ty # é\n").dropLast := by
    rw [shape, List.dropLast_concat]
  refine ⟨joins, ⟨_, together _ lexedSecond, ?_⟩, (checking _).mpr ?_⟩
  · rw [isBefore]
    decide +kernel
  · refine ⟨⟨2, 1⟩, ⟨1, 0⟩, ?_, ?_, rfl, rfl⟩
    · exact check_eq_ok_iff.mpr (by decide +kernel)
    · exact check_eq_ok_iff.mpr (by decide +kernel)

end LayoutLexer
