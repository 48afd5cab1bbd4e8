import LayoutLexer.Proofs.LineTokens
import LayoutLexer.Proofs.Popping
import Mathlib.Data.List.Induction

namespace LayoutLexer

/-!
# The offside rule without a stack

Which blocks are open behind some lines can be read off the widths of the lines.
The top level always is. A line's own width is open as long as no narrower line
has followed (`Indentation.mem_levels_iff_staysOpen`). A line that is narrower
than the one before it therefore has to come back to such a width, and a source
whose lines all consist of tokens has no other fault
(`exists_lex_iff_linesReturn`).
-/

namespace Indentation

/--
A width is open behind lines of some widths: that of the top level always is, any
other if a line has it and no later line is narrower.
-/
def StaysOpen (widths : List Nat) (level : Nat) : Prop :=
  level = 0 ∨
    ∃ before after,
      widths = before ++ level :: after ∧ ∀ later ∈ after, level ≤ later

theorem staysOpen_nil
    {level : Nat} :
    StaysOpen [] level ↔ level = 0 := by
  simp [StaysOpen]

/-- One more line opens its own width and closes all that are wider. -/
theorem staysOpen_concat
    {widths : List Nat}
    {width level : Nat} :
    StaysOpen (widths ++ [width]) level ↔
      level = width ∨ StaysOpen widths level ∧ level ≤ width := by
  constructor
  · rintro (isZero | ⟨before, after, shape, notNarrower⟩)
    · exact .inr ⟨.inl isZero, isZero ▸ Nat.zero_le width⟩
    · rcases List.eq_nil_or_concat' after with rfl | ⟨between, last, rfl⟩
      · exact .inl (List.cons.inj (List.append_inj_right' shape rfl)).1.symm
      · rw [← List.cons_append, ← List.append_assoc] at shape
        obtain ⟨isBefore, isLast⟩ := List.append_inj' shape rfl
        obtain ⟨notNarrowerBetween, notNarrowerLast⟩ :=
          List.forall_mem_append.mp notNarrower
        rw [(List.cons.inj isLast).1]
        exact .inr ⟨.inr ⟨before, between, isBefore, notNarrowerBetween⟩,
          notNarrowerLast last List.mem_cons_self⟩
  · rintro (isLast | ⟨isZero | ⟨before, after, rfl, notNarrower⟩, within⟩)
    · exact .inr ⟨widths, [], by rw [isLast], List.forall_mem_nil _⟩
    · exact .inl isZero
    · refine .inr ⟨before, after ++ [width], by simp, ?_⟩
      exact List.forall_mem_append.mpr
        ⟨notNarrower, List.forall_mem_singleton.mpr within⟩

/-! ### Open widths -/

/-- So it is with the open blocks. -/
theorem Resolves.mem_levels_iff
    {indentation resolved : Indentation}
    {width : Nat}
    {change : IndentChange}
    (resolves : indentation.Resolves width change resolved)
    (ordered : indentation.Ordered)
    (level : Nat) :
    level ∈ resolved.levels ↔
      level = width ∨ level ∈ indentation.levels ∧ level ≤ width := by
  have topMember : resolved.top ∈ resolved.levels :=
    List.mem_of_getLast? resolved.getLast?_levels
  rw [resolves.top_eq] at topMember
  have bounded : ∀ level ∈ resolved.levels, level ≤ width := by
    rw [← resolves.top_eq]
    exact le_top (resolves.ordered ordered)
  constructor
  · intro member
    by_cases isWidth : level = width
    · exact .inl isWidth
    · refine .inr ⟨?_, bounded level member⟩
      cases resolves with
      | unchanged _ =>
          exact member
      | indent _ opened =>
          rw [opened, List.mem_append, List.mem_singleton] at member
          exact member.resolve_right isWidth
      | dedent _ _ _ closed _ =>
          rw [closed] at member
          exact List.mem_of_mem_take member
  · rintro (rfl | ⟨member, within⟩)
    · exact topMember
    · cases resolves with
      | unchanged _ =>
          exact member
      | indent _ opened =>
          rw [opened]
          exact List.mem_append_left _ member
      | dedent _ _ _ closed _ =>
          -- The blocks that were closed are all wider than the line.
          rw [Ordered, ← List.take_append_drop
            (indentation.levels.length - _) indentation.levels,
            List.pairwise_append, ← closed] at ordered
          rw [← List.take_append_drop
            (indentation.levels.length - _) indentation.levels, ← closed,
            List.mem_append] at member
          rcases member with kept | closedBlock
          · exact kept
          · exact absurd (ordered.2.2 width topMember level closedBlock)
              (Nat.not_lt.mpr within)

/-- The innermost width behind some lines is that of the last one. -/
theorem top_of_resolveAll
    {final : Indentation}
    {widths : List Nat}
    {changes : List IndentChange}
    (applied : topLevel.resolveAll widths = .ok (changes, final)) :
    final.top = widths.getLastD 0 := by
  rcases List.eq_nil_or_concat' widths with rfl | ⟨earlier, last, rfl⟩
  · cases applied
    rfl
  · obtain ⟨_, _, _, _, found, _⟩ := resolveAll_concat_eq_ok_iff.mp applied
    rw [(resolves_of_resolve found).top_eq, List.getLastD_concat]

/-- The widths that are open behind some lines are those that stay open. -/
theorem mem_levels_iff_staysOpen
    {final : Indentation}
    {widths : List Nat}
    {changes : List IndentChange}
    (applied : topLevel.resolveAll widths = .ok (changes, final))
    (level : Nat) :
    level ∈ final.levels ↔ StaysOpen widths level := by
  -- By induction from the last line on: both sides change in the same way.
  induction widths using List.reverseRecOn generalizing changes final with
  | nil =>
      cases applied
      rw [staysOpen_nil]
      exact List.mem_singleton
  | append_singleton widths width inductionHypothesis =>
      obtain ⟨_, reached, _, before, found, _⟩ :=
        resolveAll_concat_eq_ok_iff.mp applied
      have ordered := ordered_of_resolveAll before ordered_topLevel
      rw [(resolves_of_resolve found).mem_levels_iff ordered,
        inductionHypothesis before, staysOpen_concat]

/-- The next line fits no open block if it is narrower and its width is not open. -/
theorem exists_resolve_error_iff_staysOpen
    {final : Indentation}
    {widths : List Nat}
    {changes : List IndentChange}
    (applied : topLevel.resolveAll widths = .ok (changes, final))
    (width : Nat) :
    (∃ mismatch, final.resolve width = .error mismatch) ↔
      width < widths.getLastD 0 ∧ ¬ StaysOpen widths width := by
  rw [exists_resolve_error_iff, top_of_resolveAll applied,
    mem_levels_iff_staysOpen applied]

/-! ### Widths that can be resolved -/

/-- Each width that is less than the one before it is still open there. -/
def ReturnToOpen (widths : List Nat) : Prop :=
  ∀ before width after,
    widths = before ++ width :: after →
    width < before.getLastD 0 →
    StaysOpen before width

theorem returnToOpen_concat
    {widths : List Nat}
    {width : Nat} :
    ReturnToOpen (widths ++ [width]) ↔
      ReturnToOpen widths ∧
        (width < widths.getLastD 0 → StaysOpen widths width) := by
  constructor
  · intro returns
    refine ⟨?_, returns widths width [] rfl⟩
    intro before inner after shape
    exact returns before inner (after ++ [width]) (by simp [shape])
  · rintro ⟨returns, lastReturns⟩ before inner after shape narrower
    rcases List.eq_nil_or_concat' after with rfl | ⟨between, last, rfl⟩
    · obtain ⟨isBefore, isLast⟩ := List.append_inj' shape rfl
      rw [← isBefore] at narrower ⊢
      rw [← (List.cons.inj isLast).1] at narrower ⊢
      exact lastReturns narrower
    · rw [← List.cons_append, ← List.append_assoc] at shape
      exact returns before inner between (List.append_inj' shape rfl).1 narrower

/-- Widths can be resolved one after the other exactly if they return to open ones. -/
theorem exists_resolveAll_iff_returnToOpen
    (widths : List Nat) :
    (∃ changes final, topLevel.resolveAll widths = .ok (changes, final)) ↔
      ReturnToOpen widths := by
  induction widths using List.reverseRecOn with
  | nil =>
      simp [resolveAll, ReturnToOpen]
  | append_singleton widths width inductionHypothesis =>
      rw [returnToOpen_concat, ← inductionHypothesis]
      constructor
      · rintro ⟨changes, final, applied⟩
        obtain ⟨earlier, reached, change, before, found, _⟩ :=
          resolveAll_concat_eq_ok_iff.mp applied
        refine ⟨⟨earlier, reached, before⟩, ?_⟩
        intro narrower
        by_contra closed
        obtain ⟨mismatch, failed⟩ :=
          (exists_resolve_error_iff_staysOpen before width).mpr ⟨narrower, closed⟩
        rw [found] at failed
        cases failed
      · rintro ⟨⟨earlier, reached, before⟩, returns⟩
        cases found : reached.resolve width with
        | error mismatch =>
            obtain ⟨narrower, closed⟩ :=
              (exists_resolve_error_iff_staysOpen before width).mp ⟨mismatch, found⟩
            exact absurd (returns narrower) closed
        | ok resolution =>
            exact ⟨earlier ++ [resolution.1], resolution.2,
              resolveAll_concat_eq_ok_iff.mpr
                ⟨earlier, reached, resolution.1, before, found, rfl⟩⟩

end Indentation

open Indentation

/-! ### The lines of a source -/

/--
A line returns to the width of an earlier one: it stands at the top level, or an
earlier line is as wide and no line between the two is narrower.
-/
def Line.Returns (earlier : List Line) (line : Line) : Prop :=
  line.width = 0 ∨
    ∃ before same between,
      earlier = before ++ same :: between ∧
        same.width = line.width ∧
        ∀ other ∈ between, line.width ≤ other.width

theorem Line.returns_iff
    {earlier : List Line}
    {line : Line} :
    line.Returns earlier ↔ StaysOpen (earlier.map Line.width) line.width := by
  constructor
  · rintro (isZero | ⟨before, same, between, rfl, isSame, notNarrower⟩)
    · exact .inl isZero
    · refine .inr ⟨before.map Line.width, between.map Line.width, ?_, ?_⟩
      · rw [List.map_append, List.map_cons, isSame]
      · exact List.forall_mem_map.mpr notNarrower
  · rintro (isZero | ⟨widthsBefore, widthsBetween, shape, notNarrower⟩)
    · exact .inl isZero
    · obtain ⟨before, rest, rfl, _, isRest⟩ := List.map_eq_append_iff.mp shape
      obtain ⟨same, between, rfl, isSame, rfl⟩ := List.map_eq_cons_iff.mp isRest
      exact .inr ⟨before, same, between, rfl, isSame,
        List.forall_mem_map.mp notNarrower⟩

/-- Every line that is narrower than the one before it returns to an earlier one. -/
def LinesReturn (lines : List Line) : Prop :=
  ∀ before previous line after,
    lines = before ++ previous :: line :: after →
    line.width < previous.width →
    line.Returns (before ++ [previous])

theorem linesReturn_iff
    {lines : List Line} :
    LinesReturn lines ↔ ReturnToOpen (lines.map Line.width) := by
  constructor
  · intro returns widthsBefore width widthsAfter shape narrower
    obtain ⟨earlier, rest, rfl, rfl, isRest⟩ := List.map_eq_append_iff.mp shape
    obtain ⟨line, after, rfl, rfl, _⟩ := List.map_eq_cons_iff.mp isRest
    rcases List.eq_nil_or_concat' earlier with rfl | ⟨before, previous, rfl⟩
    · exact absurd narrower (Nat.not_lt_zero _)
    · rw [List.map_append, List.map_singleton, List.getLastD_concat] at narrower
      exact Line.returns_iff.mp
        (returns before previous line after (by simp) narrower)
  · intro returns before previous line after shape narrower
    apply Line.returns_iff.mpr
    refine returns _ line.width (after.map Line.width) (by simp [shape]) ?_
    rwa [List.map_append, List.map_singleton, List.getLastD_concat]

/-- Lines that all consist of tokens can only be at fault by their widths. -/
theorem exists_lex_iff_linesReturn
    {source : String}
    (noErrors : ∀ line ∈ logicalLines source, line.lexed.error? = none) :
    (∃ tokens, lex source = .ok tokens) ↔ LinesReturn (logicalLines source) := by
  rw [linesReturn_iff, ← exists_resolveAll_iff_returnToOpen]
  constructor
  · rintro ⟨tokens, lexed⟩
    obtain ⟨changes, final, applied, _, _⟩ := lex_eq_ok_iff.mp lexed
    exact ⟨changes, final, applied⟩
  · rintro ⟨changes, final, applied⟩
    exact ⟨_, lex_eq_ok_iff.mpr ⟨changes, final, applied, noErrors, rfl⟩⟩

/--
Behind lines that are resolved in order, the open widths are zero and those of
the lines that no narrower line has followed, and the next line is at fault
exactly if it is narrower than the last one and its width is none of these. A
source whose lines all consist of tokens can be lexed exactly if each line that
is narrower than the one before it returns to an earlier one.
-/
theorem offside_rule_by_widths :
    (∀ widths changes final,
      topLevel.resolveAll widths = .ok (changes, final) →
      final.levels.Pairwise (· < ·) ∧
        (∀ level, level ∈ final.levels ↔ StaysOpen widths level) ∧
        ∀ width,
          (∃ mismatch, final.resolve width = .error mismatch) ↔
            width < widths.getLastD 0 ∧ ¬ StaysOpen widths width) ∧
    ∀ source,
      (∀ line ∈ logicalLines source, line.lexed.error? = none) →
      ((∃ tokens, lex source = .ok tokens) ↔
        LinesReturn (logicalLines source)) := by
  constructor
  · intro widths changes final applied
    exact ⟨ordered_of_resolveAll applied ordered_topLevel,
      mem_levels_iff_staysOpen applied,
      exists_resolve_error_iff_staysOpen applied⟩
  · intro source noErrors
    exact exists_lex_iff_linesReturn noErrors

/--
A block of width four is closed and one of width two is opened in its place, so
one does not fit. In the source, the width of the last line lies between those of
the two lines before it.
-/
theorem offside_rule_by_widths_reopened :
    topLevel.resolveAll [0, 4, 8, 0, 2] =
        .ok ([.unchanged, .indent, .indent, .dedent 2, .indent], ⟨[2]⟩) ∧
      (∀ level, level ∈ [0, 2] ↔ StaysOpen [0, 4, 8, 0, 2] level) ∧
      ¬ StaysOpen [0, 4, 8, 0, 2] 1 ∧
      (∀ line ∈ logicalLines "if x:\n\t\ty\n\n z", line.lexed.error? = none) ∧
      ¬ LinesReturn (logicalLines "if x:\n\t\ty\n\n z") := by
  obtain ⟨ofWidths, ofSource⟩ := offside_rule_by_widths
  have applied :
      topLevel.resolveAll [0, 4, 8, 0, 2] =
        .ok ([.unchanged, .indent, .indent, .dedent 2, .indent], ⟨[2]⟩) := by
    decide
  obtain ⟨_, isOpen, fails⟩ := ofWidths _ _ _ applied
  have noErrors :
      ∀ line ∈ logicalLines "if x:\n\t\ty\n\n z", line.lexed.error? = none := by
    decide +kernel
  have misfit :
      lex "if x:\n\t\ty\n\n z" = .error (.indentation 4 1 ⟨11, 12⟩ [0, 2]) := by
    rw [lex, (collect_eq _).2]
    decide +kernel
  refine ⟨applied, isOpen, ((fails 1).mp ⟨_, rfl⟩).2, noErrors, ?_⟩
  rw [← ofSource _ noErrors, misfit]
  rintro ⟨tokens, lexed⟩
  cases lexed

end LayoutLexer
