import LayoutLexer.Indentation
import Mathlib.Data.List.Basic

namespace LayoutLexer.Indentation

/-!
# The widths of the open blocks

The open widths start with the zero of the top level and increase strictly.
Resolving the width of a line keeps them so. It either leaves them alone, or
adds a wider one, or takes some away and ends at the width of the line; the top
level is never taken away.
-/

/-- The open widths increase strictly, from the top level on. -/
def Ordered (indentation : Indentation) : Prop :=
  indentation.levels.Pairwise (· < ·)

theorem ordered_topLevel : topLevel.Ordered := by
  simp [Ordered, levels, topLevel]

@[simp] theorem head?_levels
    (indentation : Indentation) :
    indentation.levels.head? = some 0 :=
  rfl

@[simp] theorem length_levels
    (indentation : Indentation) :
    indentation.levels.length = indentation.depth + 1 := by
  simp [levels, depth]

/-- The innermost block is the last of the open widths. -/
theorem getLast?_levels
    (indentation : Indentation) :
    indentation.levels.getLast? = some indentation.top := by
  obtain ⟨opened⟩ := indentation
  cases opened with
  | nil =>
      rfl
  | cons width others =>
      rw [levels, List.reverse_cons, ← List.cons_append,
        List.getLast?_concat]
      rfl

/-- No open block is wider than the innermost one. -/
theorem le_top
    {indentation : Indentation}
    (ordered : indentation.Ordered) :
    ∀ level ∈ indentation.levels, level ≤ indentation.top := by
  intro level member
  obtain ⟨before, shape⟩ :=
    List.getLast?_eq_some_iff.mp indentation.getLast?_levels
  rw [Ordered, shape, List.pairwise_append] at ordered
  rw [shape, List.mem_append, List.mem_singleton] at member
  rcases member with earlier | isLast
  · exact Nat.le_of_lt
      (ordered.2.2 level earlier indentation.top List.mem_cons_self)
  · exact Nat.le_of_eq isLast

/-- What the width of a line can do to the open blocks. -/
inductive Resolves (indentation : Indentation) (width : Nat) :
    IndentChange → Indentation → Prop where
  | unchanged :
      width = indentation.top →
      Resolves indentation width .unchanged indentation
  | indent {resolved : Indentation} :
      indentation.top < width →
      resolved.levels = indentation.levels ++ [width] →
      Resolves indentation width .indent resolved
  | dedent {closed : Nat} {resolved : Indentation} :
      width < indentation.top →
      0 < closed →
      closed ≤ indentation.depth →
      resolved.levels =
        indentation.levels.take (indentation.levels.length - closed) →
      resolved.top = width →
      Resolves indentation width (.dedent closed) resolved

/-- Closing blocks takes their widths away from the end. -/
theorem levels_drop
    {opened : List Nat}
    {closed : Nat}
    (within : closed ≤ opened.length) :
    levels ⟨opened.drop closed⟩ =
      (levels ⟨opened⟩).take ((levels ⟨opened⟩).length - closed) := by
  have counted :
      (levels ⟨opened⟩).length - closed = (opened.length - closed) + 1 := by
    simp only [length_levels, depth]
    omega
  rw [counted, levels, levels, List.reverse_drop, List.take_succ_cons]

/-- The block that becomes the innermost one is found by its width. -/
theorem top_drop_of_idxOf?
    {opened : List Nat}
    {closed width : Nat}
    (position : (opened ++ [0]).idxOf? width = some closed) :
    closed ≤ opened.length ∧ top ⟨opened.drop closed⟩ = width := by
  obtain ⟨bound, found, _⟩ := List.idxOf?_eq_some_iff.mp position
  have within : closed ≤ opened.length := by
    simpa [Nat.lt_succ_iff] using bound
  refine ⟨within, ?_⟩
  rw [top, List.headD_eq_head?_getD, List.head?_drop]
  by_cases inner : closed < opened.length
  · rw [List.getElem_append_left inner] at found
    simp [inner, found]
  · have outermost : closed = opened.length := by
      omega
    subst outermost
    simpa using found

/-- A width that is resolved does one of the three things. -/
theorem resolves_of_resolve
    {indentation resolved : Indentation}
    {width : Nat}
    {change : IndentChange}
    (found : indentation.resolve width = .ok (change, resolved)) :
    indentation.Resolves width change resolved := by
  rw [resolve] at found
  split at found
  · rename_i wider
    cases found
    exact .indent wider (by simp [levels])
  · rename_i notWider
    split at found
    · rename_i same
      cases found
      exact .unchanged same
    · rename_i different
      split at found
      · rename_i closed position
        cases found
        obtain ⟨within, top⟩ := top_drop_of_idxOf? position
        have closes : 0 < closed := by
          rcases Nat.eq_zero_or_pos closed with closesNone | positive
          · subst closesNone
            exact absurd top.symm different
          · exact positive
        exact .dedent (by omega) closes within (levels_drop within) top
      · cases found

/-- A line that opens a block is one block deeper. -/
theorem depth_of_opened
    {indentation resolved : Indentation}
    {width : Nat}
    (levels : resolved.levels = indentation.levels ++ [width]) :
    resolved.depth = indentation.depth + 1 := by
  have lengths := congrArg List.length levels
  simpa using lengths

/-- A line that closes blocks is as many blocks less deep. -/
theorem depth_of_closed
    {indentation resolved : Indentation}
    {closed : Nat}
    (within : closed ≤ indentation.depth)
    (levels :
      resolved.levels =
        indentation.levels.take (indentation.levels.length - closed)) :
    resolved.depth = indentation.depth - closed := by
  have lengths := congrArg List.length levels
  simp only [List.length_take, length_levels] at lengths
  omega

/-- Resolving the width of a line keeps the open widths in order. -/
theorem Resolves.ordered
    {indentation resolved : Indentation}
    {width : Nat}
    {change : IndentChange}
    (resolves : indentation.Resolves width change resolved)
    (ordered : indentation.Ordered) :
    resolved.Ordered := by
  cases resolves with
  | unchanged _ =>
      exact ordered
  | indent wider levels =>
      have bounded : ∀ level ∈ indentation.levels, level ≤ indentation.top :=
        le_top ordered
      rw [Ordered, levels, List.pairwise_append]
      refine ⟨ordered, by simp, ?_⟩
      intro level member last isLast
      rw [List.mem_singleton.mp isLast]
      exact Nat.lt_of_le_of_lt (bounded level member) wider
  | dedent _ _ _ levels _ =>
      rw [Ordered, levels]
      exact ordered.sublist (List.take_sublist _ _)

/-- The line is as wide as the block it ends up in. -/
theorem Resolves.top_eq
    {indentation resolved : Indentation}
    {width : Nat}
    {change : IndentChange}
    (resolves : indentation.Resolves width change resolved) :
    resolved.top = width := by
  cases resolves with
  | unchanged same =>
      exact same.symm
  | indent wider levels =>
      have last := resolved.getLast?_levels
      rw [levels, List.getLast?_concat] at last
      exact (Option.some.inj last).symm
  | dedent _ _ _ _ top =>
      exact top

/-- A line at the top level closes all blocks. -/
theorem resolve_zero
    {indentation : Indentation}
    (ordered : indentation.Ordered) :
    indentation.resolve 0 =
      .ok (if indentation.depth = 0 then .unchanged else .dedent indentation.depth,
        topLevel) := by
  obtain ⟨opened⟩ := indentation
  cases opened with
  | nil =>
      rfl
  | cons width others =>
      have positive : ∀ level ∈ width :: others, 0 < level := by
        intro level member
        rw [Ordered, levels, List.pairwise_cons] at ordered
        exact ordered.1 level (List.mem_reverse.mpr member)
      have nested : width ≠ 0 :=
        Nat.ne_of_gt (positive width List.mem_cons_self)
      have outermost :
          (width :: others ++ [0]).idxOf? 0 = some (width :: others).length := by
        apply List.idxOf?_eq_some_iff.mpr
        refine ⟨by simp, by simp, ?_⟩
        intro index inside
        rw [List.getElem_append_left inside]
        exact Nat.ne_of_gt (positive _ (List.getElem_mem inside))
      simp only [resolve, top, depth, topLevel, outermost]
      simp [nested.symm]

/-! ### The widths of several lines -/

/--
Apply the widths of some lines, one after the other; the first that fits no open
block ends this.
-/
def resolveAll
    (indentation : Indentation) :
    List Nat → Except IndentMismatch (List IndentChange × Indentation)
  | [] =>
      .ok ([], indentation)
  | width :: widths =>
      match indentation.resolve width with
      | .error mismatch =>
          .error mismatch
      | .ok (change, resolved) =>
          (resolved.resolveAll widths).map (Prod.map (change :: ·) id)

/-- Widths are applied when the first is, and then the others. -/
theorem resolveAll_cons_eq_ok_iff
    {indentation final : Indentation}
    {width : Nat}
    {widths : List Nat}
    {changes : List IndentChange} :
    indentation.resolveAll (width :: widths) = .ok (changes, final) ↔
      ∃ change resolved others,
        indentation.resolve width = .ok (change, resolved) ∧
          resolved.resolveAll widths = .ok (others, final) ∧
          changes = change :: others := by
  constructor
  · intro applied
    rw [resolveAll] at applied
    cases found : indentation.resolve width with
    | error mismatch =>
        rw [found] at applied
        cases applied
    | ok resolution =>
        obtain ⟨change, resolved⟩ := resolution
        rw [found] at applied
        cases rest : resolved.resolveAll widths with
        | error mismatch =>
            simp [rest, Except.map] at applied
        | ok resolution =>
            obtain ⟨others, last⟩ := resolution
            simp only [rest, Except.map, Prod.map, id, Except.ok.injEq,
              Prod.mk.injEq] at applied
            obtain ⟨isChanges, isFinal⟩ := applied
            exact ⟨change, resolved, others, rfl, isFinal ▸ rest, isChanges.symm⟩
  · rintro ⟨change, resolved, others, found, rest, isChanges⟩
    simp [resolveAll, found, rest, Except.map, isChanges]

/-- There is one change for each width. -/
theorem length_of_resolveAll
    {indentation final : Indentation}
    {widths : List Nat}
    {changes : List IndentChange}
    (applied : indentation.resolveAll widths = .ok (changes, final)) :
    changes.length = widths.length := by
  induction widths generalizing indentation changes with
  | nil =>
      cases applied
      rfl
  | cons width widths inductionHypothesis =>
      obtain ⟨change, resolved, others, _, rest, isChanges⟩ :=
        resolveAll_cons_eq_ok_iff.mp applied
      rw [isChanges, List.length_cons, List.length_cons,
        inductionHypothesis rest]

/-- Widths are applied when some of them are, and then the others. -/
theorem resolveAll_append_eq_ok_iff
    {indentation final : Indentation}
    {first second : List Nat}
    {changes : List IndentChange} :
    indentation.resolveAll (first ++ second) = .ok (changes, final) ↔
      ∃ earlier reached later,
        indentation.resolveAll first = .ok (earlier, reached) ∧
          reached.resolveAll second = .ok (later, final) ∧
          changes = earlier ++ later := by
  induction first generalizing indentation changes with
  | nil =>
      constructor
      · intro applied
        exact ⟨[], indentation, changes, rfl, applied, rfl⟩
      · rintro ⟨earlier, reached, later, isStart, applied, rfl⟩
        cases isStart
        exact applied
  | cons width first inductionHypothesis =>
      rw [List.cons_append, resolveAll_cons_eq_ok_iff]
      constructor
      · rintro ⟨change, resolved, others, found, rest, rfl⟩
        obtain ⟨earlier, reached, later, before, behind, rfl⟩ :=
          inductionHypothesis.mp rest
        exact ⟨change :: earlier, reached, later,
          resolveAll_cons_eq_ok_iff.mpr
            ⟨change, resolved, earlier, found, before, rfl⟩, behind, rfl⟩
      · rintro ⟨earlier, reached, later, before, behind, rfl⟩
        obtain ⟨change, resolved, others, found, rest, rfl⟩ :=
          resolveAll_cons_eq_ok_iff.mp before
        exact ⟨change, resolved, others ++ later, found,
          inductionHypothesis.mpr ⟨others, reached, later, rest, behind, rfl⟩,
          rfl⟩

/-- Widths that can be applied can be applied up to any of them. -/
theorem exists_resolveAll_of_append
    {indentation final : Indentation}
    {first second : List Nat}
    {changes : List IndentChange}
    (applied : indentation.resolveAll (first ++ second) = .ok (changes, final)) :
    ∃ earlier reached,
      indentation.resolveAll first = .ok (earlier, reached) := by
  obtain ⟨earlier, reached, _, before, _, _⟩ :=
    resolveAll_append_eq_ok_iff.mp applied
  exact ⟨earlier, reached, before⟩

/-- Widths are applied when all but the last are, and then the last. -/
theorem resolveAll_concat_eq_ok_iff
    {indentation final : Indentation}
    {widths : List Nat}
    {width : Nat}
    {changes : List IndentChange} :
    indentation.resolveAll (widths ++ [width]) = .ok (changes, final) ↔
      ∃ earlier reached change,
        indentation.resolveAll widths = .ok (earlier, reached) ∧
          reached.resolve width = .ok (change, final) ∧
          changes = earlier ++ [change] := by
  rw [resolveAll_append_eq_ok_iff]
  constructor
  · rintro ⟨earlier, reached, later, before, last, rfl⟩
    obtain ⟨change, resolved, others, found, isNone, rfl⟩ :=
      resolveAll_cons_eq_ok_iff.mp last
    cases isNone
    exact ⟨earlier, reached, change, before, found, rfl⟩
  · rintro ⟨earlier, reached, change, before, found, rfl⟩
    exact ⟨earlier, reached, [change], before,
      resolveAll_cons_eq_ok_iff.mpr ⟨change, final, [], found, rfl, rfl⟩, rfl⟩

/-- Applying widths keeps the open ones in order. -/
theorem ordered_of_resolveAll
    {indentation final : Indentation}
    {widths : List Nat}
    {changes : List IndentChange}
    (applied : indentation.resolveAll widths = .ok (changes, final))
    (ordered : indentation.Ordered) :
    final.Ordered := by
  induction widths generalizing indentation changes with
  | nil =>
      cases applied
      exact ordered
  | cons width widths inductionHypothesis =>
      obtain ⟨change, resolved, others, found, rest, _⟩ :=
        resolveAll_cons_eq_ok_iff.mp applied
      exact inductionHypothesis rest
        ((resolves_of_resolve found).ordered ordered)

end LayoutLexer.Indentation
