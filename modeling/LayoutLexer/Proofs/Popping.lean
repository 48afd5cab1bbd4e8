import LayoutLexer.Proofs.OpenLevels

namespace LayoutLexer.Indentation

/-!
# Resolving by popping

The rule for the width of a line is told of a stack of widths, the innermost on
top. A wider line is pushed. For any other, widths are popped until the top is
the width of the line, and the rule fails if this would empty the stack.
`resolve` pops nothing: it looks the width up and then closes all blocks inside
of it at once.

The two agree on all stacks (`resolve_eq_popRule`), except that a width that fits
no block leaves the open ones as they are. So they stay together however the
open blocks are used, and the invariant of their widths is kept on the way
(`behind_followsRule`).
-/

/-! ### The rule -/

/--
Pop widths until the top is the given one, and count the pops. There is no result
if this empties the stack.
-/
def popTo (width : Nat) : List Nat → Option (Nat × List Nat)
  | [] =>
      none
  | top :: outer =>
      if top = width then
        some (0, top :: outer)
      else
        (popTo width outer).map fun popped => (popped.1 + 1, popped.2)

/-- Apply the width of a line to a stack of widths, the innermost first. -/
def popRule (stack : List Nat) (width : Nat) : Option (IndentChange × List Nat) :=
  if stack.headD 0 < width then
    some (.indent, width :: stack)
  else
    (popTo width stack).map fun popped =>
      (if popped.1 = 0 then .unchanged else .dedent popped.1, popped.2)

/-- Popping one by one ends where a search from the top finds the width. -/
theorem popTo_eq
    (width : Nat)
    (stack : List Nat) :
    popTo width stack =
      (stack.idxOf? width).map fun closed => (closed, stack.drop closed) := by
  induction stack with
  | nil =>
      rfl
  | cons top outer inductionHypothesis =>
      rw [popTo, List.idxOf?_cons]
      by_cases same : top = width
      · simp [same]
      · simp [same, inductionHypothesis, Option.map_map, Function.comp_def]

/-- The open widths, innermost first, end with the top level. -/
theorem reverse_levels
    (indentation : Indentation) :
    indentation.levels.reverse = indentation.opened ++ [0] := by
  simp [levels]

theorem headD_reverse_levels
    (indentation : Indentation) :
    indentation.levels.reverse.headD 0 = indentation.top := by
  rw [List.headD_eq_head?_getD, List.head?_reverse, getLast?_levels,
    Option.getD_some]

/-- A search for the innermost width ends at once. -/
theorem idxOf?_top
    (indentation : Indentation) :
    (indentation.opened ++ [0]).idxOf? indentation.top = some 0 := by
  obtain ⟨opened⟩ := indentation
  cases opened <;> simp [top, List.idxOf?_cons]

/--
Search and pop come to the same: what the rule does to the open widths is what
`resolve` does to the open blocks, and `resolve` fails where the rule does.
-/
theorem resolve_eq_popRule
    (indentation : Indentation)
    (width : Nat) :
    match popRule indentation.levels.reverse width with
    | some (change, left) =>
        ∃ resolved,
          indentation.resolve width = .ok (change, resolved) ∧
            resolved.levels.reverse = left
    | none =>
        indentation.resolve width = .error ⟨width, indentation.levels⟩ := by
  rw [popRule, headD_reverse_levels, resolve]
  by_cases wider : indentation.top < width
  · rw [if_pos wider, if_pos wider]
    exact ⟨_, rfl, by simp [levels]⟩
  · rw [if_neg wider, if_neg wider, popTo_eq, reverse_levels]
    by_cases same : width = indentation.top
    · rw [if_pos same, same, idxOf?_top]
      exact ⟨indentation, rfl, reverse_levels indentation⟩
    · rw [if_neg same]
      cases position : (indentation.opened ++ [0]).idxOf? width with
      | none =>
          rfl
      | some closed =>
          obtain ⟨within, isTop⟩ := top_drop_of_idxOf? position
          have closes : closed ≠ 0 := by
            intro closesNone
            rw [closesNone] at isTop
            exact same isTop.symm
          simp only [Option.map_some, if_neg closes]
          refine ⟨_, rfl, ?_⟩
          rw [reverse_levels, List.drop_append_of_le_length within]

/-- A width fits no open block if it is narrower than the innermost and none of theirs. -/
theorem exists_resolve_error_iff
    {indentation : Indentation}
    {width : Nat} :
    (∃ mismatch, indentation.resolve width = .error mismatch) ↔
      width < indentation.top ∧ width ∉ indentation.levels := by
  have searched :
      width ∈ indentation.levels ↔ width ∈ indentation.opened ++ [0] := by
    rw [← reverse_levels, List.mem_reverse]
  rw [searched, resolve]
  by_cases wider : indentation.top < width
  · rw [if_pos wider]
    simp [Nat.not_lt_of_lt wider]
  · by_cases same : width = indentation.top
    · rw [if_neg wider, if_pos same]
      simp [same]
    · have narrower : width < indentation.top := by
        omega
      rw [if_neg wider, if_neg same]
      cases position : (indentation.opened ++ [0]).idxOf? width with
      | none =>
          simp [narrower, List.idxOf?_eq_none_iff.mp position]
      | some closed =>
          have present : width ∈ indentation.opened ++ [0] :=
            List.isSome_idxOf?.mp (by rw [position]; rfl)
          simp [present]

/-! ### Uses of the open blocks -/

/-- One use of the open blocks. -/
inductive Call where
  | resolve (width : Nat)
  | drain
  deriving Repr, DecidableEq

/-- The open blocks behind a call. A width that fits none leaves them alone. -/
def after (indentation : Indentation) : Call → Indentation
  | .resolve width =>
      match indentation.resolve width with
      | .error _ =>
          indentation
      | .ok (_, resolved) =>
          resolved
  | .drain =>
      indentation.drain.2

/-- The open blocks behind some calls, whatever came of each. -/
def behind (indentation : Indentation) (calls : List Call) : Indentation :=
  calls.foldl after indentation

/-- A call keeps the open widths in order. -/
theorem Ordered.after
    {indentation : Indentation}
    (ordered : indentation.Ordered)
    (call : Call) :
    (indentation.after call).Ordered := by
  cases call with
  | resolve width =>
      rw [Indentation.after]
      cases found : indentation.resolve width with
      | error mismatch =>
          exact ordered
      | ok resolution =>
          exact (resolves_of_resolve found).ordered ordered
  | drain =>
      exact ordered_topLevel

/-- So do any calls, one after the other. -/
theorem Ordered.behind
    {indentation : Indentation}
    (ordered : indentation.Ordered)
    (calls : List Call) :
    (indentation.behind calls).Ordered := by
  induction calls generalizing indentation with
  | nil =>
      exact ordered
  | cons call calls inductionHypothesis =>
      exact inductionHypothesis (ordered.after call)

/-- The stack behind a call, by the rule. A width for which it fails changes nothing. -/
def popAfter (stack : List Nat) : Call → List Nat
  | .resolve width =>
      match popRule stack width with
      | none =>
          stack
      | some (_, left) =>
          left
  | .drain =>
      stack.drop (stack.length - 1)

/-- A call does to the open widths what the rule does. -/
theorem reverse_levels_after
    (indentation : Indentation)
    (call : Call) :
    (indentation.after call).levels.reverse =
      popAfter indentation.levels.reverse call := by
  cases call with
  | resolve width =>
      have agrees := resolve_eq_popRule indentation width
      rw [popAfter]
      cases popped : popRule indentation.levels.reverse width with
      | none =>
          rw [popped] at agrees
          rw [after, agrees]
      | some resolution =>
          obtain ⟨change, left⟩ := resolution
          rw [popped] at agrees
          obtain ⟨resolved, found, isLeft⟩ := agrees
          rw [after, found]
          exact isLeft
  | drain =>
      rw [popAfter, reverse_levels indentation, List.length_append,
        List.length_singleton, Nat.add_sub_cancel, List.drop_left]
      rfl

/-- However the open blocks are used, their widths stay with the rule. -/
theorem reverse_levels_behind
    (indentation : Indentation)
    (calls : List Call) :
    (indentation.behind calls).levels.reverse =
      calls.foldl popAfter indentation.levels.reverse := by
  induction calls generalizing indentation with
  | nil =>
      rfl
  | cons call calls inductionHypothesis =>
      rw [List.foldl_cons, ← reverse_levels_after]
      exact inductionHypothesis (indentation.after call)

/-! ### What holds at any point of a use -/

/-- What a change does to the number of open blocks. -/
def ChangesDepth (before after : Indentation) : IndentChange → Prop
  | .unchanged => after.depth = before.depth
  | .indent => after.depth = before.depth + 1
  | .dedent closed => 1 ≤ closed ∧ after.depth + closed = before.depth

theorem Resolves.changesDepth
    {indentation resolved : Indentation}
    {width : Nat}
    {change : IndentChange}
    (resolves : indentation.Resolves width change resolved) :
    indentation.ChangesDepth resolved change := by
  cases resolves with
  | unchanged _ =>
      rfl
  | indent _ opened =>
      exact depth_of_opened opened
  | dedent _ closes within closed _ =>
      refine ⟨closes, ?_⟩
      rw [depth_of_closed within closed, Nat.sub_add_cancel within]

/-- What the open blocks keep to while they are used. -/
structure FollowsRule (indentation : Indentation) : Prop where
  bottom : indentation.levels.head? = some 0
  increasing : indentation.levels.Pairwise (· < ·)
  /-- Where the rule has a result, resolving has the same. -/
  popped :
    ∀ width change left,
      popRule indentation.levels.reverse width = some (change, left) →
      ∃ resolved,
        indentation.resolve width = .ok (change, resolved) ∧
          resolved.levels.reverse = left
  /-- Where the rule fails, resolving says which widths are open and keeps them. -/
  refused :
    ∀ width,
      popRule indentation.levels.reverse width = none →
      indentation.resolve width = .error ⟨width, indentation.levels⟩ ∧
        indentation.after (.resolve width) = indentation
  refused_iff :
    ∀ width,
      (∃ mismatch, indentation.resolve width = .error mismatch) ↔
        width < indentation.top ∧ width ∉ indentation.levels
  resolved :
    ∀ width change resolved,
      indentation.resolve width = .ok (change, resolved) →
      indentation.after (.resolve width) = resolved ∧
        resolved.top = width ∧
        indentation.ChangesDepth resolved change
  drained :
    indentation.drain.1 = indentation.depth ∧
      (indentation.after .drain).levels = [0]

/-- Open blocks whose widths are in order follow the rule. -/
theorem Ordered.followsRule
    {indentation : Indentation}
    (ordered : indentation.Ordered) :
    indentation.FollowsRule where
  bottom := indentation.head?_levels
  increasing := ordered
  popped width change left found := by
    have agrees := resolve_eq_popRule indentation width
    rw [found] at agrees
    exact agrees
  refused width failed := by
    have agrees := resolve_eq_popRule indentation width
    rw [failed] at agrees
    exact ⟨agrees, by rw [Indentation.after, agrees]⟩
  refused_iff _ := exists_resolve_error_iff
  resolved width change resolved found := by
    have resolves := resolves_of_resolve found
    exact ⟨by rw [Indentation.after, found], resolves.top_eq, resolves.changesDepth⟩
  drained := ⟨rfl, rfl⟩

/--
From the top level on, and whatever widths are resolved and wherever the blocks
are drained in between, the open widths are those that the rule leaves, and they
follow it from there on.
-/
theorem behind_followsRule
    (calls : List Call) :
    (topLevel.behind calls).levels.reverse = calls.foldl popAfter [0] ∧
      (topLevel.behind calls).FollowsRule :=
  ⟨reverse_levels_behind topLevel calls,
    (ordered_topLevel.behind calls).followsRule⟩

-- The second width fits no open block; the third is resolved all the same.
example :
    (topLevel.behind [.resolve 4, .resolve 2, .resolve 8, .resolve 4]).levels =
      [0, 4] := by
  decide

end LayoutLexer.Indentation
