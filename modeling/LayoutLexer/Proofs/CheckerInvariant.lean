import LayoutLexer.Proofs.WellBlocked

namespace LayoutLexer

/-!
# What the checker remembers, whatever it is pushed

Nothing obliges a caller to stop at a rejection, or to push the tokens of a
source at all. Here the checker is pushed any tokens in any order, and its
answers are ignored.

A push makes one of three things of the checker: it goes on in one of the ways
of `Advances`, it stays as it is, or an end of the input ends the current line.
All three keep the state sound. That no nesting is deeper than there are
statements needs the block that is announced but not yet open to be counted.
-/

namespace Blocks

namespace Checker

/-- What holds of the state of a checker at any time. -/
structure Sound (checker : Checker) : Prop where
  /-- There is a last token of the line exactly if the line has tokens. -/
  lastKind : checker.lineTokens = 0 ↔ checker.lastKind = none
  parens : checker.parenDepth ≤ checker.lineTokens
  /-- A block is announced only between two lines. -/
  announced : checker.expectIndent = true → checker.lineTokens = 0
  depth : checker.depth ≤ checker.summary.maxDepth
  /-- Every level of nesting has its header, an announced block too. -/
  headers :
    checker.summary.maxDepth + (if checker.expectIndent then 1 else 0) ≤
      checker.summary.statements

/-- The checker with its current line ended, and nothing else changed. -/
def lineEnded (checker : Checker) : Checker :=
  { checker with
    lineTokens := 0
    lastKind := none
    expectIndent := decide (checker.lastKind = some (.punctuation .colon))
    summary := {
      checker.summary with
      statements := checker.summary.statements + 1
    } }

/-- An end of the input finds a line that can be ended. -/
def EndsLine (checker : Checker) (token : Token) : Prop :=
  token.kind = .eof ∧ 0 < checker.lineTokens ∧ checker.parenDepth = 0

instance (checker : Checker) (token : Token) :
    Decidable (checker.EndsLine token) :=
  inferInstanceAs (Decidable (_ ∧ _ ∧ _))

variable {checker next : Checker}
variable {token : Token}

theorem nextLine_eq_lineEnded
    (closed : checker.parenDepth = 0) :
    checker.nextLine = checker.lineEnded := by
  have colon :
      checker.announcesBlock =
        decide (checker.lastKind = some (.punctuation .colon)) := by
    rw [announcesBlock]
    cases checker.lastKind with
    | none =>
        rfl
    | some kind =>
        simp [TokenKind.opensBlock_eq]
  simp [nextLine, atLine, lineEnded, closed, colon]

/-! ### Rejections -/

section

variable {fault : Fault}

theorem eq_of_indent_rejected
    (answer : checker.indent = (.rejected fault, next)) :
    next = checker := by
  rw [Checker.indent] at answer
  split at answer
  · cases answer
  · cases answer
    rfl

theorem eq_of_dedent_rejected
    (answer : checker.dedent = (.rejected fault, next)) :
    next = checker := by
  rw [Checker.dedent] at answer
  split at answer
  · cases answer
    rfl
  · split at answer
    · cases answer
      rfl
    · cases answer

theorem eq_of_newline_rejected
    {line : Nat}
    (answer : checker.newline line = (.rejected fault, next)) :
    next = checker := by
  rw [Checker.newline] at answer
  split at answer
  · cases answer
    rfl
  · split at answer
    · cases answer
      rfl
    · cases answer

theorem eq_of_lexical_rejected
    {kind : TokenKind}
    (answer : checker.lexical kind = (.rejected fault, next)) :
    next = checker := by
  rw [Checker.lexical] at answer
  split at answer
  · cases answer
    rfl
  · split at answer
    · cases answer
    · cases answer
    · split at answer
      · cases answer
        rfl
      · cases answer

end

/-- Judging the program changes nothing. -/
theorem conclude_state
    (checker : Checker) :
    checker.conclude.2 = checker := by
  rw [conclude]
  split
  · rfl
  · split <;> rfl

theorem step_eof
    (last : token.kind = .eof) :
    checker.step token = checker.eof token.line := by
  rw [step, last]

/-- The end of the input ends a line that can be ended, and changes nothing else. -/
theorem eof_state
    (last : token.kind = .eof) :
    (checker.eof token.line).2 =
      if checker.EndsLine token then checker.lineEnded else checker := by
  rw [Checker.eof, endLine_eq]
  by_cases present : 0 < checker.lineTokens
  · by_cases closed : checker.parenDepth = 0
    · have ends : checker.EndsLine token := ⟨last, present, closed⟩
      rw [if_pos present, if_pos closed, if_pos ends]
      exact (conclude_state checker.nextLine).trans (nextLine_eq_lineEnded closed)
    · have stays : ¬checker.EndsLine token := fun ends => closed ends.2.2
      rw [if_pos present, if_neg closed, if_neg stays]
  · have stays : ¬checker.EndsLine token := fun ends => present ends.2.1
    rw [if_neg present, if_neg stays]
    exact conclude_state checker

/-- A rejected token changes nothing, unless it is an end that ends a line. -/
theorem eq_of_step_rejected
    {fault : Fault}
    (answer : checker.step token = (.rejected fault, next)) :
    next = if checker.EndsLine token then checker.lineEnded else checker := by
  by_cases last : token.kind = .eof
  · rw [← eof_state last, ← step_eof last, answer]
  · have stays : ¬checker.EndsLine token := fun ends => last ends.1
    rw [if_neg stays]
    rw [step] at answer
    split at answer
    · exact eq_of_indent_rejected answer
    · exact eq_of_dedent_rejected answer
    · exact eq_of_newline_rejected answer
    · contradiction
    · exact eq_of_lexical_rejected answer

/-! ### One push -/

/-- What a push makes of the checker, whatever it answers. -/
theorem step_cases
    (checker : Checker)
    (token : Token) :
    checker.Advances token (checker.step token).2 ∨
      (checker.step token).2 =
        if checker.EndsLine token then checker.lineEnded else checker := by
  cases answer : checker.step token with
  | mk status reached =>
      cases status with
      | needMore =>
          exact .inl (step_eq_needMore_iff.mp answer)
      | accepted =>
          have last : token.kind = .eof := (step_eq_accepted_iff.mp answer).kind_eq
          rw [← answer, step_eof last]
          exact .inr (eof_state last)
      | rejected fault =>
          exact .inr (eq_of_step_rejected answer)

namespace Sound

theorem start : Checker.start.Sound where
  lastKind := ⟨fun _ => rfl, fun _ => rfl⟩
  parens := Nat.le_refl 0
  announced := fun awaits => by cases awaits
  depth := Nat.le_refl 0
  headers := Nat.le_refl 0

/-- Ending a line adds the statement that a block it announces is charged to. -/
theorem lineEnded
    (sound : checker.Sound)
    (closed : checker.parenDepth = 0) :
    checker.lineEnded.Sound where
  lastKind := ⟨fun _ => rfl, fun _ => rfl⟩
  parens := Nat.le_of_eq closed
  announced := fun _ => rfl
  depth := sound.depth
  headers := by
    have counted : checker.summary.maxDepth ≤ checker.summary.statements :=
      Nat.le_trans (Nat.le_add_right _ _) sound.headers
    have atMostOne : ∀ announces : Bool, (if announces then 1 else 0) ≤ 1 := by
      decide
    exact Nat.add_le_add counted (atMostOne _)

/-- Opening the announced block uses up the statement it was charged to. -/
theorem enter
    (sound : checker.Sound)
    (awaits : checker.expectIndent = true) :
    checker.enter.Sound where
  lastKind := sound.lastKind
  parens := sound.parens
  announced := fun stillAwaits => by cases stillAwaits
  depth := Nat.le_max_right _ _
  headers := by
    have counted := sound.headers
    have nested := sound.depth
    simp only [awaits, ↓reduceIte] at counted
    simp only [Checker.enter, Bool.false_eq_true, ↓reduceIte]
    omega

theorem leave
    (sound : checker.Sound)
    (count : Nat) :
    (checker.leave count).Sound where
  lastKind := sound.lastKind
  parens := sound.parens
  announced := sound.announced
  depth := Nat.le_trans (Nat.sub_le checker.depth count) sound.depth
  headers := sound.headers

/-- A lexical token adds at most one open parenthesis to its line. -/
theorem behind
    (sound : checker.Sound)
    (noBlock : checker.expectIndent = false) :
    (checker.behind [token]).Sound where
  lastKind := by simp [Checker.behind]
  parens := by
    have single : openParens [token] ≤ 1 :=
      List.countP_le_length
    have counted := sound.parens
    simp only [Checker.behind, List.length_singleton]
    omega
  announced := fun awaits =>
    absurd (noBlock.symm.trans awaits) Bool.false_ne_true
  depth := sound.depth
  headers := sound.headers

/-- Going on keeps the state sound. -/
theorem advance
    (sound : checker.Sound)
    (advances : checker.Advances token next) :
    next.Sound := by
  cases advances with
  | indent _ awaits =>
      exact sound.enter awaits
  | dedent _ _ _ =>
      exact sound.leave 1
  | newline _ _ closed =>
      rw [nextLine_eq_lineEnded closed]
      exact sound.lineEnded closed
  | lexical _ noBlock _ =>
      exact sound.behind noBlock

/-- No push makes the state unsound. -/
theorem step
    (sound : checker.Sound)
    (token : Token) :
    (checker.step token).2.Sound := by
  rcases step_cases checker token with advances | stays
  · exact sound.advance advances
  · rw [stays]
    by_cases ends : checker.EndsLine token
    · rw [if_pos ends]
      exact sound.lineEnded ends.2.2
    · rw [if_neg ends]
      exact sound

end Sound

end Checker

/-! ### Any pushes -/

/-- Neither count of one summary exceeds that of the other. -/
structure Summary.Within (earlier later : Summary) : Prop where
  statements : earlier.statements ≤ later.statements
  maxDepth : earlier.maxDepth ≤ later.maxDepth

namespace Summary.Within

variable {first second third : Summary}

theorem refl (summary : Summary) : summary.Within summary :=
  ⟨Nat.le_refl _, Nat.le_refl _⟩

theorem trans
    (earlier : first.Within second)
    (later : second.Within third) :
    first.Within third :=
  ⟨Nat.le_trans earlier.statements later.statements,
    Nat.le_trans earlier.maxDepth later.maxDepth⟩

end Summary.Within

/-- No push lowers a count. -/
theorem Checker.within_step
    (checker : Checker)
    (token : Token) :
    checker.summary.Within (checker.step token).2.summary := by
  rcases step_cases checker token with advances | stays
  · generalize (checker.step token).2 = next at advances
    cases advances with
    | indent =>
        exact ⟨Nat.le_refl _, Nat.le_max_left _ _⟩
    | dedent =>
        exact .refl _
    | newline =>
        exact ⟨Nat.le_succ _, Nat.le_refl _⟩
    | lexical =>
        exact .refl _
  · rw [stays]
    split
    · exact ⟨Nat.le_succ _, Nat.le_refl _⟩
    · exact .refl _

/-- The checker behind some pushes, whatever it answered to them. -/
def pushAll (checker : Checker) (tokens : List Token) : Checker :=
  tokens.foldl (fun checker token => (parser.push checker token).2) checker

/-- Pushes keep the state sound. -/
theorem Checker.Sound.pushAll
    {checker : Checker}
    (sound : checker.Sound)
    (tokens : List Token) :
    (pushAll checker tokens).Sound := by
  induction tokens generalizing checker with
  | nil =>
      exact sound
  | cons token rest inductionHypothesis =>
      exact inductionHypothesis (sound.step token)

/-- Pushes lower no count. -/
theorem within_pushAll
    (checker : Checker)
    (tokens : List Token) :
    checker.summary.Within (pushAll checker tokens).summary := by
  induction tokens generalizing checker with
  | nil =>
      exact .refl checker.summary
  | cons token rest inductionHypothesis =>
      exact (checker.within_step token).trans (inductionHypothesis _)

/--
Whatever a new checker is pushed, its state is sound, so the summary it would
release has no more levels than statements, and no later push lowers a count. A
push that is rejected leaves the state as it is, unless it is an end of the input
in a line without open parentheses: this ends the line and changes nothing else.
-/
theorem checker_always_sound
    (tokens : List Token) :
    let checker := pushAll parser.initial tokens
    checker.Sound ∧
      (parser.release checker).1.maxDepth ≤ (parser.release checker).1.statements ∧
      (∀ more,
        (parser.release checker).1.Within
          (parser.release (pushAll parser.initial (tokens ++ more))).1) ∧
      ∀ token message,
        (parser.push checker token).1 = .rejected message →
          (parser.push checker token).2 =
            if token.kind = .eof ∧ 0 < checker.lineTokens ∧ checker.parenDepth = 0 then
              { checker with
                lineTokens := 0
                lastKind := none
                expectIndent := decide (checker.lastKind = some (.punctuation .colon))
                summary := {
                  checker.summary with
                  statements := checker.summary.statements + 1
                } }
            else
              checker := by
  intro checker
  have sound : checker.Sound := Checker.Sound.start.pushAll tokens
  refine ⟨sound, Nat.le_trans (Nat.le_add_right _ _) sound.headers, ?_, ?_⟩
  · intro more
    have later :
        pushAll parser.initial (tokens ++ more) = pushAll checker more :=
      List.foldl_append
    rw [later]
    exact within_pushAll checker more
  · intro token message rejected
    cases answer : checker.step token with
    | mk status next =>
        cases status with
        | rejected fault =>
            have left : (parser.push checker token).2 = next := by
              simp only [parser, answer]
            rw [left]
            exact Checker.eq_of_step_rejected answer
        | _ =>
            simp [parser, answer, Status.mapReason] at rejected

-- The end of the input is rejected behind a colon, and yet it ends the line.
example :
    let checker :=
      pushAll parser.initial
        [⟨.punctuation .colon, ":", 1, ⟨0, 1⟩⟩, ⟨.eof, "", 1, ⟨1, 1⟩⟩]
    checker.summary = ⟨1, 0⟩ ∧ checker.expectIndent = true := by
  decide

end Blocks

end LayoutLexer
