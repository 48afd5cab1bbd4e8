import LayoutLexer.Proofs.BlockGrammar

namespace LayoutLexer

/-!
# How the checker refuses tokens

The checker refuses a token in nine ways, each for one fault. They are said of
its state and of the token alone, whatever tokens came before.
-/

namespace Blocks

namespace Checker

/-- The ways in which the checker refuses a token. -/
inductive Refuses (checker : Checker) (token : Token) : Fault → Prop where
  | unexpectedIndent :
      token.kind = .indent →
      checker.expectIndent = false →
      Refuses checker token .unexpectedIndent
  | dedentTooSoon :
      token.kind = .dedent →
      checker.expectIndent = true →
      Refuses checker token .missingBlock
  | unopenedBlock :
      token.kind = .dedent →
      checker.expectIndent = false →
      checker.depth = 0 →
      Refuses checker token .unopenedBlock
  | emptyStatement :
      token.kind = .newline →
      checker.lineTokens = 0 →
      Refuses checker token .emptyStatement
  | unclosedParen :
      token.kind = .newline ∨ token.kind = .eof →
      0 < checker.lineTokens →
      0 < checker.parenDepth →
      Refuses checker token (.unclosedParen token.line)
  | endTooSoon :
      token.kind = .eof →
      checker.expectIndent = true ∨ checker.announcesBlock = true →
      Refuses checker token .missingBlock
  | unclosedBlocks :
      token.kind = .eof →
      0 < checker.depth →
      Refuses checker token (.unclosedBlocks checker.depth)
  | missingBlockBefore :
      token.kind.isLayout = false →
      checker.expectIndent = true →
      Refuses checker token (.missingBlockBefore token.kind)
  | unmatchedParen :
      token.kind.isLayout = false →
      token.kind.nesting = .closing →
      checker.parenDepth = 0 →
      Refuses checker token .unmatchedParen

section

variable {checker next : Checker}
variable {token : Token}
variable {fault : Fault}

theorem refuses_of_indent
    (kind : token.kind = .indent)
    (answer : checker.indent = (.rejected fault, next)) :
    checker.Refuses token fault := by
  rw [Checker.indent] at answer
  split at answer
  · cases answer
  · rename_i awaitsNone
    cases answer
    exact .unexpectedIndent kind (by simpa using awaitsNone)

theorem refuses_of_dedent
    (kind : token.kind = .dedent)
    (answer : checker.dedent = (.rejected fault, next)) :
    checker.Refuses token fault := by
  rw [Checker.dedent] at answer
  split at answer
  · rename_i awaits
    cases answer
    exact .dedentTooSoon kind awaits
  · rename_i awaitsNone
    split at answer
    · rename_i outside
      cases answer
      exact .unopenedBlock kind (by simpa using awaitsNone) outside
    · cases answer

theorem refuses_of_newline
    (kind : token.kind = .newline)
    (answer : checker.newline token.line = (.rejected fault, next)) :
    checker.Refuses token fault := by
  rw [Checker.newline, endLine_eq] at answer
  by_cases empty : checker.lineTokens = 0
  · rw [if_pos empty] at answer
    cases answer
    exact .emptyStatement kind empty
  · rw [if_neg empty] at answer
    by_cases closed : checker.parenDepth = 0
    · rw [if_pos closed] at answer
      cases answer
    · rw [if_neg closed] at answer
      cases answer
      exact .unclosedParen (.inl kind) (Nat.pos_of_ne_zero empty)
        (Nat.pos_of_ne_zero closed)

/-- At the end of the input, a last line is ended before the blocks are judged. -/
theorem refuses_of_conclude
    {ended : Checker}
    (answer : ended.conclude = (.rejected fault, next))
    (kind : token.kind = .eof)
    (sameDepth : ended.depth = checker.depth)
    (announced :
      ended.expectIndent = true →
        checker.expectIndent = true ∨ checker.announcesBlock = true) :
    checker.Refuses token fault := by
  rw [conclude] at answer
  split at answer
  · rename_i awaits
    cases answer
    exact .endTooSoon kind (announced awaits)
  · split at answer
    · rename_i inside
      cases answer
      rw [sameDepth] at inside ⊢
      exact .unclosedBlocks kind inside
    · cases answer

theorem refuses_of_eof
    (kind : token.kind = .eof)
    (answer : checker.eof token.line = (.rejected fault, next)) :
    checker.Refuses token fault := by
  rw [Checker.eof, endLine_eq] at answer
  by_cases present : 0 < checker.lineTokens
  · rw [if_pos present] at answer
    by_cases closed : checker.parenDepth = 0
    · rw [if_pos closed] at answer
      exact refuses_of_conclude answer kind rfl .inr
    · rw [if_neg closed] at answer
      cases answer
      exact .unclosedParen (.inr kind) present (Nat.pos_of_ne_zero closed)
  · rw [if_neg present] at answer
    exact refuses_of_conclude answer kind rfl .inl

theorem refuses_of_lexical
    (lexical : token.kind.isLayout = false)
    (answer : checker.lexical token.kind = (.rejected fault, next)) :
    checker.Refuses token fault := by
  rw [Checker.lexical] at answer
  split at answer
  · rename_i awaits
    cases answer
    exact .missingBlockBefore lexical awaits
  · split at answer
    · cases answer
    · cases answer
    · rename_i nesting
      split at answer
      · rename_i closed
        cases answer
        exact .unmatchedParen lexical nesting closed
      · cases answer

/-- A token is refused in one of these ways. -/
theorem refuses_of_step
    (answer : checker.step token = (.rejected fault, next)) :
    checker.Refuses token fault := by
  cases kind : token.kind with
  | indent =>
      rw [step, kind] at answer
      exact refuses_of_indent kind answer
  | dedent =>
      rw [step, kind] at answer
      exact refuses_of_dedent kind answer
  | newline =>
      rw [step, kind] at answer
      exact refuses_of_newline kind answer
  | eof =>
      rw [step, kind] at answer
      exact refuses_of_eof kind answer
  | _ =>
      have lexical : token.kind.isLayout = false := by
        rw [kind]
        rfl
      rw [step_lexical lexical] at answer
      exact refuses_of_lexical lexical answer

end

end Checker

section

variable {checker next : Checker}
variable {token : Token}

/-- The checker does not go on behind the end of the input. -/
theorem Checker.Advances.kind_ne_eof
    {next : Checker}
    (advances : checker.Advances token next) :
    token.kind ≠ .eof := by
  cases advances with
  | indent kind _ =>
      rw [kind]
      exact nofun
  | dedent kind _ _ =>
      rw [kind]
      exact nofun
  | newline kind _ _ =>
      rw [kind]
      exact nofun
  | lexical kind _ _ =>
      exact TokenKind.ne_of_lexical kind rfl

/-- A rejection is the wording of the fault that a token is refused for. -/
theorem exists_fault_of_push
    {message : String}
    (answer : parser.push checker token = (.rejected message, next)) :
    ∃ fault, checker.Refuses token fault ∧ message = fault.message := by
  cases found : checker.step token with
  | mk status state =>
      cases status with
      | rejected fault =>
          refine ⟨fault, Checker.refuses_of_step found, ?_⟩
          simp only [parser, found, Status.mapReason, Prod.mk.injEq,
            Status.rejected.injEq] at answer
          exact answer.1.symm
      | _ =>
          simp [parser, found, Status.mapReason] at answer

end

end Blocks

end LayoutLexer
