import LayoutLexer.Blocks
import LayoutLexer.Proofs.LineTokens
import LayoutLexer.Proofs.Protocol

namespace LayoutLexer

/-!
# The block checker on groups of tokens

The checker goes on after a token in four ways and accepts the end of the input
in two. A stream brings its tokens in groups: the indents or dedents before a
line, its lexical tokens, its terminator, and the tokens that close the input.
For each group it is said when the checker takes it and what it remembers behind
it. Whatever the checker takes, its depth counts the open blocks.
-/

/-! ### Parentheses -/

/-- The number of opening parentheses among some tokens. -/
def openParens (tokens : List Token) : Nat :=
  countKind (.punctuation .openParen) tokens

/-- The number of closing parentheses among some tokens. -/
def closeParens (tokens : List Token) : Nat :=
  countKind (.punctuation .closeParen) tokens

theorem openParens_cons
    (token : Token)
    (rest : List Token) :
    openParens (token :: rest) = openParens [token] + openParens rest :=
  countKind_cons (.punctuation .openParen) token rest

theorem closeParens_cons
    (token : Token)
    (rest : List Token) :
    closeParens (token :: rest) = closeParens [token] + closeParens rest :=
  countKind_cons (.punctuation .closeParen) token rest

/-- A property of all prefixes, one element at a time. -/
theorem forall_prefix_cons
    {motive : List α → Prop}
    {first : α}
    {rest : List α} :
    (∀ earlier, earlier <+: first :: rest → motive earlier) ↔
      motive [] ∧ ∀ earlier, earlier <+: rest → motive (first :: earlier) := by
  constructor
  · intro all
    refine ⟨all [] List.nil_prefix, ?_⟩
    intro earlier early
    exact all (first :: earlier) (List.cons_prefix_cons.mpr ⟨rfl, early⟩)
  · rintro ⟨atStart, later⟩ earlier early
    rcases List.prefix_cons_iff.mp early with isEmpty | ⟨others, shape, early⟩
    · exact isEmpty ▸ atStart
    · exact shape ▸ later others early

namespace Blocks

namespace Checker

/-! ### Single tokens -/

/-- The checker between two lines. -/
def atLine (depth : Nat) (announced : Bool) (summary : Summary) : Checker where
  depth := depth
  parenDepth := 0
  lineTokens := 0
  lastKind := none
  expectIndent := announced
  summary := summary

/-- The checker in the block that the line before announced. -/
def enter (checker : Checker) : Checker :=
  { checker with
    depth := checker.depth + 1
    expectIndent := false
    summary := {
      checker.summary with
      maxDepth := max checker.summary.maxDepth (checker.depth + 1)
    } }

/-- The checker with some blocks closed. -/
def leave (checker : Checker) (count : Nat) : Checker :=
  { checker with depth := checker.depth - count }

/-- The checker behind some tokens of the current line. -/
def behind (checker : Checker) (tokens : List Token) : Checker :=
  { checker with
    parenDepth :=
      checker.parenDepth + openParens tokens - closeParens tokens
    lineTokens := checker.lineTokens + tokens.length
    lastKind := (tokens.getLast?.map Token.kind).or checker.lastKind }

/-- The checker behind the current line, whose parentheses are closed. -/
def nextLine (checker : Checker) : Checker :=
  atLine checker.depth checker.announcesBlock
    ⟨checker.summary.statements + 1, checker.summary.maxDepth⟩

/-- The ways in which the checker goes on after a token. -/
inductive Advances (checker : Checker) (token : Token) : Checker → Prop where
  | indent :
      token.kind = .indent →
      checker.expectIndent = true →
      Advances checker token checker.enter
  | dedent :
      token.kind = .dedent →
      checker.expectIndent = false →
      0 < checker.depth →
      Advances checker token (checker.leave 1)
  | newline :
      token.kind = .newline →
      0 < checker.lineTokens →
      checker.parenDepth = 0 →
      Advances checker token checker.nextLine
  | lexical :
      token.kind.isLayout = false →
      checker.expectIndent = false →
      closeParens [token] ≤ checker.parenDepth + openParens [token] →
      Advances checker token (checker.behind [token])

/-- The ways in which the checker accepts the end of the input. -/
inductive Accepts (checker : Checker) (token : Token) : Checker → Prop where
  | betweenLines :
      token.kind = .eof →
      checker.lineTokens = 0 →
      checker.expectIndent = false →
      checker.depth = 0 →
      Accepts checker token checker
  | inLine :
      token.kind = .eof →
      0 < checker.lineTokens →
      checker.parenDepth = 0 →
      checker.announcesBlock = false →
      checker.depth = 0 →
      Accepts checker token checker.nextLine

variable {checker : Checker}
variable {token : Token}
variable {rest : List Token}
variable {summary : Summary}

theorem step_lexical
    (lexical : token.kind.isLayout = false) :
    checker.step token = checker.lexical token.kind := by
  rw [step]
  split <;> simp_all [TokenKind.isLayout]

/-- Parentheses are the only tokens that change the nesting. -/
theorem nesting_cases
    (token : Token) :
    (token.kind.nesting = .opening ∧
        openParens [token] = 1 ∧ closeParens [token] = 0) ∨
      (token.kind.nesting = .closing ∧
        openParens [token] = 0 ∧ closeParens [token] = 1) ∨
      (token.kind.nesting = .neutral ∧
        openParens [token] = 0 ∧ closeParens [token] = 0) := by
  obtain ⟨kind, text, line, span⟩ := token
  cases kind with
  | punctuation mark =>
      cases mark with
      | openParen =>
          exact .inl ⟨rfl, rfl, rfl⟩
      | closeParen =>
          exact .inr (.inl ⟨rfl, rfl, rfl⟩)
      | _ =>
          exact .inr (.inr ⟨rfl, rfl, rfl⟩)
  | _ =>
      exact .inr (.inr ⟨rfl, rfl, rfl⟩)

theorem endLine_eq
    (checker : Checker)
    (line : Nat) :
    checker.endLine line =
      if checker.parenDepth = 0 then
        .ok checker.nextLine
      else
        .error (.unclosedParen line) := by
  by_cases closed : checker.parenDepth = 0
  · simp [endLine, closed, nextLine, atLine]
  · simp [endLine, closed, Nat.pos_of_ne_zero closed]

theorem append_eq_behind
    {parenDepth : Nat}
    (counts :
      parenDepth + closeParens [token] =
        checker.parenDepth + openParens [token]) :
    checker.append token.kind parenDepth = checker.behind [token] := by
  have depth :
      parenDepth =
        checker.parenDepth + openParens [token] - closeParens [token] :=
    Nat.eq_sub_of_add_eq counts
  simp [append, behind, depth]

/-- The checker goes on after a lexical token exactly in this way. -/
theorem lexical_eq_needMore_iff
    {next : Checker} :
    checker.lexical token.kind = (.needMore, next) ↔
      checker.expectIndent = false ∧
        closeParens [token] ≤ checker.parenDepth + openParens [token] ∧
        next = checker.behind [token] := by
  rw [Checker.lexical]
  cases checker.expectIndent with
  | true =>
      simp
  | false =>
      rcases nesting_cases token with
          ⟨nesting, opens, closes⟩ | ⟨nesting, opens, closes⟩ |
          ⟨nesting, opens, closes⟩
      · have same :
            checker.append token.kind (checker.parenDepth + 1) =
              checker.behind [token] :=
          append_eq_behind (by omega)
        simp [nesting, opens, closes, same, eq_comm]
      · cases depth : checker.parenDepth with
        | zero =>
            simp [nesting, opens, closes]
        | succ parenDepth =>
            have same :
                checker.append token.kind parenDepth =
                  checker.behind [token] :=
              append_eq_behind (by omega)
            simp [nesting, opens, closes, same, eq_comm]
      · have same :
            checker.append token.kind checker.parenDepth =
              checker.behind [token] :=
          append_eq_behind (by omega)
        simp [nesting, opens, closes, same, eq_comm]

theorem indent_eq_needMore_iff
    {next : Checker} :
    checker.indent = (.needMore, next) ↔
      checker.expectIndent = true ∧ next = checker.enter := by
  rw [Checker.indent]
  cases checker.expectIndent <;> simp [enter, eq_comm]

theorem dedent_eq_needMore_iff
    {next : Checker} :
    checker.dedent = (.needMore, next) ↔
      checker.expectIndent = false ∧
        0 < checker.depth ∧
        next = checker.leave 1 := by
  rw [Checker.dedent]
  cases announced : checker.expectIndent with
  | true =>
      simp
  | false =>
      cases depth : checker.depth with
      | zero =>
          simp
      | succ outer =>
          simp [leave, depth, announced, eq_comm]

theorem newline_eq_needMore_iff
    {line : Nat}
    {next : Checker} :
    checker.newline line = (.needMore, next) ↔
      0 < checker.lineTokens ∧
        checker.parenDepth = 0 ∧
        next = checker.nextLine := by
  rw [Checker.newline, endLine_eq]
  by_cases empty : checker.lineTokens = 0
  · simp [empty]
  · by_cases closed : checker.parenDepth = 0
    · simp [empty, Nat.pos_of_ne_zero empty, closed, eq_comm]
    · simp [empty, closed]

theorem conclude_eq_accepted_iff
    {final : Checker} :
    checker.conclude = (.accepted, final) ↔
      checker.expectIndent = false ∧
        checker.depth = 0 ∧
        final = checker := by
  rw [conclude]
  cases checker.expectIndent with
  | true =>
      simp
  | false =>
      by_cases inside : 0 < checker.depth
      · simp [inside, Nat.ne_of_gt inside]
      · simp [Nat.eq_zero_of_not_pos inside, eq_comm]

theorem conclude_ne_needMore
    (checker next : Checker) :
    checker.conclude ≠ (.needMore, next) := by
  rw [conclude]
  split
  · exact nofun
  · split <;> exact nofun

theorem eof_ne_needMore
    (checker next : Checker)
    (line : Nat) :
    checker.eof line ≠ (.needMore, next) := by
  rw [Checker.eof, endLine_eq]
  by_cases closed : checker.parenDepth = 0
  · simp only [closed, ↓reduceIte]
    split
    · exact conclude_ne_needMore _ next
    · exact conclude_ne_needMore _ next
  · simp only [closed, ↓reduceIte]
    split
    · exact nofun
    · exact conclude_ne_needMore _ next

/-- What goes on after a token is told by its kind. -/
theorem step_eq_needMore_iff
    {next : Checker} :
    checker.step token = (.needMore, next) ↔ checker.Advances token next := by
  constructor
  · intro taken
    rw [step] at taken
    split at taken
    · rename_i kind
      obtain ⟨announced, same⟩ := indent_eq_needMore_iff.mp taken
      exact same ▸ .indent kind announced
    · rename_i kind
      obtain ⟨noBlock, inside, same⟩ := dedent_eq_needMore_iff.mp taken
      exact same ▸ .dedent kind noBlock inside
    · rename_i kind
      obtain ⟨present, closed, same⟩ := newline_eq_needMore_iff.mp taken
      exact same ▸ .newline kind present closed
    · exact absurd taken (eof_ne_needMore checker next token.line)
    · rename_i noIndent noDedent noNewline noEof
      obtain ⟨noBlock, closes, same⟩ := lexical_eq_needMore_iff.mp taken
      have lexical : token.kind.isLayout = false := by
        cases kind : token.kind <;> simp_all [TokenKind.isLayout]
      exact same ▸ .lexical lexical noBlock closes
  · intro advances
    cases advances with
    | indent kind announced =>
        rw [step, kind]
        exact indent_eq_needMore_iff.mpr ⟨announced, rfl⟩
    | dedent kind noBlock inside =>
        rw [step, kind]
        exact dedent_eq_needMore_iff.mpr ⟨noBlock, inside, rfl⟩
    | newline kind present closed =>
        rw [step, kind]
        exact newline_eq_needMore_iff.mpr ⟨present, closed, rfl⟩
    | lexical kind noBlock closes =>
        rw [step_lexical kind]
        exact lexical_eq_needMore_iff.mpr ⟨noBlock, closes, rfl⟩

theorem eof_eq_accepted_iff
    {line : Nat}
    {final : Checker} :
    checker.eof line = (.accepted, final) ↔
      (checker.lineTokens = 0 ∧
        checker.expectIndent = false ∧
        checker.depth = 0 ∧
        final = checker) ∨
      (0 < checker.lineTokens ∧
        checker.parenDepth = 0 ∧
        checker.announcesBlock = false ∧
        checker.depth = 0 ∧
        final = checker.nextLine) := by
  rw [Checker.eof, endLine_eq]
  by_cases empty : checker.lineTokens = 0
  · simp [empty, conclude_eq_accepted_iff]
  · by_cases closed : checker.parenDepth = 0
    · simp [empty, Nat.pos_of_ne_zero empty, closed, conclude_eq_accepted_iff,
        nextLine, atLine]
    · simp [empty, Nat.pos_of_ne_zero empty, closed]

/-- Only the end of the input can be accepted. -/
theorem step_eq_accepted_iff
    {final : Checker} :
    checker.step token = (.accepted, final) ↔ checker.Accepts token final := by
  constructor
  · intro accepted
    rw [step] at accepted
    split at accepted
    · rw [Checker.indent] at accepted
      split at accepted <;> cases accepted
    · rw [Checker.dedent] at accepted
      split at accepted
      · cases accepted
      · split at accepted <;> cases accepted
    · rw [Checker.newline] at accepted
      split at accepted
      · cases accepted
      · split at accepted <;> cases accepted
    · rename_i kind
      rcases eof_eq_accepted_iff.mp accepted with
          ⟨empty, noBlock, outside, same⟩ |
          ⟨present, closed, noneAnnounced, outside, same⟩
      · rw [same]
        exact .betweenLines kind empty noBlock outside
      · rw [same]
        exact .inLine kind present closed noneAnnounced outside
    · rw [Checker.lexical] at accepted
      split at accepted
      · cases accepted
      · split at accepted
        · cases accepted
        · cases accepted
        · split at accepted <;> cases accepted
  · intro accepts
    cases accepts with
    | betweenLines kind empty noBlock outside =>
        rw [step, kind]
        exact eof_eq_accepted_iff.mpr (.inl ⟨empty, noBlock, outside, rfl⟩)
    | inLine kind present closed noneAnnounced outside =>
        rw [step, kind]
        exact eof_eq_accepted_iff.mpr
          (.inr ⟨present, closed, noneAnnounced, outside, rfl⟩)

theorem Accepts.kind_eq
    {final : Checker}
    (accepts : checker.Accepts token final) :
    token.kind = .eof := by
  cases accepts <;> assumption

end Checker

/-- The checker gives a summary when it goes on to it or accepts. -/
theorem output?_cons_iff
    {checker : Checker}
    {token : Token}
    {rest : List Token}
    {summary : Summary} :
    parser.output? checker (token :: rest) = some summary ↔
      (∃ next, checker.Advances token next ∧
        parser.output? next rest = some summary) ∨
      (∃ final, checker.Accepts token final ∧ final.summary = summary) := by
  rw [Parser.output?]
  simp only [← Checker.step_eq_needMore_iff, ← Checker.step_eq_accepted_iff]
  cases answer : checker.step token with
  | mk status next =>
      cases status with
      | needMore =>
          simp [parser, answer, Status.mapReason]
      | accepted =>
          have last := (Checker.step_eq_accepted_iff.mp answer).kind_eq
          simp [parser, answer, Status.mapReason, last]
      | rejected fault =>
          simp [parser, answer, Status.mapReason]

section

variable {checker : Checker}
variable {token : Token}
variable {rest : List Token}
variable {summary : Summary}

/-- Before the end of the input the checker can only go on. -/
theorem output?_cons_of_ne_eof
    (notLast : token.kind ≠ .eof) :
    parser.output? checker (token :: rest) = some summary ↔
      ∃ next, checker.step token = (.needMore, next) ∧
        parser.output? next rest = some summary := by
  simp only [output?_cons_iff, Checker.step_eq_needMore_iff]
  constructor
  · rintro (goesOn | ⟨final, accepts, _⟩)
    · exact goesOn
    · exact absurd accepts.kind_eq notLast
  · exact .inl

/-! ### Lexical tokens -/

theorem output?_lexical_cons
    (lexical : token.kind.isLayout = false) :
    parser.output? checker (token :: rest) = some summary ↔
      checker.expectIndent = false ∧
        closeParens [token] ≤ checker.parenDepth + openParens [token] ∧
        parser.output? (checker.behind [token]) rest = some summary := by
  have notLast : token.kind ≠ .eof :=
    TokenKind.ne_of_lexical lexical rfl
  rw [output?_cons_of_ne_eof notLast, Checker.step_lexical lexical]
  simp only [Checker.lexical_eq_needMore_iff]
  constructor
  · rintro ⟨next, ⟨noBlock, closes, same⟩, remaining⟩
    exact ⟨noBlock, closes, same ▸ remaining⟩
  · rintro ⟨noBlock, closes, remaining⟩
    exact ⟨_, ⟨noBlock, closes, rfl⟩, remaining⟩

theorem Checker.behind_cons
    (checker : Checker)
    (token : Token)
    (tokens : List Token)
    (closes : closeParens [token] ≤ checker.parenDepth + openParens [token]) :
    (checker.behind [token]).behind tokens =
      checker.behind (token :: tokens) := by
  have depths :
      checker.parenDepth + openParens [token] - closeParens [token] +
            openParens tokens - closeParens tokens =
        checker.parenDepth + openParens (token :: tokens) -
          closeParens (token :: tokens) := by
    rw [openParens_cons token tokens, closeParens_cons token tokens]
    omega
  simp only [behind, depths, List.length_cons, List.length_nil,
    Checker.mk.injEq, true_and, and_true]
  refine ⟨by omega, ?_⟩
  cases tokens with
  | nil =>
      simp
  | cons next others =>
      rw [List.getLast?_cons_cons,
        List.getLast?_eq_some_getLast (List.cons_ne_nil next others)]
      rfl

/-- Lexical tokens are taken when no parenthesis closes too much. -/
theorem output?_lexical_append
    {tokens : List Token}
    (lexical : ∀ token ∈ tokens, token.kind.isLayout = false) :
    parser.output? checker (tokens ++ rest) = some summary ↔
      (tokens ≠ [] → checker.expectIndent = false) ∧
        (∀ earlier, earlier <+: tokens →
          closeParens earlier ≤ checker.parenDepth + openParens earlier) ∧
        parser.output? (checker.behind tokens) rest = some summary := by
  -- The nesting reached behind a token is part of the state, so the bound on
  -- the prefixes behind it starts there.
  induction tokens generalizing checker with
  | nil =>
      have unchanged : checker.behind [] = checker := by
        simp [Checker.behind, openParens, closeParens, countKind]
      simp [unchanged, openParens, closeParens, countKind]
  | cons token tokens inductionHypothesis =>
      obtain ⟨first, others⟩ := List.forall_mem_cons.mp lexical
      rw [List.cons_append, output?_lexical_cons first,
        inductionHypothesis others, forall_prefix_cons]
      constructor
      · rintro ⟨noBlock, closes, _, balanced, remaining⟩
        rw [checker.behind_cons token tokens closes] at remaining
        refine ⟨fun _ => noBlock, ⟨Nat.zero_le _, ?_⟩, remaining⟩
        intro earlier early
        have soFar := balanced earlier early
        simp only [Checker.behind] at soFar
        rw [openParens_cons token earlier, closeParens_cons token earlier]
        omega
      · rintro ⟨noBlock, ⟨_, balanced⟩, remaining⟩
        have closes := balanced [] List.nil_prefix
        refine ⟨noBlock (List.cons_ne_nil token tokens), closes,
          fun _ => noBlock (List.cons_ne_nil token tokens), ?_, ?_⟩
        · intro earlier early
          have soFar := balanced earlier early
          rw [openParens_cons token earlier,
            closeParens_cons token earlier] at soFar
          simp only [Checker.behind]
          omega
        · rw [checker.behind_cons token tokens closes]
          exact remaining

/-! ### Indents and dedents -/

/-- An indent is taken when the line before announced it. -/
theorem output?_indent
    (indent : token.kind = .indent) :
    parser.output? checker (token :: rest) = some summary ↔
      checker.expectIndent = true ∧
        parser.output? checker.enter rest = some summary := by
  rw [output?_cons_of_ne_eof (by simp [indent]), Checker.step, indent]
  simp [Checker.indent_eq_needMore_iff, and_assoc]

theorem Checker.leave_leave
    (checker : Checker)
    (first second : Nat) :
    (checker.leave first).leave second = checker.leave (first + second) := by
  simp [leave, Nat.sub_sub]

/-- Dedents are taken when no block is missing and enough are open. -/
theorem output?_dedents
    {count : Nat}
    (dedent : token.kind = .dedent)
    (within : count ≤ checker.depth) :
    parser.output? checker (List.replicate count token ++ rest) =
        some summary ↔
      (0 < count → checker.expectIndent = false) ∧
        parser.output? (checker.leave count) rest = some summary := by
  induction count generalizing checker with
  | zero =>
      simp [Checker.leave]
  | succ count inductionHypothesis =>
      have fewer : count ≤ (checker.leave 1).depth :=
        Nat.le_sub_one_of_lt within
      rw [List.replicate_succ, List.cons_append,
        output?_cons_of_ne_eof (by simp [dedent]), Checker.step, dedent]
      simp only [Checker.dedent_eq_needMore_iff, and_assoc]
      constructor
      · rintro ⟨next, noBlock, _, same, remaining⟩
        rw [same, inductionHypothesis fewer, Checker.leave_leave,
          Nat.add_comm 1 count] at remaining
        exact ⟨fun _ => noBlock, remaining.2⟩
      · rintro ⟨noBlock, remaining⟩
        have noneMissing := noBlock (Nat.succ_pos count)
        refine ⟨checker.leave 1, noneMissing, Nat.zero_lt_of_lt within, rfl, ?_⟩
        rw [inductionHypothesis fewer, Checker.leave_leave, Nat.add_comm 1 count]
        exact ⟨fun _ => noneMissing, remaining⟩

/-! ### Line ends -/

/-- A line ends when its parentheses are closed. -/
theorem output?_newline
    (newline : token.kind = .newline)
    (present : 0 < checker.lineTokens) :
    parser.output? checker (token :: rest) = some summary ↔
      checker.parenDepth = 0 ∧
        parser.output? checker.nextLine rest = some summary := by
  rw [output?_cons_of_ne_eof (by simp [newline]), Checker.step, newline]
  simp [Checker.newline_eq_needMore_iff, and_assoc, present]

/-- A last token has to be accepted. -/
theorem output?_singleton :
    parser.output? checker [token] = some summary ↔
      ∃ final, checker.Accepts token final ∧ final.summary = summary := by
  rw [output?_cons_iff]
  constructor
  · rintro (⟨next, _, ended⟩ | accepted)
    · cases ended
    · exact accepted
  · exact .inr

section

variable {source : String}
variable {indentation : Indentation}

/-- Between two lines the input may end when no block is missing. -/
theorem output?_closingTokens
    {announced : Bool}
    {counted : Summary} :
    parser.output? (.atLine indentation.depth announced counted)
        (closingTokens source indentation) = some summary ↔
      announced = false ∧ counted = summary := by
  rw [closingTokens, output?_dedents rfl (Nat.le_refl indentation.depth),
    output?_singleton]
  constructor
  · rintro ⟨_, final, accepts, same⟩
    cases accepts with
    | betweenLines _ _ noBlock _ =>
        exact ⟨noBlock, same⟩
    | inLine _ present _ _ _ =>
        exact absurd present (Nat.lt_irrefl 0)
  · rintro ⟨noBlock, same⟩
    exact ⟨fun _ => noBlock, _,
      .betweenLines rfl rfl noBlock (Nat.sub_self indentation.depth), same⟩

/--
An unterminated line ends behind the dedents that close the input. It is judged
as if it had ended before them.
-/
theorem output?_closingTokens_of_present
    (sameDepth : checker.depth = indentation.depth)
    (noBlock : checker.expectIndent = false)
    (present : 0 < checker.lineTokens) :
    parser.output? checker (closingTokens source indentation) = some summary ↔
      checker.parenDepth = 0 ∧
        parser.output? checker.nextLine (closingTokens source indentation) =
          some summary := by
  rw [Checker.nextLine, sameDepth, output?_closingTokens, closingTokens,
    output?_dedents rfl (Nat.le_of_eq sameDepth.symm), output?_singleton]
  constructor
  · rintro ⟨_, final, accepts, same⟩
    cases accepts with
    | betweenLines _ empty _ _ =>
        exact absurd empty (Nat.ne_of_gt present)
    | inLine _ _ closed noneAnnounced _ =>
        exact ⟨closed, noneAnnounced, same⟩
  · rintro ⟨closed, noneAnnounced, same⟩
    have outside : (checker.leave indentation.depth).depth = 0 :=
      Nat.sub_eq_zero_of_le (Nat.le_of_eq sameDepth)
    exact ⟨fun _ => noBlock, _,
      .inLine rfl present closed noneAnnounced outside, same⟩

end

/-! ### Depth -/

/-- A token opens or closes the blocks that it should. -/
theorem Checker.Advances.depth_eq
    {next : Checker}
    (advances : checker.Advances token next)
    (bounded : checker.depth ≤ checker.summary.maxDepth) :
    next.depth + countKind .dedent [token] = checker.depth + countKind .indent [token] ∧
      next.summary.maxDepth = max checker.summary.maxDepth next.depth := by
  cases advances with
  | indent kind _ =>
      simp [enter, countKind, kind]
  | dedent kind _ inside =>
      have closes : checker.depth - 1 + 1 = checker.depth :=
        Nat.sub_add_cancel inside
      have outer : checker.depth - 1 ≤ checker.summary.maxDepth :=
        Nat.le_trans (Nat.sub_le checker.depth 1) bounded
      simp [leave, countKind, kind, closes, outer]
  | newline kind _ _ =>
      simp [nextLine, atLine, countKind, kind, bounded]
  | lexical kind _ _ =>
      have noIndent : token.kind ≠ .indent :=
        TokenKind.ne_of_lexical kind rfl
      have noDedent : token.kind ≠ .dedent :=
        TokenKind.ne_of_lexical kind rfl
      simp [behind, countKind, noIndent, noDedent, bounded]

theorem Checker.Accepts.maxDepth_eq
    {final : Checker}
    (accepts : checker.Accepts token final) :
    final.summary.maxDepth = checker.summary.maxDepth := by
  cases accepts <;> rfl

/--
The deepest nesting is reached behind some of the tokens, unless it was reached
before them, and is exceeded behind none.
-/
theorem maxDepth_of_output?
    {before : List Token}
    {eof : Token}
    (last : eof.kind = .eof)
    (notLast : ∀ token ∈ before, token.kind ≠ .eof)
    (bounded : checker.depth ≤ checker.summary.maxDepth)
    (found : parser.output? checker (before ++ [eof]) = some summary) :
    checker.summary.maxDepth ≤ summary.maxDepth ∧
    (∀ earlier, earlier <+: before ++ [eof] →
      checker.depth + countKind .indent earlier ≤ summary.maxDepth + countKind .dedent earlier) ∧
    (summary.maxDepth = checker.summary.maxDepth ∨
      ∃ earlier, earlier <+: before ++ [eof] ∧
        checker.depth + countKind .indent earlier =
          summary.maxDepth + countKind .dedent earlier) := by
  -- The maximum in the state belongs to earlier tokens; a later one replaces it
  -- only when it is greater.
  induction before generalizing checker with
  | nil =>
      obtain ⟨final, accepts, same⟩ := output?_singleton.mp found
      have kept : summary.maxDepth = checker.summary.maxDepth :=
        same ▸ accepts.maxDepth_eq
      refine ⟨Nat.le_of_eq kept.symm, ?_, .inl kept⟩
      simp only [List.nil_append, forall_prefix_cons, List.prefix_nil,
        forall_eq]
      simp [countKind, last, kept, bounded]
  | cons token before inductionHypothesis =>
      obtain ⟨first, others⟩ := List.forall_mem_cons.mp notLast
      obtain ⟨next, taken, remaining⟩ :=
        (output?_cons_of_ne_eof first).mp found
      obtain ⟨depths, maximum⟩ :=
        (Checker.step_eq_needMore_iff.mp taken).depth_eq bounded
      have nextBounded : next.depth ≤ next.summary.maxDepth :=
        maximum ▸ Nat.le_max_right checker.summary.maxDepth next.depth
      obtain ⟨grows, bounds, reached⟩ :=
        inductionHypothesis others nextBounded remaining
      refine ⟨by omega, ?_, ?_⟩
      · rw [List.cons_append, forall_prefix_cons]
        refine ⟨by simp only [countKind, List.countP_nil]; omega, ?_⟩
        intro earlier early
        have bound := bounds earlier early
        rw [countKind_cons .indent token earlier,
          countKind_cons .dedent token earlier]
        omega
      · rcases reached with asBefore | ⟨earlier, early, exactly⟩
        · rcases Nat.le_total next.depth checker.summary.maxDepth with
              lower | higher
          · rw [Nat.max_eq_left lower] at maximum
            exact .inl (asBefore.trans maximum)
          · rw [Nat.max_eq_right higher] at maximum
            refine .inr ⟨[token], by simp, ?_⟩
            rw [asBefore, maximum, depths]
        · refine .inr ⟨token :: earlier,
            List.cons_prefix_cons.mpr ⟨rfl, early⟩, ?_⟩
          rw [countKind_cons .indent token earlier,
          countKind_cons .dedent token earlier]
          omega

end

end Blocks

end LayoutLexer
