import LayoutLexer.Proofs.IndentEncoding
import LayoutLexer.Proofs.Positions
import LayoutLexer.Proofs.Pushes
import LayoutLexer.Proofs.Refusals

namespace LayoutLexer

/-!
# The checker behind the lexer

The lexer and the block checker count open blocks each for itself: one by the
widths of lines, the other by the indents and dedents it is pushed. Behind the
lexer the two never differ, so the checker has no dedent to refuse and no block
left open at the end. Nor does it meet an empty statement, because a line end
stands behind the tokens of its line. The same holds of the end of the input when
the last line has no terminator, although dedents come between, so an open
parenthesis is always reported for the line that holds it.

The ways to refuse a token are gathered in `Blocks.Checker.Refuses`. Some of them
are ruled out by the stream of a source (`Blocks.isLive_of_refuses`), whatever
the source.
-/

/-! ### Wordings -/

theorem exists_digit_toString
    (count : Nat) :
    ∃ c rest, c.isDigit = true ∧ (toString count).toList = c :: rest := by
  rw [Nat.toString_eq_ofList_toDigits, String.toList_ofList]
  cases digits : Nat.toDigits 10 count with
  | nil =>
      exact absurd digits Nat.toDigits_ne_nil
  | cons c rest =>
      have member : c ∈ Nat.toDigits 10 count := by
        rw [digits]
        exact List.mem_cons_self
      exact ⟨c, rest,
        Nat.isDigit_of_mem_toDigits (by decide) (Nat.le_refl 10) member, rfl⟩

theorem toString_injective : Function.Injective (toString : Nat → String) := by
  intro first second same
  rw [Nat.toString_eq_ofList_toDigits, Nat.toString_eq_ofList_toDigits,
    String.ofList_inj] at same
  have read := congrArg (Nat.ofDigitChars 10 · 0) same
  simpa only [Nat.ofDigitChars_ten_toDigits] using read

namespace Blocks

namespace Fault

/-- Whether a fault can be found in the tokens of a source. -/
def isLive : Fault → Bool
  | .unopenedBlock | .emptyStatement | .unclosedBlocks _ => false
  | _ => true

/-- The letters by which live faults are told apart. -/
def opening : Fault → List Char
  | .unexpectedIndent => ['u', 'n', 'e']
  | .missingBlock | .missingBlockBefore _ => ['e', 'x', 'p']
  | .unmatchedParen => ['u', 'n', 'm']
  | .unclosedParen _ => ['u', 'n', 'c']
  | _ => []

section

variable {fault : Fault}

theorem take_message
    (live : fault.isLive = true) :
    fault.message.toList.take 3 = fault.opening := by
  cases fault with
  | missingBlockBefore kind =>
      have wording :
          (missingBlockBefore kind).message =
            "expected an indented block after ':', found " ++ kind.name :=
        rfl
      rw [wording, String.toList_append, List.take_append_of_le_length (by decide)]
      rfl
  | unclosedParen line =>
      have wording :
          (unclosedParen line).message =
            "unclosed '(' at end of line " ++ toString line :=
        rfl
      rw [wording, String.toList_append, List.take_append_of_le_length (by decide)]
      rfl
  | unexpectedIndent =>
      decide
  | missingBlock =>
      decide
  | unmatchedParen =>
      decide
  | _ =>
      cases live

/-- No live fault is worded like one that is not. -/
theorem message_ne_of_isLive
    (live : fault.isLive = true) :
    fault.message ≠ "dedent without an open block" ∧
      fault.message ≠ "empty statement" ∧
      ∀ count : Nat,
        fault.message ≠
          toString count ++ " block(s) still open at end of input" := by
  have begins := take_message live
  have letters :
      fault.opening ∈
        [['u', 'n', 'e'], ['e', 'x', 'p'], ['u', 'n', 'm'], ['u', 'n', 'c']] := by
    cases fault with
    | unopenedBlock =>
        cases live
    | emptyStatement =>
        cases live
    | unclosedBlocks count =>
        cases live
    | _ =>
        simp [opening]
  rw [← begins] at letters
  refine ⟨?_, ?_, ?_⟩
  · intro same
    rw [same] at letters
    exact absurd letters (by decide)
  · intro same
    rw [same] at letters
    exact absurd letters (by decide)
  · intro count same
    obtain ⟨c, rest, isDigit, digits⟩ := exists_digit_toString count
    rw [same, String.toList_append, digits, List.cons_append,
      List.take_succ_cons] at letters
    have isLetter : c = 'u' ∨ c = 'e' := by
      simp only [List.mem_cons, List.cons.injEq, List.not_mem_nil, or_false]
        at letters
      tauto
    rcases isLetter with isU | isE
    · rw [isU] at isDigit
      exact absurd isDigit (by decide)
    · rw [isE] at isDigit
      exact absurd isDigit (by decide)

/-- Only an open parenthesis is worded with the line of its end. -/
theorem eq_unclosedParen_of_message_eq
    {number : Nat}
    (live : fault.isLive = true)
    (same : fault.message = "unclosed '(' at end of line " ++ toString number) :
    fault = .unclosedParen number := by
  have begins := take_message live
  have letters :
      "unclosed '(' at end of line ".toList.take 3 = ['u', 'n', 'c'] := by
    decide
  rw [same, String.toList_append, List.take_append_of_le_length (by decide),
    letters] at begins
  cases fault with
  | unclosedParen line =>
      have wording :
          (unclosedParen line).message =
            "unclosed '(' at end of line " ++ toString line :=
        rfl
      rw [wording, String.append_right_inj] at same
      rw [toString_injective same]
  | _ =>
      simp [opening] at begins

end

end Fault

end Blocks

/-! ### Line ends in a stream -/

section

variable {first second before after : List Token}
variable {token : Token}

/-- A token that is not in the first part of a list stands in the second. -/
theorem exists_between_of_append
    (shape : first ++ second = before ++ token :: after)
    (absent : token ∉ first) :
    ∃ between,
      before = first ++ between ∧ second = between ++ token :: after := by
  rcases List.append_eq_append_iff.mp shape with
    ⟨between, isBefore, isSecond⟩ | ⟨between, isFirst, isAfter⟩
  · exact ⟨between, isBefore, isSecond⟩
  · cases between with
    | nil =>
        exact ⟨[], by simpa using isFirst.symm, isAfter.symm⟩
    | cons other between =>
        obtain ⟨isToken, _⟩ := List.cons.inj isAfter
        apply absurd _ absent
        rw [isFirst, isToken]
        simp

/-- The lexical tokens between indents and dedents form one segment. -/
theorem openSegment_of_lexical
    {tokens : List Token}
    (lexical : ∀ token ∈ tokens, token.kind.isLayout = false)
    (marksBefore : ∀ token ∈ first, token.marksBlock = true)
    (marksBehind : ∀ token ∈ second, token.marksBlock = true) :
    openSegment (first ++ (tokens ++ second)) = tokens := by
  have kept : (first ++ (tokens ++ second)).filter (!·.marksBlock) = tokens := by
    have noneBefore : first.filter (!·.marksBlock) = [] := by
      simpa using marksBefore
    have noneBehind : second.filter (!·.marksBlock) = [] := by
      simpa using marksBehind
    have all : tokens.filter (!·.marksBlock) = tokens := by
      rw [List.filter_eq_self]
      intro token member
      simp [marksBlock_of_lexical (lexical token member)]
    rw [List.filter_append, List.filter_append, noneBefore, all, noneBehind,
      List.nil_append, List.append_nil]
  have noNewline : ∀ token ∈ tokens, ¬ (token.kind = .newline) := by
    intro token member
    exact TokenKind.ne_of_lexical (lexical token member) rfl
  rw [openSegment, segments, kept, List.splitOnP_eq_singleton (by simpa using noNewline)]
  rfl

theorem openSegment_behind_newline
    {newline : Token}
    (isNewline : newline.kind = .newline) :
    openSegment (first ++ newline :: second) = openSegment second := by
  have present : segments second ≠ [] := List.splitOnP_ne_nil _ _
  rw [openSegment, openSegment, segments_append_newline isNewline,
    List.getLastD_eq_getLast?, List.getLastD_eq_getLast?,
    List.getLast?_append_of_ne_nil _ present]

end

/-- The tokens of a line are open where a line end of its number stands. -/
structure Line.OpenBefore (line : Line) (before : List Token) (token : Token) : Prop where
  sameLine : token.line = line.number
  segment : openSegment before = line.lexed.tokens
  present : line.lexed.tokens ≠ []

section

variable {source : String}
variable {before after : List Token}
variable {token : Token}

theorem marksBlock_of_mem_layout
    {line : Line}
    {change : IndentChange}
    (member : token ∈ pushedBy (line.layout change)) :
    token.marksBlock = true := by
  simpa [Token.marksBlock] using Line.kind_of_mem_layout member

/-- The end of the input stands behind the dedents that close the blocks. -/
theorem eq_of_closingTokens
    {indentation : Indentation}
    (shape : closingTokens source indentation = before ++ token :: after)
    (noDedent : token.kind ≠ .dedent) :
    (∀ dedent ∈ before, dedent.marksBlock = true) ∧
      token = (sourceEnd source).token .eof 0 := by
  have absent :
      token ∉ List.replicate indentation.depth
        ((sourceEnd source).token .dedent 0) := by
    intro member
    exact noDedent (congrArg Token.kind (List.eq_of_mem_replicate member))
  obtain ⟨between, isBefore, isEof⟩ := exists_between_of_append shape absent
  cases between with
  | nil =>
      refine ⟨?_, (List.cons.inj isEof).1.symm⟩
      intro dedent member
      rw [isBefore, List.append_nil] at member
      rw [List.eq_of_mem_replicate member]
      rfl
  | cons other between =>
      simp at isEof

section

variable {line : Line}
variable {change : IndentChange}
variable {tokens behind : List Token}

theorem not_mem_of_endsLine
    (ends : token.kind = .newline ∨ token.kind = .eof) :
    token ∉ pushedBy (line.layout change) ∧ token ∉ line.lexed.tokens := by
  constructor
  · intro member
    rcases Line.kind_of_mem_layout member with kind | kind
    · rw [kind] at ends
      rcases ends with isEnd | isEnd <;> cases isEnd
    · rw [kind] at ends
      rcases ends with isEnd | isEnd <;> cases isEnd
  · intro member
    have lexical := isLayout_of_mem_lexemes member
    rcases ends with isEnd | isEnd
    · exact TokenKind.ne_of_lexical lexical rfl isEnd
    · exact TokenKind.ne_of_lexical lexical rfl isEnd

/-- Behind its layout and before marks only, the tokens of a line are open. -/
theorem Line.openSegment_eq
    (line : Line)
    (change : IndentChange)
    (marks : ∀ token ∈ behind, token.marksBlock = true) :
    openSegment (pushedBy (line.layout change) ++ (line.lexed.tokens ++ behind)) =
      line.lexed.tokens :=
  openSegment_of_lexical (fun _ member => isLayout_of_mem_lexemes member)
    (fun _ member => marksBlock_of_mem_layout member) marks

/-- A last line without a terminator is open at the end of the input. -/
theorem Line.openBefore_of_unterminated
    {indentation : Indentation}
    (stands : line.StandsIn source)
    (present : line.lexed.tokens ≠ [])
    (unterminated : line.terminator = [])
    (shape : closingTokens source indentation = behind ++ token :: after)
    (noDedent : token.kind ≠ .dedent) :
    line.OpenBefore
      (pushedBy (line.layout change) ++ (line.lexed.tokens ++ behind)) token := by
  obtain ⟨marks, isEof⟩ := eq_of_closingTokens shape noDedent
  refine ⟨?_, line.openSegment_eq change marks, present⟩
  rw [isEof, stands.number_eq unterminated]
  rfl

theorem Line.OpenBefore.of_openSegment_eq
    {later : List Token}
    (opened : line.OpenBefore later token)
    (same : openSegment before = openSegment later) :
    line.OpenBefore before token :=
  ⟨opened.sameLine, same.trans opened.segment, opened.present⟩

end

/--
A line end stands behind the tokens of its line. So does the end of the input if
the last line has no terminator; otherwise no token is open there.
-/
theorem openBefore_of_streamFrom
    {lines : List Line}
    {indentation : Indentation}
    (standing : ∀ line ∈ lines, line.StandsIn source)
    (logical : ∀ line ∈ lines, line.isLogical = true)
    (terminated : lines.Pairwise fun line _ => line.terminator ≠ [])
    (shape : streamFrom source lines indentation = before ++ token :: after)
    (ends : token.kind = .newline ∨ token.kind = .eof) :
    (token.kind = .eof ∧ openSegment before = []) ∨
      ∃ line ∈ lines, line.OpenBefore before token := by
  have noDedent : token.kind ≠ .dedent := by
    rcases ends with kind | kind <;> simp [kind]
  induction lines generalizing before indentation with
  | nil =>
      obtain ⟨marks, isEof⟩ := eq_of_closingTokens shape noDedent
      have nothingOpen : openSegment ([] ++ ([] ++ before)) = [] :=
        openSegment_of_lexical (List.forall_mem_nil _) (List.forall_mem_nil _) marks
      exact .inl ⟨by rw [isEof]; rfl, nothingOpen⟩
  | cons line others inductionHypothesis =>
      obtain ⟨stands, standingOthers⟩ := List.forall_mem_cons.mp standing
      obtain ⟨isLogical, logicalOthers⟩ := List.forall_mem_cons.mp logical
      obtain ⟨endsBefore, terminatedOthers⟩ := List.pairwise_cons.mp terminated
      rw [streamFrom] at shape
      split at shape
      · simp at shape
      · rename_i change resolved found
        obtain ⟨notInLayout, notLexical⟩ :
            token ∉ pushedBy (line.layout change) ∧ token ∉ line.lexed.tokens :=
          not_mem_of_endsLine ends
        obtain ⟨_, rfl, lexedShape⟩ := exists_between_of_append shape notInLayout
        obtain ⟨behind, rfl, endShape⟩ :=
          exists_between_of_append lexedShape notLexical
        split at endShape
        · simp at endShape
        · rename_i noError
          have present := Line.lexed_tokens_ne_nil isLogical noError
          by_cases unterminated : line.terminator = []
          · rw [Line.newline, unterminated,
              streamFrom_of_unterminated source resolved endsBefore
                unterminated] at endShape
            exact .inr ⟨line, List.mem_cons_self,
              Line.openBefore_of_unterminated stands present unterminated
                endShape noDedent⟩
          · rw [Line.newline_of_terminated unterminated] at endShape
            cases behind with
            | nil =>
                have isNewline := (List.cons.inj endShape).1
                refine .inr ⟨line, List.mem_cons_self, ?_⟩
                exact ⟨by rw [← isNewline]; rfl,
                  line.openSegment_eq change (List.forall_mem_nil _), present⟩
            | cons newline behind =>
                obtain ⟨isNewline, later⟩ := List.cons.inj endShape
                have same :
                    openSegment (pushedBy (line.layout change) ++
                        (line.lexed.tokens ++ newline :: behind)) =
                      openSegment behind := by
                  rw [← List.append_assoc]
                  exact openSegment_behind_newline (by rw [← isNewline]; rfl)
                rcases inductionHypothesis standingOthers logicalOthers
                  terminatedOthers later with
                    ⟨isEof, none⟩ | ⟨other, member, opened⟩
                · exact .inl ⟨isEof, same.trans none⟩
                · exact .inr ⟨other, List.mem_cons_of_mem line member,
                    opened.of_openSegment_eq same⟩

end

/-! ### Open parentheses -/

/-- One of some tokens is an opening parenthesis that none behind it closes. -/
def HoldsUnclosedParen (tokens : List Token) : Prop :=
  ∃ before paren after,
    tokens = before ++ paren :: after ∧
      paren.kind = .punctuation .openParen ∧
      ∀ earlier, earlier <+: after → closeParens earlier ≤ openParens earlier

theorem openParens_append
    (first second : List Token) :
    openParens (first ++ second) = openParens first + openParens second :=
  countKind_append (.punctuation .openParen) first second

theorem closeParens_append
    (first second : List Token) :
    closeParens (first ++ second) = closeParens first + closeParens second :=
  countKind_append (.punctuation .closeParen) first second

/--
Of tokens that open more than they close, the first of a shortest end that does
so is a parenthesis that stays open.
-/
theorem holdsUnclosedParen_of_suffix
    {tokens : List Token}
    (unclosed :
      ∃ ending, ending <:+ tokens ∧ closeParens ending < openParens ending) :
    HoldsUnclosedParen tokens := by
  induction tokens with
  | nil =>
      obtain ⟨ending, isSuffix, more⟩ := unclosed
      rw [List.suffix_nil.mp isSuffix] at more
      cases more
  | cons token rest inductionHypothesis =>
      by_cases shorter :
          ∃ ending, ending <:+ rest ∧ closeParens ending < openParens ending
      · obtain ⟨before, paren, after, shape, isParen, stays⟩ :=
          inductionHypothesis shorter
        exact ⟨token :: before, paren, after, by rw [shape]; rfl, isParen, stays⟩
      · have closedBehind :
            ∀ ending, ending <:+ rest → openParens ending ≤ closeParens ending := by
          intro ending isSuffix
          exact Nat.le_of_not_lt fun more => shorter ⟨ending, isSuffix, more⟩
        have whole : closeParens (token :: rest) < openParens (token :: rest) := by
          obtain ⟨ending, isSuffix, more⟩ := unclosed
          rcases List.suffix_cons_iff.mp isSuffix with isWhole | isShorter
          · rwa [isWhole] at more
          · exact absurd more (Nat.not_lt.mpr (closedBehind ending isShorter))
        rw [closeParens_cons, openParens_cons] at whole
        have opens : closeParens [token] < openParens [token] := by
          have closed := closedBehind rest (List.suffix_refl rest)
          omega
        have isParen : token.kind = .punctuation .openParen := by
          by_contra different
          have none : openParens [token] = 0 := by
            simp [openParens, countKind, different]
          omega
        refine ⟨[], token, rest, rfl, isParen, ?_⟩
        rintro earlier ⟨later, rfl⟩
        have closed := closedBehind later (List.suffix_append earlier later)
        have once : openParens [token] = 1 := by
          simp [openParens, countKind, isParen]
        rw [closeParens_append, openParens_append] at whole
        omega

/-! ### The checker behind the lexer -/

namespace Blocks

/-- What holds of the checker when it is pushed a token behind some others. -/
structure Follows
    (source : String)
    (before : List Token)
    (token : Token)
    (checker : Checker) : Prop where
  taken : parser.Takes .start before checker
  depth : checker.depth + countKind .dedent before = countKind .indent before
  inLine :
    token.isVisible = true →
    ∃ cursor indentation progress,
      Session.Reaches parser.watched source
          (.statement cursor indentation progress) ∧
        progress.parser.pushed = before ∧
        progress.parser.state = checker ∧
        Session.Finds cursor token ∧
        checker.depth = indentation.depth
  acceptsLast :
    ∀ next, parser.push checker token = (.accepted, next) → token.kind = .eof
  settlesLast :
    token.kind = .eof → ∀ next, parser.push checker token ≠ (.needMore, next)
  rejection :
    ∀ message next,
      parser.push checker token = (.rejected message, next) →
        message ≠ "dedent without an open block" ∧
          message ≠ "empty statement" ∧
          (∀ count : Nat,
            message ≠
              toString count ++ " block(s) still open at end of input") ∧
          ∀ number : Nat,
            message = "unclosed '(' at end of line " ++ toString number →
              (token.kind = .newline ∨ token.kind = .eof) ∧
                ∃ line ∈ logicalLines source,
                  line.number = number ∧
                    openSegment before = line.lexed.tokens ∧
                    HoldsUnclosedParen line.lexed.tokens

section

variable {source : String}
variable {before after : List Token}
variable {token : Token}
variable {checker : Checker}

/-- The top level and the open blocks are the widths open behind some tokens. -/
theorem length_replayed
    {earlier : List Token}
    (early : earlier <+: stream source) :
    0 < (replayed earlier).length ∧
      (replayed earlier).length + countKind .dedent earlier =
        1 + countKind .indent earlier := by
  have nested :
      ∀ part, part <+: earlier → part.foldl replay [0] ≠ [] :=
    fun part isPart =>
      ((fitFrom_stream source).nested .topLevel (isPart.trans early)).ne_nil
  exact ⟨List.length_pos_iff.mpr (nested earlier (List.prefix_refl earlier)),
    length_foldl_replay nested⟩

/-- A dedent of a stream has an open block to close. -/
theorem depth_pos_of_dedent
    (remembers : checker.Remembers before)
    (shape : stream source = before ++ token :: after)
    (kind : token.kind = .dedent) :
    0 < checker.depth := by
  have early : before ++ [token] <+: stream source :=
    ⟨after, by rw [shape, List.append_assoc]; rfl⟩
  obtain ⟨remaining, counted⟩ := length_replayed early
  have closes : countKind .dedent [token] = 1 := by
    simp [countKind, kind]
  have opensNone : countKind .indent [token] = 0 := by
    simp [countKind, kind]
  have depth := remembers.depth
  rw [countKind_append, countKind_append, closes, opensNone] at counted
  omega

/-- At the end of the input, a stream has closed all blocks. -/
theorem depth_eq_zero_of_eof
    (remembers : checker.Remembers before)
    (shape : stream source = before ++ token :: after)
    (kind : token.kind = .eof) :
    checker.depth = 0 := by
  have closed : replayed before = [0] :=
    (fitFrom_stream source before token after shape).eof kind
  obtain ⟨_, counted⟩ := length_replayed (shape ▸ List.prefix_append before _)
  have depth := remembers.depth
  rw [closed, List.length_singleton] at counted
  omega

theorem openBefore_of_stream
    (shape : stream source = before ++ token :: after)
    (ends : token.kind = .newline ∨ token.kind = .eof) :
    (token.kind = .eof ∧ openSegment before = []) ∨
      ∃ line ∈ logicalLines source, line.OpenBefore before token := by
  rw [stream_eq_streamFrom] at shape
  exact openBefore_of_streamFrom (fun _ member => standsIn_of_mem_logicalLines member)
    (fun _ member => (isLogical_of_mem_logicalLines member).2)
    (logicalLines_terminated source) shape ends

/-- Behind the lexer, the checker refuses a token only for a live fault. -/
theorem isLive_of_refuses
    {fault : Fault}
    (remembers : checker.Remembers before)
    (shape : stream source = before ++ token :: after)
    (refuses : checker.Refuses token fault) :
    fault.isLive = true := by
  cases refuses with
  | unopenedBlock kind _ outside =>
      have inside := depth_pos_of_dedent remembers shape kind
      rw [outside] at inside
      cases inside
  | emptyStatement kind empty =>
      rcases openBefore_of_stream shape (.inl kind) with
        ⟨isEof, _⟩ | ⟨line, _, opened⟩
      · cases kind.symm.trans isEof
      · rw [remembers.lineTokens, opened.segment] at empty
        exact absurd (List.length_eq_zero_iff.mp empty) opened.present
  | unclosedBlocks kind inside =>
      rw [depth_eq_zero_of_eof remembers shape kind] at inside
      cases inside
  | _ =>
      rfl

/-- The line that an open parenthesis is reported for holds it. -/
theorem exists_line_of_unclosedParen
    {number : Nat}
    (remembers : checker.Remembers before)
    (shape : stream source = before ++ token :: after)
    (refuses : checker.Refuses token (.unclosedParen number)) :
    (token.kind = .newline ∨ token.kind = .eof) ∧
      ∃ line ∈ logicalLines source,
        line.number = number ∧
          openSegment before = line.lexed.tokens ∧
          HoldsUnclosedParen line.lexed.tokens := by
  cases refuses with
  | unclosedParen ends present opened =>
      refine ⟨ends, ?_⟩
      rcases openBefore_of_stream shape ends with
        ⟨_, none⟩ | ⟨line, member, openLine⟩
      · rw [remembers.lineTokens, none] at present
        cases present
      · refine ⟨line, member, openLine.sameLine.symm, openLine.segment, ?_⟩
        have counts := remembers.parens
        rw [openLine.segment] at counts
        exact holdsUnclosedParen_of_suffix
          ⟨line.lexed.tokens, List.suffix_refl _, by omega⟩

end

end Blocks

/-- The tokens taken from a state lead to one state only. -/
theorem Parser.Takes.unique
    {parser : Parser σ ω}
    {state first second : σ}
    {tokens : List Token}
    (taken : parser.Takes state tokens first)
    (again : parser.Takes state tokens second) :
    first = second := by
  induction taken with
  | nil state =>
      cases again
      rfl
  | cons answer _ inductionHypothesis =>
      cases again with
      | cons sameAnswer rest =>
          rw [answer, Prod.mk.injEq] at sameAnswer
          rw [← sameAnswer.2] at rest
          exact inductionHypothesis rest

/-- What a parser was pushed before some token, it took. -/
theorem Parser.Settles.exists_takes
    {parser : Parser σ ω}
    {stream pushed before after : List Token}
    {ending : Except SessionError (List Token)}
    {result : Except SessionError ω}
    {state : σ}
    {token : Token}
    (settled : parser.Settles stream ending pushed state result)
    (shape : pushed = before ++ token :: after) :
    ∃ earlier, parser.Takes parser.initial before earlier := by
  have cut :
      ∀ {tokens : List Token} {reached : σ},
        before <+: tokens →
        parser.Takes parser.initial tokens reached →
          ∃ earlier, parser.Takes parser.initial before earlier := by
    rintro tokens reached ⟨rest, rfl⟩ taken
    obtain ⟨earlier, takenBefore, _⟩ := Parser.takes_append_iff.mp taken
    exact ⟨earlier, takenBefore⟩
  have early :
      ∀ {tokens : List Token} {last : Token},
        tokens ++ [last] = before ++ token :: after → before <+: tokens := by
    intro tokens last same
    have isPrefix : before <+: tokens ++ [last] :=
      same ▸ List.prefix_append before (token :: after)
    rcases List.prefix_concat_iff.mp isPrefix with isWhole | isShorter
    · have lengths := congrArg List.length (isWhole.trans same)
      simp at lengths
    · exact isShorter
  cases settled with
  | acceptedEarly _ taken _ _ =>
      exact cut (early shape) taken
  | rejected _ taken _ =>
      exact cut (early shape) taken
  | accepted _ taken _ _ =>
      exact cut (early shape) taken
  | interrupted taken _ =>
      exact cut ⟨token :: after, shape.symm⟩ taken
  | exhausted taken _ _ _ =>
      exact cut ⟨token :: after, shape.symm⟩ taken

open Blocks

/-- Where the lexer stands in a line, the checker has the same open blocks. -/
theorem depth_eq_of_reaches
    {source : String}
    {cursor : Cursor}
    {indentation : Indentation}
    {progress : Session.Progress (Watched Checker)}
    (reaches :
      Session.Reaches parser.watched source
        (.statement cursor indentation progress)) :
    progress.parser.state.depth = indentation.depth := by
  have tallies := reaches.tallies
  have remembers := remembers_of_takes tallies.taken
  have tallied := tallies.depth
  have remembered := remembers.depth
  simp only [Session.Moment.progress, Session.Moment.indentation] at tallied remembered
  omega

/--
The lexer and the checker agree on the open blocks, and some answers of the
checker never come. At each push the depth of the checker is the number of
indents less that of dedents, and if a lexical token or a line end is pushed, it
is the number of blocks that the lexer has open where it finds the token. The
checker accepts nothing before the end of the input and needs nothing behind it.
It never meets a dedent without an open block, an empty statement or blocks that
are open at the end. If it reports an open parenthesis at the end of a line, the
line that it names is the one that holds the parenthesis.
-/
theorem checker_follows_lexer
    (source : String) :
    (∀ cursor indentation progress,
      Session.Reaches parser.watched source
          (.statement cursor indentation progress) →
        progress.parser.state.depth = indentation.depth) ∧
    ∀ before token after,
      pushedTokens parser source = before ++ token :: after →
        ∃ checker, Follows source before token checker := by
  refine ⟨fun _ _ _ reaches => depth_eq_of_reaches reaches, ?_⟩
  intro before token after shape
  obtain ⟨state, settled⟩ := pushedTokens_settles parser source
  obtain ⟨checker, taken⟩ := settled.exists_takes shape
  have remembers := remembers_of_takes taken
  obtain ⟨later, whole⟩ := pushedTokens_isPrefix parser source
  have inStream : stream source = before ++ token :: (after ++ later) := by
    rw [← whole, shape, List.append_assoc]
    rfl
  refine ⟨checker, taken, remembers.depth, ?_, ?_, ?_, ?_⟩
  · intro visible
    obtain ⟨indentation, cursor, progress, reaches, pushed, finds⟩ :=
      Session.accounted_pushedTokens parser source before token after shape visible
    have takenThere := reaches.tallies.taken
    simp only [Session.Moment.progress, pushed] at takenThere
    have sameState : progress.parser.state = checker := takenThere.unique taken
    exact ⟨cursor, indentation, progress, reaches, pushed, sameState, finds,
      sameState ▸ depth_eq_of_reaches reaches⟩
  · intro next answer
    exact (push_eq_accepted_iff.mp answer).kind_eq
  · intro isEof next answer
    exact (push_eq_needMore_iff.mp answer).kind_ne_eof isEof
  · intro message next answer
    obtain ⟨fault, refuses, rfl⟩ := exists_fault_of_push answer
    have live := isLive_of_refuses remembers inStream refuses
    obtain ⟨noDedent, noEmpty, noBlocks⟩ := Fault.message_ne_of_isLive live
    refine ⟨noDedent, noEmpty, noBlocks, ?_⟩
    intro number same
    rw [Fault.eq_unclosedParen_of_message_eq live same] at refuses
    exact exists_line_of_unclosedParen remembers inStream refuses

end LayoutLexer
