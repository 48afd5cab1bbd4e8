import LayoutLexer.Proofs.WellBlocked
import Mathlib.Data.List.Induction

namespace LayoutLexer

/-!
# The grammar of the block checker

The checker can be pushed any tokens in any order, also such as no source gives:
dedents in the middle of a line, or a line end behind nothing. What it accepts
can be said without its state. Leaving indents and dedents aside, the tokens are
cut into segments at the line ends. The parentheses of each segment match, only
the last segment may be empty, an indent stands exactly behind a line end whose
segment ends in a colon, and indents and dedents match like brackets.

Whatever the checker has taken, its state counts the segments, the parentheses
of the last one and the open blocks (`Blocks.Checker.Remembers`). One token keeps
it so, hence every run does.
-/

/-! ### Segments -/

/-- Whether a token opens or closes a block. -/
def Token.marksBlock (token : Token) : Bool :=
  token.kind = .indent ∨ token.kind = .dedent

/--
The tokens other than indents and dedents, cut at the line ends. No line end
closes the last segment.
-/
def segments (tokens : List Token) : List (List Token) :=
  (tokens.filter (!·.marksBlock)).splitOnP (·.kind = .newline)

/-- The segments that a line end closes. -/
def closedSegments (tokens : List Token) : List (List Token) :=
  (segments tokens).dropLast

/-- The segment that the next line end closes. -/
def openSegment (tokens : List Token) : List Token :=
  (segments tokens).getLastD []

/-- Whether the last token of a segment is a colon. -/
def endsInColon (segment : List Token) : Bool :=
  segment.getLast?.any (·.kind = .punctuation .colon)

theorem marksBlock_of_lexical
    {token : Token}
    (lexical : token.kind.isLayout = false) :
    token.marksBlock = false := by
  have noIndent : token.kind ≠ .indent :=
    TokenKind.ne_of_lexical lexical rfl
  have noDedent : token.kind ≠ .dedent :=
    TokenKind.ne_of_lexical lexical rfl
  simp [Token.marksBlock, noIndent, noDedent]

/-- An element behind a list that is no separator belongs to the last part. -/
theorem splitOnP_concat
    (separates : α → Bool)
    {last : α}
    (keeps : separates last = false)
    (items : List α) :
    (items ++ [last]).splitOnP separates =
      (items.splitOnP separates).dropLast ++
        [(items.splitOnP separates).getLastD [] ++ [last]] := by
  induction items with
  | nil =>
      simp [List.splitOnP_cons_eq_if_modifyHead, keeps]
  | cons item items inductionHypothesis =>
      rw [List.cons_append, List.splitOnP_cons_eq_if_modifyHead,
        inductionHypothesis, List.splitOnP_cons_eq_if_modifyHead]
      cases parts : items.splitOnP separates with
      | nil =>
          exact absurd parts (List.splitOnP_ne_nil separates items)
      | cons part others =>
          cases separates item <;> cases others <;> simp

section

variable {tokens before after : List Token}
variable {token newline : Token}

theorem segments_eq
    (tokens : List Token) :
    segments tokens = closedSegments tokens ++ [openSegment tokens] := by
  have present : segments tokens ≠ [] := List.splitOnP_ne_nil _ _
  rw [closedSegments, openSegment, List.getLastD_eq_getLast?,
    List.getLast?_eq_some_getLast present]
  exact (List.dropLast_concat_getLast present).symm

theorem openSegment_mem
    (tokens : List Token) :
    openSegment tokens ∈ segments tokens := by
  simp [segments_eq]

theorem parts_of_segments_eq
    {closed : List (List Token)}
    {last : List Token}
    (shape : segments tokens = closed ++ [last]) :
    closedSegments tokens = closed ∧ openSegment tokens = last := by
  simp [closedSegments, openSegment, shape]

/-- A line end parts the segments before it from those behind it. -/
theorem segments_append_newline
    (isNewline : newline.kind = .newline)
    (before after : List Token) :
    segments (before ++ newline :: after) =
      segments before ++ segments after := by
  have kept : newline.marksBlock = false := by
    simp [Token.marksBlock, isNewline]
  rw [segments, List.filter_append, List.filter_cons, kept]
  exact List.splitOnP_append_cons _ _ (by simp [isNewline])

/-- What one more token does to the segments. -/
inductive SegmentsConcat (tokens : List Token) (token : Token) : Prop where
  | newline :
      token.kind = .newline →
      closedSegments (tokens ++ [token]) =
        closedSegments tokens ++ [openSegment tokens] →
      openSegment (tokens ++ [token]) = [] →
      SegmentsConcat tokens token
  | mark :
      closedSegments (tokens ++ [token]) = closedSegments tokens →
      openSegment (tokens ++ [token]) = openSegment tokens →
      SegmentsConcat tokens token
  | inline :
      closedSegments (tokens ++ [token]) = closedSegments tokens →
      openSegment (tokens ++ [token]) = openSegment tokens ++ [token] →
      SegmentsConcat tokens token

/-- A line end closes the open segment and opens an empty one. -/
theorem segments_concat_newline
    (tokens : List Token)
    (isNewline : token.kind = .newline) :
    closedSegments (tokens ++ [token]) =
        closedSegments tokens ++ [openSegment tokens] ∧
      openSegment (tokens ++ [token]) = [] := by
  have shape := segments_append_newline isNewline tokens []
  rw [segments_eq tokens] at shape
  exact parts_of_segments_eq shape

/-- Indents and dedents leave the segments alone. -/
theorem segments_concat_mark
    (tokens : List Token)
    (marks : token.marksBlock = true) :
    closedSegments (tokens ++ [token]) = closedSegments tokens ∧
      openSegment (tokens ++ [token]) = openSegment tokens := by
  have shape : segments (tokens ++ [token]) = segments tokens := by
    simp [segments, marks]
  rw [segments_eq tokens] at shape
  exact parts_of_segments_eq shape

/-- Any other token belongs to the open segment. -/
theorem segments_concat_inline
    (tokens : List Token)
    (isNewline : token.kind ≠ .newline)
    (marks : token.marksBlock = false) :
    closedSegments (tokens ++ [token]) = closedSegments tokens ∧
      openSegment (tokens ++ [token]) = openSegment tokens ++ [token] := by
  have shape :
      segments (tokens ++ [token]) =
        closedSegments tokens ++ [openSegment tokens ++ [token]] := by
    rw [segments, List.filter_append, List.filter_singleton, marks]
    exact splitOnP_concat _ (by simp [isNewline]) _
  exact parts_of_segments_eq shape

theorem segmentsConcat
    (tokens : List Token)
    (token : Token) :
    SegmentsConcat tokens token := by
  by_cases isNewline : token.kind = .newline
  · obtain ⟨closed, last⟩ := segments_concat_newline tokens isNewline
    exact .newline isNewline closed last
  · cases marks : token.marksBlock with
    | true =>
        obtain ⟨closed, last⟩ := segments_concat_mark tokens marks
        exact .mark closed last
    | false =>
        obtain ⟨closed, last⟩ := segments_concat_inline tokens isNewline marks
        exact .inline closed last

/-- A line end closes the segment that is open before it. -/
theorem openSegment_mem_closedSegments
    (isNewline : newline.kind = .newline)
    (early : before ++ [newline] <+: tokens) :
    openSegment before ∈ closedSegments tokens := by
  obtain ⟨after, rfl⟩ := early
  have shape := segments_append_newline isNewline before after
  rw [segments_eq after, ← List.append_assoc] at shape
  rw [List.append_assoc, List.singleton_append,
    (parts_of_segments_eq shape).1]
  exact List.mem_append_left _ (openSegment_mem before)

/-- Every closed segment was open before the line end that closes it. -/
theorem exists_newline_of_mem_closedSegments
    {segment : List Token}
    (member : segment ∈ closedSegments tokens) :
    ∃ before newline,
      before ++ [newline] <+: tokens ∧
        newline.kind = .newline ∧
        openSegment before = segment := by
  induction tokens using List.reverseRecOn with
  | nil =>
      simp [closedSegments, segments] at member
  | append_singleton tokens token inductionHypothesis =>
      have earlier :
          segment ∈ closedSegments tokens →
            ∃ before newline,
              before ++ [newline] <+: tokens ++ [token] ∧
                newline.kind = .newline ∧
                openSegment before = segment := by
        intro closedBefore
        obtain ⟨before, newline, early, isNewline, same⟩ :=
          inductionHypothesis closedBefore
        exact ⟨before, newline, early.trans (List.prefix_append _ _), isNewline,
          same⟩
      cases segmentsConcat tokens token with
      | newline isNewline closed last =>
          rw [closed, List.mem_append, List.mem_singleton] at member
          rcases member with closedBefore | isOpen
          · exact earlier closedBefore
          · exact ⟨tokens, token, List.prefix_refl _, isNewline, isOpen.symm⟩
      | mark closed _ =>
          exact earlier (closed ▸ member)
      | inline closed _ =>
          exact earlier (closed ▸ member)

/-- The beginnings of the open segment were open segments themselves. -/
theorem exists_prefix_of_openSegment
    {part : List Token}
    (starts : part <+: openSegment tokens) :
    ∃ before, before <+: tokens ∧ openSegment before = part := by
  induction tokens using List.reverseRecOn with
  | nil =>
      refine ⟨[], List.prefix_refl [], ?_⟩
      exact (List.prefix_nil.mp starts).symm
  | append_singleton tokens token inductionHypothesis =>
      have earlier :
          part <+: openSegment tokens →
            ∃ before, before <+: tokens ++ [token] ∧
              openSegment before = part := by
        intro startsBefore
        obtain ⟨before, early, same⟩ := inductionHypothesis startsBefore
        exact ⟨before, early.trans (List.prefix_append _ _), same⟩
      cases segmentsConcat tokens token with
      | newline _ _ last =>
          rw [last, List.prefix_nil] at starts
          exact ⟨tokens ++ [token], List.prefix_refl _, last.trans starts.symm⟩
      | mark _ last =>
          exact earlier (last ▸ starts)
      | inline _ last =>
          rw [last, List.prefix_concat_iff] at starts
          rcases starts with isWhole | startsBefore
          · exact ⟨tokens ++ [token], List.prefix_refl _,
              last.trans isWhole.symm⟩
          · exact earlier startsBefore

/-- What was an open segment has become the beginning of a segment. -/
theorem exists_segment_of_prefix
    (early : before <+: tokens) :
    ∃ segment ∈ segments tokens, openSegment before <+: segment := by
  induction tokens using List.reverseRecOn with
  | nil =>
      rw [List.prefix_nil.mp early]
      exact ⟨_, openSegment_mem [], List.prefix_refl _⟩
  | append_singleton tokens token inductionHypothesis =>
      rcases List.prefix_concat_iff.mp early with isWhole | earlier
      · rw [isWhole]
        exact ⟨_, openSegment_mem _, List.prefix_refl _⟩
      · obtain ⟨segment, member, starts⟩ := inductionHypothesis earlier
        rw [segments_eq, List.mem_append, List.mem_singleton] at member
        rw [segments_eq]
        cases segmentsConcat tokens token with
        | newline _ closed _ =>
            rw [closed]
            refine ⟨segment, List.mem_append_left _ ?_, starts⟩
            simpa using member
        | mark closed last =>
            rw [closed, last]
            exact ⟨segment, by simpa using member, starts⟩
        | inline closed last =>
            rw [closed, last]
            rcases member with wasClosed | isOpen
            · exact ⟨segment, List.mem_append_left _ wasClosed, starts⟩
            · refine ⟨openSegment tokens ++ [token], by simp, ?_⟩
              exact (isOpen ▸ starts).trans (List.prefix_append _ _)

/-! ### The grammar -/

/-- The last token ends a line that announces a block. -/
def AwaitsBlock (tokens : List Token) : Prop :=
  ∃ before newline,
    tokens = before ++ [newline] ∧
      newline.kind = .newline ∧
      endsInColon (openSegment before) = true

theorem not_awaitsBlock_nil : ¬ AwaitsBlock [] := by
  rintro ⟨before, newline, shape, _⟩
  simp at shape

theorem awaitsBlock_concat_iff :
    AwaitsBlock (tokens ++ [token]) ↔
      token.kind = .newline ∧ endsInColon (openSegment tokens) = true := by
  constructor
  · rintro ⟨before, newline, shape, isNewline, colon⟩
    obtain ⟨rfl, rfl⟩ := List.append_inj' shape rfl |>.imp id List.singleton_inj.mp
    exact ⟨isNewline, colon⟩
  · rintro ⟨isNewline, colon⟩
    exact ⟨tokens, token, rfl, isNewline, colon⟩

/-- Behind a line end no segment has begun. -/
theorem AwaitsBlock.openSegment_eq
    (awaits : AwaitsBlock tokens) :
    openSegment tokens = [] := by
  obtain ⟨before, newline, rfl, isNewline, _⟩ := awaits
  have shape := segments_append_newline isNewline before []
  exact (parts_of_segments_eq shape).2

/-- No block, no parenthesis and no header is left open behind some tokens. -/
structure AtRest (tokens : List Token) : Prop where
  noBlock : ¬ AwaitsBlock tokens
  parens :
    openParens (openSegment tokens) = closeParens (openSegment tokens)
  noColon : endsInColon (openSegment tokens) = false
  closed : countKind .indent tokens = countKind .dedent tokens

/-- The tokens before the end of the input form lines and blocks. -/
structure Grammatical (tokens : List Token) : Prop where
  /-- Every segment that a line end closes holds a token. -/
  present : ∀ segment ∈ closedSegments tokens, segment ≠ []
  /-- Parentheses match in every segment, also in the one left open. -/
  parens :
    ∀ segment ∈ segments tokens,
      Balanced (.punctuation .openParen) (.punctuation .closeParen) segment
  /-- An indent stands right behind a line end exactly if its segment announces it. -/
  announced :
    ∀ before newline after,
      tokens = before ++ newline :: after →
      newline.kind = .newline →
        (after.head?.map Token.kind = some .indent ↔
          endsInColon (openSegment before) = true)
  /-- No indent stands anywhere else. -/
  indents :
    ∀ before indent after,
      tokens = before ++ indent :: after →
      indent.kind = .indent →
        before.getLast?.map Token.kind = some .newline
  /-- The segment left open announces no block. -/
  last : endsInColon (openSegment tokens) = false
  /-- Indents and dedents match. -/
  blocks : Balanced .indent .dedent tokens

/-- Only an indent stands behind tokens that await a block. -/
theorem Grammatical.kind_of_awaitsBlock
    (grammatical : Grammatical (before ++ token :: after))
    (awaits : AwaitsBlock before) :
    token.kind = .indent := by
  obtain ⟨earlier, newline, rfl, isNewline, colon⟩ := awaits
  have follows :=
    (grammatical.announced earlier newline (token :: after) (by simp)
      isNewline).mpr colon
  simpa using follows

/-- An indent stands only behind tokens that await a block. -/
theorem Grammatical.awaitsBlock_of_indent
    (grammatical : Grammatical (before ++ token :: after))
    (indent : token.kind = .indent) :
    AwaitsBlock before := by
  obtain ⟨newline, isLast, isNewline⟩ :=
    Option.map_eq_some_iff.mp (grammatical.indents before token after rfl indent)
  obtain ⟨earlier, rfl⟩ := List.getLast?_eq_some_iff.mp isLast
  have colon :=
    (grammatical.announced earlier newline (token :: after) (by simp)
      isNewline).mp (by simp [indent])
  exact ⟨earlier, newline, rfl, isNewline, colon⟩

/-- A grammatical stream leaves nothing open. -/
theorem Grammatical.atRest
    (grammatical : Grammatical tokens) :
    AtRest tokens where
  noBlock := by
    rintro ⟨before, newline, shape, isNewline, colon⟩
    have follows := (grammatical.announced before newline [] shape isNewline).mpr colon
    simp at follows
  parens := (grammatical.parens _ (openSegment_mem tokens)).matched
  noColon := grammatical.last
  closed := grammatical.blocks.matched

end

/-! ### What the checker remembers -/

theorem nestings_concat
    (tokens : List Token)
    (token : Token) :
    nestings (tokens ++ [token]) =
      insert
        ((countKind .indent (tokens ++ [token]) : ℤ) -
          countKind .dedent (tokens ++ [token]))
        (nestings tokens) := by
  ext depth
  constructor
  · rintro ⟨earlier, early, isDepth⟩
    rcases List.prefix_concat_iff.mp early with isWhole | before
    · exact .inl (isWhole ▸ isDepth)
    · exact .inr ⟨earlier, before, isDepth⟩
  · rintro (isDepth | ⟨earlier, early, isDepth⟩)
    · exact ⟨tokens ++ [token], List.prefix_refl _, isDepth⟩
    · exact ⟨earlier, early.trans (List.prefix_append _ _), isDepth⟩

namespace Parser

variable {parser : Parser σ ω}
variable {state final : σ}

/-- What is taken can be cut anywhere. -/
theorem takes_append_iff
    {first second : List Token} :
    parser.Takes state (first ++ second) final ↔
      ∃ middle, parser.Takes state first middle ∧
        parser.Takes middle second final := by
  constructor
  · intro taken
    induction first generalizing state with
    | nil =>
        exact ⟨state, .nil state, taken⟩
    | cons token first inductionHypothesis =>
        cases taken with
        | cons answer rest =>
            obtain ⟨middle, takenFirst, takenSecond⟩ := inductionHypothesis rest
            exact ⟨middle, .cons answer takenFirst, takenSecond⟩
  · rintro ⟨middle, takenFirst, takenSecond⟩
    induction takenFirst with
    | nil =>
        exact takenSecond
    | cons answer _ inductionHypothesis =>
        exact .cons answer (inductionHypothesis takenSecond)

theorem takes_concat_iff
    {tokens : List Token}
    {token : Token} :
    parser.Takes state (tokens ++ [token]) final ↔
      ∃ middle, parser.Takes state tokens middle ∧
        parser.push middle token = (.needMore, final) := by
  rw [takes_append_iff]
  constructor
  · rintro ⟨middle, taken, lastTaken⟩
    cases lastTaken with
    | cons answer rest =>
        cases rest
        exact ⟨middle, taken, answer⟩
  · rintro ⟨middle, taken, answer⟩
    exact ⟨middle, taken, .cons answer (.nil final)⟩

end Parser

namespace Blocks

namespace Checker

/-- The state of the checker tells what it has to know of the tokens taken. -/
structure Remembers (checker : Checker) (tokens : List Token) : Prop where
  depth : checker.depth + countKind .dedent tokens = countKind .indent tokens
  parens :
    checker.parenDepth + closeParens (openSegment tokens) =
      openParens (openSegment tokens)
  lineTokens : checker.lineTokens = (openSegment tokens).length
  lastKind : checker.lastKind = (openSegment tokens).getLast?.map Token.kind
  expectIndent : checker.expectIndent = true ↔ AwaitsBlock tokens
  statements : checker.summary.statements = (closedSegments tokens).length
  maxDepth : IsGreatest (nestings tokens) checker.summary.maxDepth

theorem remembers_start : start.Remembers [] where
  depth := rfl
  parens := rfl
  lineTokens := rfl
  lastKind := rfl
  expectIndent := by simp [start, not_awaitsBlock_nil]
  statements := rfl
  maxDepth := by
    constructor
    · exact ⟨[], List.prefix_refl [], rfl⟩
    · rintro depth ⟨earlier, early, isDepth⟩
      rw [isDepth, List.prefix_nil.mp early]
      rfl

namespace Remembers

variable {checker next : Checker}
variable {tokens : List Token}
variable {token : Token}

theorem announcesBlock_eq
    (remembers : checker.Remembers tokens) :
    checker.announcesBlock = endsInColon (openSegment tokens) := by
  rw [announcesBlock, remembers.lastKind, endsInColon, Option.any_map]
  congr 1
  funext token
  exact token.kind.opensBlock_eq

/-- No more blocks are open than were at some time. -/
theorem depth_le_maxDepth
    (remembers : checker.Remembers tokens) :
    checker.depth ≤ checker.summary.maxDepth := by
  have bound := remembers.maxDepth.2 ⟨tokens, List.prefix_refl tokens, rfl⟩
  have depth := remembers.depth
  omega

/-- One token more keeps the depth and its maximum. -/
theorem depth_concat
    (remembers : checker.Remembers tokens)
    (advances : checker.Advances token next) :
    next.depth + countKind .dedent (tokens ++ [token]) =
        countKind .indent (tokens ++ [token]) ∧
      IsGreatest (nestings (tokens ++ [token])) next.summary.maxDepth := by
  obtain ⟨depths, maximum⟩ := advances.depth_eq remembers.depth_le_maxDepth
  have counts :
      next.depth + countKind .dedent (tokens ++ [token]) =
        countKind .indent (tokens ++ [token]) := by
    have depth := remembers.depth
    rw [countKind_append, countKind_append]
    omega
  have isDepth :
      (countKind .indent (tokens ++ [token]) : ℤ) -
          countKind .dedent (tokens ++ [token]) =
        next.depth := by
    omega
  have isMaximum :
      (next.summary.maxDepth : ℤ) =
        max (next.depth : ℤ) checker.summary.maxDepth := by
    omega
  refine ⟨counts, ?_⟩
  rw [nestings_concat, isDepth, isMaximum]
  exact remembers.maxDepth.insert _

/-- One token more keeps what the checker remembers. -/
theorem concat
    (remembers : checker.Remembers tokens)
    (advances : checker.Advances token next) :
    next.Remembers (tokens ++ [token]) := by
  obtain ⟨depth, maxDepth⟩ := remembers.depth_concat advances
  cases advances with
  | indent kind _ =>
      have marks : token.marksBlock = true := by
        simp [Token.marksBlock, kind]
      obtain ⟨closed, last⟩ := segments_concat_mark tokens marks
      exact {
        depth
        parens := last ▸ remembers.parens
        lineTokens := last ▸ remembers.lineTokens
        lastKind := last ▸ remembers.lastKind
        expectIndent := by simp [enter, awaitsBlock_concat_iff, kind]
        statements := closed ▸ remembers.statements
        maxDepth
      }
  | dedent kind noBlock _ =>
      have marks : token.marksBlock = true := by
        simp [Token.marksBlock, kind]
      obtain ⟨closed, last⟩ := segments_concat_mark tokens marks
      exact {
        depth
        parens := last ▸ remembers.parens
        lineTokens := last ▸ remembers.lineTokens
        lastKind := last ▸ remembers.lastKind
        expectIndent := by simp [leave, awaitsBlock_concat_iff, kind, noBlock]
        statements := closed ▸ remembers.statements
        maxDepth
      }
  | newline kind _ _ =>
      obtain ⟨closed, last⟩ := segments_concat_newline tokens kind
      have announced := remembers.announcesBlock_eq
      exact {
        depth
        parens := by simp [last, nextLine, atLine, openParens, closeParens, countKind]
        lineTokens := by simp [last, nextLine, atLine]
        lastKind := by simp [last, nextLine, atLine]
        expectIndent := by
          simp [nextLine, atLine, awaitsBlock_concat_iff, kind, announced]
        statements := by simp [nextLine, atLine, closed, remembers.statements]
        maxDepth
      }
  | lexical kind noBlock closes =>
      have noNewline : token.kind ≠ .newline :=
        TokenKind.ne_of_lexical kind rfl
      obtain ⟨closed, last⟩ :=
        segments_concat_inline tokens noNewline (marksBlock_of_lexical kind)
      have parens :
          (checker.behind [token]).parenDepth +
              closeParens (openSegment tokens ++ [token]) =
            openParens (openSegment tokens ++ [token]) := by
        have counts := remembers.parens
        simp only [closeParens, openParens, countKind_append, behind] at *
        omega
      exact {
        depth
        parens := last ▸ parens
        lineTokens := by simp [last, behind, remembers.lineTokens]
        lastKind := by simp [last, behind]
        expectIndent := by
          simp [behind, awaitsBlock_concat_iff, noNewline, noBlock]
        statements := closed ▸ remembers.statements
        maxDepth
      }

/-- The next token is an indent exactly when one was announced. -/
theorem kind_eq_indent_iff
    (remembers : checker.Remembers tokens)
    (advances : checker.Advances token next) :
    token.kind = .indent ↔ AwaitsBlock tokens := by
  rw [← remembers.expectIndent]
  cases advances with
  | indent kind announced =>
      simp [kind, announced]
  | dedent kind noBlock _ =>
      simp [kind, noBlock]
  | newline kind present _ =>
      have begun : ¬ AwaitsBlock tokens := by
        intro awaits
        rw [remembers.lineTokens, awaits.openSegment_eq] at present
        exact Nat.lt_irrefl 0 present
      simp [kind, remembers.expectIndent, begun]
  | lexical kind noBlock _ =>
      have noIndent : token.kind ≠ .indent :=
        TokenKind.ne_of_lexical kind rfl
      simp [noIndent, noBlock]

/-- A line end stands behind a segment with tokens and no open parenthesis. -/
theorem openSegment_of_newline
    (remembers : checker.Remembers tokens)
    (advances : checker.Advances token next)
    (isNewline : token.kind = .newline) :
    openSegment tokens ≠ [] ∧
      openParens (openSegment tokens) = closeParens (openSegment tokens) := by
  have counts := remembers.parens
  have length := remembers.lineTokens
  cases advances with
  | indent kind _ =>
      cases isNewline.symm.trans kind
  | dedent kind _ _ =>
      cases isNewline.symm.trans kind
  | newline _ present closed =>
      exact ⟨List.length_pos_iff.mp (length ▸ present), by omega⟩
  | lexical kind _ _ =>
      exact absurd isNewline (TokenKind.ne_of_lexical kind rfl)

/-- The end of the input is accepted when nothing is left open. -/
theorem exists_accepts_iff
    (remembers : checker.Remembers tokens)
    (last : token.kind = .eof) :
    (∃ final, checker.Accepts token final) ↔ AtRest tokens := by
  have counts := remembers.parens
  have depth := remembers.depth
  have announced := remembers.announcesBlock_eq
  constructor
  · rintro ⟨final, accepts⟩
    cases accepts with
    | betweenLines _ empty noBlock outside =>
        have none : openSegment tokens = [] :=
          List.length_eq_zero_iff.mp (remembers.lineTokens ▸ empty)
        exact {
          noBlock := fun awaits => by
            simp [remembers.expectIndent.mpr awaits] at noBlock
          parens := by rw [none]; rfl
          noColon := by rw [none]; rfl
          closed := by omega
        }
    | inLine _ present closed noneAnnounced outside =>
        exact {
          noBlock := fun awaits => by
            simp [remembers.lineTokens, awaits.openSegment_eq] at present
          parens := by omega
          noColon := announced ▸ noneAnnounced
          closed := by omega
        }
  · intro atRest
    have outside : checker.depth = 0 := by
      have closed := atRest.closed
      omega
    rcases Nat.eq_zero_or_pos checker.lineTokens with empty | present
    · have noBlock : checker.expectIndent = false := by
        rw [← Bool.not_eq_true, remembers.expectIndent]
        exact atRest.noBlock
      exact ⟨_, .betweenLines last empty noBlock outside⟩
    · have closed : checker.parenDepth = 0 := by
        have parens := atRest.parens
        omega
      exact ⟨_, .inLine last present closed (announced ▸ atRest.noColon) outside⟩

/-- Every segment with tokens is counted, the last one at the end of the input. -/
theorem statements_of_accepts
    (remembers : checker.Remembers tokens)
    (accepts : checker.Accepts token next)
    (present : ∀ segment ∈ closedSegments tokens, segment ≠ []) :
    next.summary.statements = ((segments tokens).filter (· ≠ [])).length := by
  have allPresent :
      (closedSegments tokens).filter (· ≠ []) = closedSegments tokens :=
    List.filter_eq_self.mpr (by simpa using present)
  have length := remembers.lineTokens
  rw [segments_eq, List.filter_append, allPresent, List.length_append,
    ← remembers.statements]
  cases accepts with
  | betweenLines _ empty _ _ =>
      have none : openSegment tokens = [] :=
        List.length_eq_zero_iff.mp (length ▸ empty)
      simp [none]
  | inLine _ begun _ _ _ =>
      have some : openSegment tokens ≠ [] :=
        List.length_pos_iff.mp (length ▸ begun)
      simp [some, nextLine, atLine]

end Remembers

end Checker

theorem push_eq_needMore_iff
    {checker next : Checker}
    {token : Token} :
    parser.push checker token = (.needMore, next) ↔
      checker.Advances token next := by
  rw [← Checker.step_eq_needMore_iff]
  cases answer : checker.step token with
  | mk status state =>
      cases status <;> simp [parser, answer, Status.mapReason]

theorem push_eq_accepted_iff
    {checker final : Checker}
    {token : Token} :
    parser.push checker token = (.accepted, final) ↔
      checker.Accepts token final := by
  rw [← Checker.step_eq_accepted_iff]
  cases answer : checker.step token with
  | mk status state =>
      cases status <;> simp [parser, answer, Status.mapReason]

section

variable {checker final : Checker}
variable {tokens before : List Token}
variable {token eof : Token}

/-- The checker remembers whatever it has taken. -/
theorem remembers_of_takes
    (taken : parser.Takes .start tokens checker) :
    checker.Remembers tokens := by
  induction tokens using List.reverseRecOn generalizing checker with
  | nil =>
      cases taken
      exact Checker.remembers_start
  | append_singleton tokens token inductionHypothesis =>
      obtain ⟨earlier, takenBefore, answer⟩ := Parser.takes_concat_iff.mp taken
      exact (inductionHypothesis takenBefore).concat
        (push_eq_needMore_iff.mp answer)

theorem exists_remembers_of_takes
    (taken : parser.Takes .start tokens checker)
    (early : before <+: tokens) :
    ∃ earlier : Checker, earlier.Remembers before := by
  obtain ⟨after, rfl⟩ := early
  obtain ⟨earlier, takenBefore, _⟩ := Parser.takes_append_iff.mp taken
  exact ⟨earlier, remembers_of_takes takenBefore⟩

/-- Each token that was taken advanced a checker that remembered those before. -/
theorem exists_advances_of_takes
    (taken : parser.Takes .start tokens checker)
    (early : before ++ [token] <+: tokens) :
    ∃ earlier next : Checker,
      earlier.Remembers before ∧ earlier.Advances token next := by
  obtain ⟨after, rfl⟩ := early
  obtain ⟨next, takenFirst, _⟩ := Parser.takes_append_iff.mp taken
  obtain ⟨earlier, takenBefore, answer⟩ := Parser.takes_concat_iff.mp takenFirst
  exact ⟨earlier, next, remembers_of_takes takenBefore,
    push_eq_needMore_iff.mp answer⟩

/-! ### The checker takes what is grammatical -/

/-- A checker that remembers the tokens before takes the next one. -/
theorem exists_advances_of_grammatical
    {after : List Token}
    (grammatical : Grammatical (before ++ token :: after))
    (remembers : checker.Remembers before)
    (notLast : token.kind ≠ .eof) :
    ∃ next, checker.Advances token next := by
  have early : before ++ [token] <+: before ++ token :: after :=
    ⟨after, by simp⟩
  have noBlock : token.kind ≠ .indent → checker.expectIndent = false := by
    intro noIndent
    rw [← Bool.not_eq_true, remembers.expectIndent]
    exact fun awaits => noIndent (grammatical.kind_of_awaitsBlock awaits)
  have counts := remembers.parens
  cases lexical : token.kind.isLayout with
  | false =>
      have noNewline : token.kind ≠ .newline :=
        TokenKind.ne_of_lexical lexical rfl
      obtain ⟨_, isOpen⟩ :=
        segments_concat_inline before noNewline (marksBlock_of_lexical lexical)
      obtain ⟨segment, member, starts⟩ := exists_segment_of_prefix early
      have opened := (grammatical.parens segment member).opened _ starts
      rw [isOpen, countKind_append, countKind_append] at opened
      have closes :
          closeParens [token] ≤ checker.parenDepth + openParens [token] := by
        simp only [closeParens, openParens] at *
        omega
      exact ⟨_, .lexical lexical
        (noBlock (TokenKind.ne_of_lexical lexical rfl)) closes⟩
  | true =>
      cases kind : token.kind with
      | indent =>
          have awaits := grammatical.awaitsBlock_of_indent kind
          exact ⟨_, .indent kind (remembers.expectIndent.mpr awaits)⟩
      | dedent =>
          have depth := remembers.depth
          have opened := grammatical.blocks.opened _ early
          have closes : countKind .dedent [token] = 1 := by
            simp [countKind, kind]
          have opens : countKind .indent [token] = 0 := by
            simp [countKind, kind]
          rw [countKind_append, countKind_append, closes, opens] at opened
          have inside : 0 < checker.depth := by
            omega
          exact ⟨_, .dedent kind (noBlock (by simp [kind])) inside⟩
      | newline =>
          have member := openSegment_mem_closedSegments kind early
          have present := grammatical.present _ member
          have matched :=
            (grammatical.parens _ (List.dropLast_subset _ member)).matched
          have closed : checker.parenDepth = 0 := by
            simp only [closeParens, openParens] at counts
            omega
          have begun : 0 < checker.lineTokens :=
            remembers.lineTokens ▸ List.length_pos_iff.mpr present
          exact ⟨_, .newline kind begun closed⟩
      | eof =>
          exact absurd kind notLast
      | _ =>
          rw [kind] at lexical
          cases lexical

theorem exists_takes_of_grammatical
    (grammatical : Grammatical tokens)
    (notLast : ∀ token ∈ tokens, token.kind ≠ .eof)
    (early : before <+: tokens) :
    ∃ checker, parser.Takes .start before checker := by
  induction before using List.reverseRecOn with
  | nil =>
      exact ⟨_, .nil Checker.start⟩
  | append_singleton before token inductionHypothesis =>
      obtain ⟨checker, taken⟩ :=
        inductionHypothesis ((List.prefix_append _ _).trans early)
      obtain ⟨after, rfl⟩ := early
      rw [List.append_assoc, List.singleton_append] at grammatical notLast
      obtain ⟨next, advances⟩ :=
        exists_advances_of_grammatical grammatical (remembers_of_takes taken)
          (notLast token (by simp))
      exact ⟨next, Parser.takes_concat_iff.mpr
        ⟨checker, taken, push_eq_needMore_iff.mpr advances⟩⟩

/-! ### What the checker takes is grammatical -/

/-- In a segment of tokens that were taken, parentheses match from the left. -/
theorem closeParens_le_of_takes
    {segment part : List Token}
    (taken : parser.Takes .start tokens checker)
    (early : before <+: tokens)
    (isOpen : openSegment before = segment)
    (starts : part <+: segment) :
    closeParens part ≤ openParens part := by
  obtain ⟨earlier, earlierEarly, isPart⟩ :=
    exists_prefix_of_openSegment (isOpen ▸ starts)
  obtain ⟨state, remembers⟩ :=
    exists_remembers_of_takes taken (earlierEarly.trans early)
  have counts := remembers.parens
  rw [isPart] at counts
  omega

theorem grammatical_of_takes
    (taken : parser.Takes .start tokens checker)
    (atRest : AtRest tokens) :
    Grammatical tokens where
  present := by
    intro segment member
    obtain ⟨before, newline, early, isNewline, rfl⟩ :=
      exists_newline_of_mem_closedSegments member
    obtain ⟨earlier, next, remembers, advances⟩ :=
      exists_advances_of_takes taken early
    exact (remembers.openSegment_of_newline advances isNewline).1
  parens := by
    intro segment member
    rw [segments_eq, List.mem_append, List.mem_singleton] at member
    rcases member with closed | isOpen
    · obtain ⟨before, newline, early, isNewline, rfl⟩ :=
        exists_newline_of_mem_closedSegments closed
      obtain ⟨earlier, next, remembers, advances⟩ :=
        exists_advances_of_takes taken early
      exact {
        opened := fun _ starts =>
          closeParens_le_of_takes taken ((List.prefix_append _ _).trans early)
            rfl starts
        matched := (remembers.openSegment_of_newline advances isNewline).2
      }
    · rw [isOpen]
      exact {
        opened := fun _ starts =>
          closeParens_le_of_takes taken (List.prefix_refl tokens) rfl starts
        matched := atRest.parens
      }
  announced := by
    rintro before newline after rfl isNewline
    have awaits :
        endsInColon (openSegment before) = true ↔
          AwaitsBlock (before ++ [newline]) := by
      rw [awaitsBlock_concat_iff, and_iff_right isNewline]
    rw [awaits]
    cases after with
    | nil =>
        simp [atRest.noBlock]
    | cons token after =>
        have early :
            before ++ [newline] ++ [token] <+: before ++ newline :: token :: after :=
          ⟨after, by simp⟩
        obtain ⟨earlier, next, remembers, advances⟩ :=
          exists_advances_of_takes taken early
        simpa using remembers.kind_eq_indent_iff advances
  indents := by
    rintro before indent after rfl isIndent
    have early : before ++ [indent] <+: before ++ indent :: after :=
      ⟨after, by simp⟩
    obtain ⟨earlier, next, remembers, advances⟩ :=
      exists_advances_of_takes taken early
    obtain ⟨_, newline, rfl, isNewline, _⟩ :=
      (remembers.kind_eq_indent_iff advances).mp isIndent
    simp [isNewline]
  last := atRest.noColon
  blocks := {
    opened := by
      intro before early
      obtain ⟨earlier, remembers⟩ := exists_remembers_of_takes taken early
      have depth := remembers.depth
      omega
    matched := atRest.closed
  }

end

end Blocks

open Blocks

/--
The checker accepts exactly the grammatical streams, also among those that no
source gives. It counts their segments with tokens and finds the deepest nesting.
-/
theorem checker_accepts_iff_grammatical
    {tokens : List Token}
    {eof : Token}
    (notLast : ∀ token ∈ tokens, token.kind ≠ .eof)
    (last : eof.kind = .eof) :
    ((∃ checker final,
      parser.Takes parser.initial tokens checker ∧
        parser.push checker eof = (.accepted, final)) ↔
      Grammatical tokens) ∧
    ∀ checker final,
      parser.Takes parser.initial tokens checker →
      parser.push checker eof = (.accepted, final) →
        (parser.release final).1.statements =
            ((segments tokens).filter (· ≠ [])).length ∧
          IsGreatest (nestings tokens) (parser.release final).1.maxDepth := by
  have grammatical :
      ∀ checker final,
        parser.Takes parser.initial tokens checker →
        parser.push checker eof = (.accepted, final) →
          Grammatical tokens := by
    intro checker final taken accepted
    have atRest :=
      ((remembers_of_takes taken).exists_accepts_iff last).mp
        ⟨final, push_eq_accepted_iff.mp accepted⟩
    exact grammatical_of_takes taken atRest
  refine ⟨⟨?_, ?_⟩, ?_⟩
  · rintro ⟨checker, final, taken, accepted⟩
    exact grammatical checker final taken accepted
  · intro isGrammatical
    obtain ⟨checker, taken⟩ :=
      exists_takes_of_grammatical isGrammatical notLast (List.prefix_refl tokens)
    obtain ⟨final, accepts⟩ :=
      ((remembers_of_takes taken).exists_accepts_iff last).mpr
        isGrammatical.atRest
    exact ⟨checker, final, taken, push_eq_accepted_iff.mpr accepts⟩
  · intro checker final taken accepted
    have remembers := remembers_of_takes taken
    have accepts := push_eq_accepted_iff.mp accepted
    refine ⟨?_, ?_⟩
    · exact remembers.statements_of_accepts accepts
        (grammatical checker final taken accepted).present
    · have deepest := remembers.maxDepth
      rw [← accepts.maxDepth_eq] at deepest
      exact deepest

/-- A header and its block, which is closed in the middle of a line. -/
def dedentInLine : List Token :=
  [.punctuation .colon, .newline, .indent, .identifier, .dedent, .number].map
    (⟨·, "", 1, ⟨0, 0⟩⟩)

/-- No source gives these tokens, but they form two lines and a block. -/
theorem checker_accepts_iff_grammatical_dedentInLine :
    (∀ token ∈ dedentInLine, token.kind ≠ .eof) ∧
      Grammatical dedentInLine ∧
      ((segments dedentInLine).filter (· ≠ [])).length = 2 ∧
      IsGreatest (nestings dedentInLine) 1 := by
  have notLast : ∀ token ∈ dedentInLine, token.kind ≠ .eof := by
    decide
  have last : (⟨.eof, "", 1, ⟨0, 0⟩⟩ : Token).kind = .eof := rfl
  obtain ⟨accepts, counts⟩ := checker_accepts_iff_grammatical notLast last
  have taken :
      parser.Takes parser.initial dedentInLine
        ⟨0, 0, 2, some .number, false, ⟨1, 1⟩⟩ :=
    .cons rfl (.cons rfl (.cons rfl (.cons rfl (.cons rfl (.cons rfl (.nil _))))))
  have accepted :
      parser.push ⟨0, 0, 2, some .number, false, ⟨1, 1⟩⟩ ⟨.eof, "", 1, ⟨0, 0⟩⟩ =
        (.accepted, .atLine 0 false ⟨2, 1⟩) :=
    rfl
  obtain ⟨statements, maxDepth⟩ := counts _ _ taken accepted
  exact ⟨notLast, accepts.mp ⟨_, _, taken, accepted⟩, statements.symm, maxDepth⟩

end LayoutLexer
