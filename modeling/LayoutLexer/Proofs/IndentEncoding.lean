import LayoutLexer.Proofs.LineTokens
import LayoutLexer.Proofs.OpenLevels
import LayoutLexer.Proofs.Protocol

namespace LayoutLexer

/-!
# Indents and dedents encode the indentation

The open widths are not part of the tokens, but they can be read off them: an
indent opens a block as wide as its text, and a dedent closes the innermost
block. Replaying the tokens of a session this way gives the open widths at each
of them. A session pushes a part of the stream of its source, so it is enough to
replay the stream, line by line.
-/

/-! ### Replaying tokens -/

/-- What a token does to the open widths, outermost first. -/
def replay (levels : List Nat) (token : Token) : List Nat :=
  match token.kind with
  | .indent => levels ++ [token.text.utf8ByteSize]
  | .dedent => levels.dropLast
  | _ => levels

/-- The open widths behind some tokens. -/
def replayed (tokens : List Token) : List Nat :=
  tokens.foldl replay [0]

/-- Open widths increase strictly, and the top level is one of them. -/
structure Nested (levels : List Nat) : Prop where
  bottom : levels.head? = some 0
  increasing : levels.Pairwise (· < ·)

/-- A token lies in the content of a line. -/
structure Token.StandsOn (token : Token) (line : Line) : Prop where
  sameLine : token.line = line.number
  behindStart : line.offset ≤ token.span.start
  beforeEnd : token.span.stop ≤ line.offset + byteLength line.content

/-- The first token that is not a dedent. -/
def behindDedents (tokens : List Token) : Option Token :=
  tokens.find? (·.kind ≠ .dedent)

/--
What a dedent stands before: a logical line, whose leading run it repeats, or
the end of the source. If a session goes on behind the dedents, it goes on there.
-/
inductive DedentBefore (source : String) (token : Token) (next? : Option Token) :
    Prop where
  | line {line : Line} :
      line ∈ logicalLines source →
      token.StandsOn line →
      token.text = String.ofList line.leadingRun →
      (∀ next ∈ next?, next.kind.isLayout = false ∧ next.StandsOn line) →
      DedentBefore source token next?
  | sourceEnd :
      token.text = "" →
      token.span = ⟨byteLength source.toList, byteLength source.toList⟩ →
      (∀ next ∈ next?, next.kind = .eof) →
      DedentBefore source token next?

/-- A token fits the widths open before it and the tokens behind it. -/
structure Fits
    (source : String)
    (levels : List Nat)
    (token : Token)
    (after : List Token) : Prop where
  nested : Nested (replay levels token)
  lexical :
    token.kind.isLayout = false →
    ∃ line ∈ physicalLines source,
      token.StandsOn line ∧
        levels.getLast? = some (byteLength line.leadingRun)
  dedent : token.kind = .dedent → DedentBefore source token (behindDedents after)
  eof : token.kind = .eof → levels = [0]

/-- Every token fits, when they are replayed from some open widths on. -/
def FitFrom (source : String) (levels : List Nat) (tokens : List Token) : Prop :=
  ∀ before token after,
    tokens = before ++ token :: after →
      Fits source (before.foldl replay levels) token after

section

variable {source : String}
variable {levels : List Nat}
variable {token : Token}
variable {rest tokens : List Token}

theorem replay_indent
    (indent : token.kind = .indent) :
    replay levels token = levels ++ [token.text.utf8ByteSize] := by
  simp [replay, indent]

theorem replay_dedent
    (dedent : token.kind = .dedent) :
    replay levels token = levels.dropLast := by
  simp [replay, dedent]

/-- Only indents and dedents change the open widths. -/
theorem replay_other
    (noIndent : token.kind ≠ .indent)
    (noDedent : token.kind ≠ .dedent) :
    replay levels token = levels := by
  rw [replay]
  split
  · contradiction
  · contradiction
  · rfl

theorem behindDedents_cons
    (dedent : token.kind = .dedent) :
    behindDedents (token :: rest) = behindDedents rest := by
  simp [behindDedents, dedent]

@[simp] theorem behindDedents_replicate
    (dedent : token.kind = .dedent)
    (count : Nat) :
    behindDedents (List.replicate count token ++ rest) =
      behindDedents rest := by
  induction count with
  | zero =>
      rfl
  | succ count inductionHypothesis =>
      rw [List.replicate_succ, List.cons_append, behindDedents_cons dedent,
        inductionHypothesis]

/-! ### Fitting tokens -/

theorem FitFrom.nil : FitFrom source levels [] := by
  intro before token after shape
  simp at shape

theorem FitFrom.cons
    (fits : Fits source levels token rest)
    (others : FitFrom source (replay levels token) rest) :
    FitFrom source levels (token :: rest) := by
  intro before later after shape
  cases before with
  | nil =>
      cases shape
      exact fits
  | cons first between =>
      cases shape
      exact others between later after rfl

/-- A token of layout that closes no block only has to keep widths nested. -/
theorem Fits.of_layout
    (layout : token.kind.isLayout = true)
    (noDedent : token.kind ≠ .dedent)
    (nested : Nested (replay levels token))
    (closed : token.kind = .eof → levels = [0]) :
    Fits source levels token rest where
  nested := nested
  lexical := by
    intro noLayout
    rw [layout] at noLayout
    cases noLayout
  dedent := by
    intro isDedent
    exact absurd isDedent noDedent
  eof := closed

/-- A dedent stands where it does however soon the session ends. -/
theorem DedentBefore.of_isPrefix
    {after : List Token}
    (stands : DedentBefore source token (behindDedents rest))
    (early : after <+: rest) :
    DedentBefore source token (behindDedents after) := by
  cases stands with
  | line member standsOn text behind =>
      refine .line member standsOn text ?_
      intro next found
      exact behind next (early.find?_eq_some found)
  | sourceEnd text span behind =>
      refine .sourceEnd text span ?_
      intro next found
      exact behind next (early.find?_eq_some found)

theorem FitFrom.of_isPrefix
    {earlier : List Token}
    (fit : FitFrom source levels tokens)
    (early : earlier <+: tokens) :
    FitFrom source levels earlier := by
  intro before token after shape
  obtain ⟨later, whole⟩ := early
  have fits : Fits source (before.foldl replay levels) token (after ++ later) :=
    fit before token (after ++ later) (by simp [← whole, shape])
  exact
    { nested := fits.nested
      lexical := fits.lexical
      dedent := fun dedent =>
        (fits.dedent dedent).of_isPrefix (List.prefix_append after later)
      eof := fits.eof }

/-- Fitting tokens keep the open widths nested. -/
theorem FitFrom.nested
    {earlier : List Token}
    (fit : FitFrom source levels tokens)
    (start : Nested levels)
    (early : earlier <+: tokens) :
    Nested (earlier.foldl replay levels) := by
  rcases List.eq_nil_or_concat earlier with isEmpty | ⟨before, token, isConcat⟩
  · rw [isEmpty]
    exact start
  · obtain ⟨after, whole⟩ := early
    have fits := fit before token after (by simp [← whole, isConcat])
    rw [isConcat, List.concat_eq_append, List.foldl_append]
    exact fits.nested

end

/-! ### Runs of tokens -/

namespace Nested

variable {levels : List Nat}

theorem topLevel : Nested [0] :=
  ⟨rfl, List.pairwise_singleton (· < ·) 0⟩

theorem ne_nil
    (nested : Nested levels) :
    levels ≠ [] := by
  intro isEmpty
  have bottom := nested.bottom
  simp [isEmpty] at bottom

theorem take
    (nested : Nested levels)
    {count : Nat}
    (positive : 0 < count) :
    Nested (levels.take count) where
  bottom := by
    rw [List.head?_take, if_neg (by omega)]
    exact nested.bottom
  increasing := nested.increasing.sublist (List.take_sublist count levels)

theorem levels_of_ordered
    {indentation : Indentation}
    (ordered : indentation.Ordered) :
    Nested indentation.levels :=
  ⟨indentation.head?_levels, ordered⟩

end Nested

section

variable {source : String}
variable {levels : List Nat}
variable {rest : List Token}

/-- Dedents close as many blocks, and never the top level. -/
theorem fitFrom_dedents
    {token : Token}
    {closed : Nat}
    (nested : Nested levels)
    (dedent : token.kind = .dedent)
    (within : closed < levels.length)
    (stands : DedentBefore source token (behindDedents rest))
    (others : FitFrom source (levels.take (levels.length - closed)) rest) :
    FitFrom source levels (List.replicate closed token ++ rest) := by
  -- Each dedent pops one width. Fewer are popped than are open, so the zero at
  -- the bottom stays.
  induction closed generalizing levels with
  | zero =>
      simpa using others
  | succ closed inductionHypothesis =>
      have popped : replay levels token = levels.take (levels.length - 1) := by
        rw [replay_dedent dedent, List.dropLast_eq_take]
      have stillNested : Nested (levels.take (levels.length - 1)) :=
        nested.take (by omega)
      have shorter :
          (levels.take (levels.length - 1)).length = levels.length - 1 := by
        simp
      rw [List.replicate_succ, List.cons_append]
      refine .cons ⟨popped ▸ stillNested, ?_, ?_, ?_⟩ ?_
      · intro noLayout
        simp [dedent, TokenKind.isLayout] at noLayout
      · intro _
        rw [behindDedents_replicate dedent]
        exact stands
      · intro isEof
        simp [dedent] at isEof
      · rw [popped]
        refine inductionHypothesis stillNested (by omega) ?_
        rw [shorter, List.take_take, Nat.min_eq_left (by omega), Nat.sub_sub,
          Nat.add_comm 1 closed]
        exact others

/-- The lexical tokens of a line stand in a block as wide as the line. -/
theorem fitFrom_lexical
    {line : Line}
    {tokens : List Token}
    (nested : Nested levels)
    (member : line ∈ physicalLines source)
    (top : levels.getLast? = some (byteLength line.leadingRun))
    (standing :
      ∀ token ∈ tokens,
        token.kind.isLayout = false ∧ token.StandsOn line)
    (others : FitFrom source levels rest) :
    FitFrom source levels (tokens ++ rest) := by
  induction tokens with
  | nil =>
      exact others
  | cons token tokens inductionHypothesis =>
      obtain ⟨noLayout, standsOn⟩ := standing token List.mem_cons_self
      have kept : replay levels token = levels := by
        apply replay_other
        · exact TokenKind.ne_of_lexical noLayout rfl
        · exact TokenKind.ne_of_lexical noLayout rfl
      have later :=
        inductionHypothesis fun other otherMember =>
          standing other (List.mem_cons_of_mem token otherMember)
      refine .cons ⟨kept.symm ▸ nested, ?_, ?_, ?_⟩ (kept.symm ▸ later)
      · intro _
        exact ⟨line, member, standsOn, top⟩
      · intro isDedent
        exact absurd isDedent (TokenKind.ne_of_lexical noLayout rfl)
      · intro isEof
        exact absurd isEof (TokenKind.ne_of_lexical noLayout rfl)

end

/-! ### Lines -/

namespace Line

variable {source : String}
variable {line : Line}

/-- A token made of the leading run of a line stands on the line. -/
theorem standsOn_start
    (line : Line)
    (kind : TokenKind) :
    (line.start.token kind line.width).StandsOn line where
  sameLine := rfl
  behindStart := Nat.le_refl line.offset
  beforeEnd := by
    have split := byteLength_take_add_drop line.content line.width
    simp only [Cursor.token, Cursor.spanOf, start]
    omega

theorem standsOn_of_mem_lexed
    {token : Token}
    (member : token ∈ line.lexed.tokens) :
    token.StandsOn line := by
  obtain ⟨behindStart, beforeEnd⟩ := span_of_mem_lexemes member
  exact ⟨line_of_mem_lexemes member, behindStart, beforeEnd⟩

/-- The width of a line opens and closes the blocks that it should. -/
theorem fitFrom_layout
    {indentation resolved : Indentation}
    {change : IndentChange}
    {rest : List Token}
    (ordered : indentation.Ordered)
    (resolves : indentation.Resolves line.width change resolved)
    (member : line ∈ logicalLines source)
    (behind :
      ∀ next ∈ behindDedents rest,
        next.kind.isLayout = false ∧ next.StandsOn line)
    (others : FitFrom source resolved.levels rest) :
    FitFrom source indentation.levels
      (pushedBy (line.layout change) ++ rest) := by
  have nested : Nested indentation.levels :=
    .levels_of_ordered ordered
  have resolvedNested : Nested resolved.levels :=
    .levels_of_ordered (resolves.ordered ordered)
  cases resolves with
  | unchanged same =>
      exact others
  | indent wider levels =>
      have opened :
          replay indentation.levels (line.start.token .indent line.width) =
            resolved.levels := by
        rw [replay_indent rfl, levels]
        simp [Cursor.token, start, take_width, utf8ByteSize_ofList,
          byteLength_leadingRun]
      simp only [layout, pushedBy_note, pushedBy_push, pushedBy_nil,
        List.cons_append, List.nil_append]
      refine .cons ?_ (opened ▸ others)
      exact .of_layout rfl TokenKind.noConfusion (opened ▸ resolvedNested)
        TokenKind.noConfusion
  | @dedent closed _ narrower positive within levels top =>
      simp only [layout, pushedBy_note, pushedBy_replicate_push]
      refine fitFrom_dedents nested rfl ?_ ?_ (levels ▸ others)
      · rw [Indentation.length_levels]
        exact Nat.lt_succ_of_le within
      · refine .line member (line.standsOn_start .dedent) ?_ behind
        rw [← take_width]
        rfl

end Line

/-- Lexical tokens come right behind the dedents before them. -/
theorem mem_of_behindDedents_append
    {tokens rest : List Token}
    {next : Token}
    (lexical : ∀ token ∈ tokens, token.kind.isLayout = false)
    (present : tokens = [] → rest = [])
    (found : behindDedents (tokens ++ rest) = some next) :
    next ∈ tokens := by
  cases tokens with
  | nil =>
      rw [present rfl] at found
      cases found
  | cons token tokens =>
      have noDedent : token.kind ≠ .dedent :=
        TokenKind.ne_of_lexical (lexical token List.mem_cons_self) rfl
      have isFirst : token = next := by
        simpa [behindDedents, noDedent] using found
      exact isFirst ▸ List.mem_cons_self

/-- The terminator of a line changes no open width. -/
theorem Line.fitFrom_newline
    {source : String}
    {line : Line}
    {levels : List Nat}
    {rest : List Token}
    (nested : Nested levels)
    (others : FitFrom source levels rest) :
    FitFrom source levels (pushedBy line.newline ++ rest) := by
  rw [newline]
  split
  · exact others
  · refine .cons ?_ others
    exact .of_layout rfl TokenKind.noConfusion nested TokenKind.noConfusion

/-- At the end of the source all blocks are closed. -/
theorem fitFrom_closingTokens
    {source : String}
    {indentation : Indentation}
    (ordered : indentation.Ordered) :
    FitFrom source indentation.levels (closingTokens source indentation) := by
  have outermost :
      indentation.levels.take
        (indentation.levels.length - indentation.depth) = [0] := by
    rw [Indentation.length_levels, Nat.add_sub_cancel_left]
    rfl
  refine fitFrom_dedents (.levels_of_ordered ordered) rfl ?_ ?_ ?_
  · rw [Indentation.length_levels]
    exact Nat.lt_succ_self indentation.depth
  · refine .sourceEnd rfl rfl ?_
    intro next found
    cases found
    rfl
  · rw [outermost]
    refine .cons ?_ .nil
    exact .of_layout rfl TokenKind.noConfusion .topLevel fun _ => rfl

/-- The tokens of some logical lines fit the widths open before them. -/
theorem fitFrom_streamFrom
    {source : String}
    {lines : List Line}
    {indentation : Indentation}
    (logical : ∀ line ∈ lines, line ∈ logicalLines source)
    (ordered : indentation.Ordered) :
    FitFrom source indentation.levels (streamFrom source lines indentation) := by
  induction lines generalizing indentation with
  | nil =>
      exact fitFrom_closingTokens ordered
  | cons line others inductionHypothesis =>
      obtain ⟨member, logicalOthers⟩ := List.forall_mem_cons.mp logical
      obtain ⟨physical, isLogical⟩ := isLogical_of_mem_logicalLines member
      rw [streamFrom]
      split
      · exact .nil
      · rename_i change resolved found
        have resolves := Indentation.resolves_of_resolve found
        have resolvedOrdered := resolves.ordered ordered
        have top :
            resolved.levels.getLast? = some (byteLength line.leadingRun) := by
          rw [resolved.getLast?_levels, resolves.top_eq,
            line.byteLength_leadingRun]
        have standing :
            ∀ token ∈ line.lexed.tokens,
              token.kind.isLayout = false ∧ token.StandsOn line :=
          fun token tokenMember =>
            ⟨isLayout_of_mem_lexemes tokenMember,
              Line.standsOn_of_mem_lexed tokenMember⟩
        apply Line.fitFrom_layout ordered resolves member
        · intro next behind
          refine standing next (mem_of_behindDedents_append
            (fun token tokenMember => (standing token tokenMember).1) ?_ behind)
          intro isEmpty
          split
          · rfl
          · rename_i complete
            exact absurd isEmpty (Line.lexed_tokens_ne_nil isLogical complete)
        · apply fitFrom_lexical (.levels_of_ordered resolvedOrdered) physical
            top standing
          split
          · exact .nil
          · exact Line.fitFrom_newline (.levels_of_ordered resolvedOrdered)
              (inductionHypothesis logicalOthers resolvedOrdered)

/-- Every token of a stream fits. -/
theorem fitFrom_stream
    (source : String) :
    FitFrom source [0] (stream source) := by
  rw [stream_eq_streamFrom]
  exact fitFrom_streamFrom (fun _ member => member) Indentation.ordered_topLevel

/-! ### Balance -/

/-- An open width is left for each indent that no dedent has closed. -/
theorem length_replay
    {levels : List Nat}
    {token : Token}
    (kept : replay levels token ≠ []) :
    (replay levels token).length + countKind .dedent [token] =
      levels.length + countKind .indent [token] := by
  by_cases isIndent : token.kind = .indent
  · simp [replay_indent isIndent, countKind, isIndent]
  · by_cases isDedent : token.kind = .dedent
    · rw [replay_dedent isDedent] at kept ⊢
      have remaining : 0 < levels.dropLast.length :=
        List.length_pos_iff.mpr kept
      rw [List.length_dropLast] at remaining ⊢
      simp [countKind, isDedent]
      omega
    · simp [replay_other isIndent isDedent, countKind, isIndent, isDedent]

theorem length_foldl_replay
    {levels : List Nat}
    {tokens : List Token}
    (kept : ∀ earlier, earlier <+: tokens → earlier.foldl replay levels ≠ []) :
    (tokens.foldl replay levels).length + countKind .dedent tokens =
      levels.length + countKind .indent tokens := by
  induction tokens generalizing levels with
  | nil =>
      rfl
  | cons token rest inductionHypothesis =>
      have first := length_replay (kept [token] (by simp))
      have others :
          (rest.foldl replay (replay levels token)).length + countKind .dedent rest =
            (replay levels token).length + countKind .indent rest := by
        apply inductionHypothesis
        intro earlier early
        exact kept (token :: earlier) (List.cons_prefix_cons.mpr ⟨rfl, early⟩)
      rw [List.foldl_cons, countKind_cons .indent token rest,
        countKind_cons .dedent token rest]
      omega

/-- Tokens that fit and end the input are balanced. -/
theorem FitFrom.balanced
    {source : String}
    {before : List Token}
    {eof : Token}
    (fit : FitFrom source [0] (before ++ [eof]))
    (last : eof.kind = .eof) :
    Balanced .indent .dedent (before ++ [eof]) := by
  have counted :
      ∀ earlier, earlier <+: before ++ [eof] →
        (replayed earlier).length + countKind .dedent earlier = 1 + countKind .indent earlier := by
    intro earlier early
    refine length_foldl_replay ?_
    intro part partEarly
    exact (fit.nested .topLevel (partEarly.trans early)).ne_nil
  constructor
  · intro earlier early
    have remaining : 0 < (replayed earlier).length :=
      List.length_pos_iff.mpr (fit.nested .topLevel early).ne_nil
    have soFar := counted earlier early
    omega
  · have closed : replayed before = [0] :=
      (fit before eof [] rfl).eof last
    have ended : replayed (before ++ [eof]) = [0] := by
      rw [replayed, List.foldl_append]
      change replay (replayed before) eof = [0]
      rw [closed, replay_other (by simp [last]) (by simp [last])]
    have total := counted (before ++ [eof]) (List.prefix_refl _)
    rw [ended, List.length_singleton] at total
    omega

/--
The indents and dedents that a session pushes encode the indentation of its
source. Replaying them never closes the top level and keeps the open widths
increasing; each lexical token stands in a block as wide as its line; a dedent
repeats the leading run of the line it stands before; and at the end of the
input only the top level is open. In the tokens of a source they are balanced.
-/
theorem layout_encodes_indentation
    (parser : Parser σ ω)
    (source : String) :
    (∀ earlier, earlier <+: pushedTokens parser source →
      Nested (replayed earlier)) ∧
    (∀ before token after,
      pushedTokens parser source = before ++ token :: after →
        Fits source (replayed before) token after) ∧
    (∀ tokens, lex source = .ok tokens → Balanced .indent .dedent tokens) := by
  have fit : FitFrom source [0] (pushedTokens parser source) :=
    (fitFrom_stream source).of_isPrefix (pushedTokens_isPrefix parser source)
  refine ⟨?_, fit, ?_⟩
  · intro earlier early
    exact fit.nested .topLevel early
  · intro tokens lexed
    obtain ⟨before, eof, whole, shape, last, _⟩ := exists_eof_of_lex lexed
    rw [shape]
    have streamFit : FitFrom source [0] (before ++ [eof]) := by
      rw [← shape, ← whole]
      exact fitFrom_stream source
    exact streamFit.balanced last

end LayoutLexer
