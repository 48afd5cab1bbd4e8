import LayoutLexer.Proofs.Coverage
import Mathlib.Computability.Language

namespace LayoutLexer

open scoped Computability

/-!
# The shape of a stream

The kinds of the tokens of a source form a word of a regular language. Each
logical line is one indent or some dedents, then at least one lexical kind, then
a line end, which only the last line may lack. Dedents and the end of the input
close the stream. There are as many such groups as the source has logical lines.

So a parser never meets an empty line, a line that both opens and closes blocks,
or anything behind the end of the input.
-/

/-! ### The language -/

/-- One lexical kind. -/
def lexicalWords : Language TokenKind :=
  {word | ∃ kind, word = [kind] ∧ kind.isLayout = false}

/-- A logical line without its line end. -/
def lineWords : Language TokenKind :=
  ({[.indent]} + {[.dedent]}∗) * (lexicalWords * lexicalWords∗)

/-- What the end of a source contributes. -/
def closingWords : Language TokenKind :=
  {[.dedent]}∗ * {[.eof]}

/-- Terminated lines, possibly a line without a line end, and the end. -/
def streamWords : Language TokenKind :=
  (lineWords * {[.newline]})∗ * ((1 + lineWords) * closingWords)

/-- The same words, with the number of lines of either sort. -/
def countedWords (terminated unterminated : Nat) : Language TokenKind :=
  (lineWords * {[.newline]}) ^ terminated *
    (lineWords ^ unterminated * closingWords)

/-- The number of logical lines that have a terminator. -/
def terminatedLines (lines : List Line) : Nat :=
  lines.countP (·.terminator ≠ [])

/-- The number of logical lines that have none. -/
def unterminatedLines (lines : List Line) : Nat :=
  lines.countP (·.terminator = [])

/-- What can be relied on in the tokens of a source. -/
structure StreamShape (source : String) (tokens : List Token) : Prop where
  /-- The kinds follow the grammar. -/
  word : tokens.map Token.kind ∈ streamWords
  /-- There is one group for each logical line. -/
  counted :
    ∃ terminated unterminated,
      unterminated ≤ 1 ∧
        terminated + unterminated =
          ((physicalLines source).filter Line.isLogical).length ∧
        tokens.map Token.kind ∈ countedWords terminated unterminated
  /-- There is one line end for each logical line with a terminator. -/
  newlines : countKind .newline tokens = terminatedLines (logicalLines source)
  /-- The end of the input comes once, and last. -/
  eof :
    ∃ before eof,
      tokens = before ++ [eof] ∧
        eof.kind = .eof ∧ ∀ token ∈ before, token.kind ≠ .eof
  /-- Lexical tokens have a text. -/
  lexical : ∀ token ∈ tokens, token.kind.isLayout = false → token.text ≠ ""
  /-- Line ends have the text of a terminator. -/
  newline :
    ∀ token ∈ tokens,
      token.kind = .newline → token.text = "\n" ∨ token.text = "\r\n"
  /-- Without leading blanks no block is opened or closed. -/
  flat :
    (∀ line ∈ logicalLines source, line.leadingRun = []) →
      ∀ token ∈ tokens, token.kind ≠ .indent ∧ token.kind ≠ .dedent

/-! ### Words of a line -/

theorem replicate_mem_kstar
    (kind : TokenKind)
    (count : Nat) :
    List.replicate count kind ∈ ({[kind]} : Language TokenKind)∗ := by
  apply Language.mem_kstar.mpr
  refine ⟨List.replicate count [kind], by simp, ?_⟩
  intro word member
  exact List.eq_of_mem_replicate member

/-- Lexical tokens, of which there is one, form the words of a content. -/
theorem lexical_mem_lexicalWords
    {tokens : List Token}
    (present : tokens ≠ [])
    (lexical : ∀ token ∈ tokens, token.kind.isLayout = false) :
    tokens.map Token.kind ∈ lexicalWords * lexicalWords∗ := by
  obtain ⟨first, others, rfl⟩ := List.exists_cons_of_ne_nil present
  obtain ⟨firstLexical, othersLexical⟩ := List.forall_mem_cons.mp lexical
  apply Language.mem_mul.mpr
  refine ⟨[first.kind], ⟨_, rfl, firstLexical⟩, others.map Token.kind, ?_, rfl⟩
  apply Language.mem_kstar.mpr
  refine ⟨others.map fun token => [token.kind], ?_, ?_⟩
  · rw [← List.flatMap_def, List.map_eq_flatMap]
  · intro word member
    obtain ⟨token, isMember, rfl⟩ := List.mem_map.mp member
    exact ⟨_, rfl, othersLexical token isMember⟩

namespace Line

variable {line : Line}

/-- A width opens one block or closes some; it never does both. -/
theorem kinds_layout_mem
    (line : Line)
    (change : IndentChange) :
    (pushedBy (line.layout change)).map Token.kind ∈
      ({[.indent]} + {[.dedent]}∗ : Language TokenKind) := by
  apply (Language.mem_add _ _ _).mpr
  cases change with
  | unchanged =>
      exact .inr (Language.nil_mem_kstar _)
  | indent =>
      exact .inl rfl
  | dedent closed =>
      right
      simp only [layout, pushedBy_note, pushedBy_replicate_push,
        List.map_replicate]
      exact replicate_mem_kstar .dedent closed

/-- A logical line that is read to its end is a word, up to its terminator. -/
theorem kinds_mem_lineWords
    (logical : line.isLogical = true)
    (complete : line.lexed.error? = none)
    (change : IndentChange) :
    (pushedBy (line.layout change) ++ line.lexed.tokens).map Token.kind ∈
      lineWords := by
  have lexical :=
    lexical_mem_lexicalWords (lexed_tokens_ne_nil logical complete)
      fun _ member => isLayout_of_mem_lexemes member
  rw [List.map_append]
  exact Language.append_mem_mul (line.kinds_layout_mem change) lexical

theorem kinds_tokens_of_terminated
    (terminated : line.terminator ≠ [])
    (change : IndentChange) :
    (line.tokens change).map Token.kind =
      (pushedBy (line.layout change) ++ line.lexed.tokens).map Token.kind ++
        [.newline] := by
  rw [tokens, newline_of_terminated terminated, ← List.append_assoc,
    List.map_append]
  rfl

theorem tokens_of_unterminated
    (unterminated : line.terminator = [])
    (change : IndentChange) :
    line.tokens change =
      pushedBy (line.layout change) ++ line.lexed.tokens := by
  simp [tokens, newline, unterminated]

/-- A line has one line end if it has a terminator, and none otherwise. -/
theorem countKind_newline_tokens
    (line : Line)
    (change : IndentChange) :
    countKind .newline (line.tokens change) = terminatedLines [line] := by
  have noneBefore :
      countKind .newline
        (pushedBy (line.layout change) ++ line.lexed.tokens) = 0 := by
    apply List.countP_eq_zero.mpr
    intro token member
    rcases List.mem_append.mp member with laidOut | lexical
    · rcases kind_of_mem_layout laidOut with kind | kind <;> simp [kind]
    · have noNewline : token.kind ≠ .newline :=
        TokenKind.ne_of_lexical (isLayout_of_mem_lexemes lexical) rfl
      simp [noNewline]
  rw [tokens, ← List.append_assoc, countKind_append, noneBefore, Nat.zero_add]
  by_cases terminated : line.terminator = []
  · simp [newline, terminated, terminatedLines, countKind]
  · rw [newline_of_terminated terminated]
    simp [terminatedLines, countKind, terminated, Cursor.token]

end Line

/-! ### Words of several lines -/

section

variable {lines : List Line}
variable {changes : List IndentChange}

theorem terminatedLines_add_unterminatedLines
    (lines : List Line) :
    terminatedLines lines + unterminatedLines lines = lines.length := by
  have split :=
    List.length_eq_countP_add_countP (l := lines) fun line => line.terminator ≠ []
  simpa [terminatedLines, unterminatedLines] using split.symm

/-- Only one line can lack a terminator. -/
theorem unterminatedLines_le_one
    (ends : lines.Pairwise fun line _ => line.terminator ≠ []) :
    unterminatedLines lines ≤ 1 := by
  induction lines with
  | nil =>
      exact Nat.zero_le 1
  | cons line others inductionHypothesis =>
      obtain ⟨terminated, endsBehind⟩ := List.pairwise_cons.mp ends
      cases others with
      | nil =>
          exact List.countP_le_length
      | cons next others =>
          have first : line.terminator ≠ [] :=
            terminated next List.mem_cons_self
          have behind := inductionHypothesis endsBehind
          rwa [unterminatedLines, List.countP_cons_of_neg (by simpa using first)]

/-- The tokens of complete lines are as many words as there are lines. -/
theorem kinds_groups_mem
    (logical : ∀ line ∈ lines, line.isLogical = true)
    (complete : ∀ line ∈ lines, line.lexed.error? = none)
    (ends : lines.Pairwise fun line _ => line.terminator ≠ [])
    (length : changes.length = lines.length) :
    (List.zipWith Line.tokens lines changes).flatten.map Token.kind ∈
      (lineWords * {[.newline]}) ^ terminatedLines lines *
        lineWords ^ unterminatedLines lines := by
  induction lines generalizing changes with
  | nil =>
      rw [List.zipWith_nil_left]
      exact Language.append_mem_mul Language.nil_mem_one Language.nil_mem_one
  | cons line others inductionHypothesis =>
      obtain ⟨isLogical, othersLogical⟩ := List.forall_mem_cons.mp logical
      obtain ⟨isComplete, othersComplete⟩ := List.forall_mem_cons.mp complete
      obtain ⟨endsBefore, endsBehind⟩ := List.pairwise_cons.mp ends
      cases changes with
      | nil =>
          cases length
      | cons change changes =>
          have word := Line.kinds_mem_lineWords isLogical isComplete change
          rw [List.zipWith_cons_cons, List.flatten_cons, List.map_append]
          by_cases terminated : line.terminator = []
          · -- Nothing comes behind a line that has no terminator.
            have isLast : others = [] := by
              cases others with
              | nil =>
                  rfl
              | cons next later =>
                  exact absurd terminated (endsBefore next List.mem_cons_self)
            subst isLast
            rw [Line.tokens_of_unterminated terminated]
            simpa [terminatedLines, unterminatedLines, terminated] using word
          · have behind :=
              inductionHypothesis othersLogical othersComplete endsBehind
                (Nat.succ.inj length)
            have counts :
                terminatedLines (line :: others) = terminatedLines others + 1 ∧
                  unterminatedLines (line :: others) =
                    unterminatedLines others := by
              simp [terminatedLines, unterminatedLines, terminated]
            rw [counts.1, counts.2, pow_succ', mul_assoc,
              Line.kinds_tokens_of_terminated terminated]
            exact Language.append_mem_mul
              (Language.append_mem_mul word rfl) behind

theorem countKind_newline_groups
    (length : changes.length = lines.length) :
    countKind .newline (List.zipWith Line.tokens lines changes).flatten =
      terminatedLines lines := by
  induction lines generalizing changes with
  | nil =>
      rfl
  | cons line others inductionHypothesis =>
      cases changes with
      | nil =>
          cases length
      | cons change changes =>
          rw [List.zipWith_cons_cons, List.flatten_cons, countKind_append,
            line.countKind_newline_tokens,
            inductionHypothesis (Nat.succ.inj length), terminatedLines,
            terminatedLines, ← List.countP_append]
          rfl

end

theorem kinds_closingTokens_mem
    (source : String)
    (indentation : Indentation) :
    (closingTokens source indentation).map Token.kind ∈ closingWords := by
  rw [closingTokens, List.map_append, List.map_replicate]
  exact Language.append_mem_mul (replicate_mem_kstar .dedent _) rfl

/-- Counting the lines only tells words of the grammar apart. -/
theorem mem_streamWords_of_counted
    {word : List TokenKind}
    {terminated unterminated : Nat}
    (atMostOne : unterminated ≤ 1)
    (counted : word ∈ countedWords terminated unterminated) :
    word ∈ streamWords := by
  obtain ⟨lines, linesWord, rest, restWord, rfl⟩ := Language.mem_mul.mp counted
  obtain ⟨last, lastWord, closing, closingWord, rfl⟩ :=
    Language.mem_mul.mp restWord
  have repeated : lines ∈ (lineWords * {[.newline]})∗ := by
    rw [Language.kstar_eq_iSup_pow]
    exact Language.mem_iSup.mpr ⟨terminated, linesWord⟩
  have optional : last ∈ 1 + lineWords := by
    apply (Language.mem_add _ _ _).mpr
    rcases Nat.le_one_iff_eq_zero_or_eq_one.mp atMostOne with none | one
    · rw [none, pow_zero] at lastWord
      exact .inl lastWord
    · rw [one, pow_one] at lastWord
      exact .inr lastWord
  exact Language.append_mem_mul repeated
    (Language.append_mem_mul optional closingWord)

/-! ### Texts -/

section

variable {source : String}
variable {line : Line}
variable {token : Token}

/-- A lexical token of a line has a text. -/
theorem Line.text_ne_empty
    (member : token ∈ line.lexed.tokens) :
    token.text ≠ "" := by
  obtain ⟨count, kind, length, isToken, longest⟩ :=
    exists_match_of_mem_lexemes member
  have positive := longestMatch_nonempty _ _ kind length longest
  have within := length_le_of_longestMatch longest
  have present : ((line.start.advance count).rest.take length).length ≠ 0 := by
    rw [List.length_take_of_le within]
    exact Nat.ne_of_gt positive
  intro isEmpty
  rw [isToken, Cursor.token, String.ofList_eq_empty_iff] at isEmpty
  exact present (congrArg List.length isEmpty)

/-- A line end has the text of one of the two terminators. -/
theorem Line.StandsIn.text_newline
    (stands : line.StandsIn source)
    (terminated : line.terminator ≠ []) :
    (line.ending.token .newline line.terminator.length).text = "\n" ∨
      (line.ending.token .newline line.terminator.length).text = "\r\n" := by
  obtain ⟨_, _, _, _, first, _⟩ := stands
  have text :
      (line.ending.token .newline line.terminator.length).text =
        String.ofList line.terminator := by
    simp [Cursor.token, Line.ending]
  have isTerminator := (first.terminator_of_ne_nil terminated).1
  rw [text]
  generalize line.terminator = terminator at isTerminator ⊢
  cases isTerminator with
  | lineFeed =>
      exact .inl rfl
  | returnFeed =>
      exact .inr rfl

theorem text_ne_empty_of_mem_stream
    (member : token ∈ stream source)
    (lexical : token.kind.isLayout = false) :
    token.text ≠ "" := by
  rw [stream_eq_streamFrom] at member
  rcases emits_of_mem_streamFrom member with
    ⟨line, _, emits⟩ | ⟨kind, isDedent | isEof, atEnd⟩
  · cases emits with
    | layout isLayout =>
        rcases isLayout with rfl | rfl <;> cases lexical
    | lexical found =>
        exact Line.text_ne_empty found
    | newline =>
        cases lexical
  · rw [atEnd, isDedent] at lexical
    cases lexical
  · rw [atEnd, isEof] at lexical
    cases lexical

theorem text_newline_of_mem_stream
    (member : token ∈ stream source)
    (isNewline : token.kind = .newline) :
    token.text = "\n" ∨ token.text = "\r\n" := by
  rw [stream_eq_streamFrom] at member
  rcases emits_of_mem_streamFrom member with
    ⟨line, logical, emits⟩ | ⟨kind, isDedent | isEof, atEnd⟩
  · cases emits with
    | layout isLayout =>
        rcases isLayout with rfl | rfl <;> cases isNewline
    | lexical found =>
        exact absurd isNewline
          (TokenKind.ne_of_lexical (isLayout_of_mem_lexemes found) rfl)
    | newline terminated =>
        exact (standsIn_of_mem_logicalLines logical).text_newline terminated
  · rw [atEnd, isDedent] at isNewline
    cases isNewline
  · rw [atEnd, isEof] at isNewline
    cases isNewline

end

/-! ### Sources without blocks -/

/-- Lines without leading blanks leave the top level alone. -/
theorem Indentation.resolveAll_zeros
    {widths : List Nat}
    (zeros : ∀ width ∈ widths, width = 0) :
    topLevel.resolveAll widths =
      .ok (widths.map fun _ => .unchanged, topLevel) := by
  induction widths with
  | nil =>
      rfl
  | cons width widths inductionHypothesis =>
      obtain ⟨isZero, othersZero⟩ := List.forall_mem_cons.mp zeros
      rw [isZero]
      exact resolveAll_cons_eq_ok_iff.mpr
        ⟨.unchanged, topLevel, _, rfl, inductionHypothesis othersZero, rfl⟩

theorem Line.kind_of_mem_tokens_unchanged
    {line : Line}
    {token : Token}
    (member : token ∈ line.tokens .unchanged) :
    token.kind ≠ .indent ∧ token.kind ≠ .dedent := by
  rcases List.mem_append.mp member with laidOut | rest
  · cases laidOut
  · rcases List.mem_append.mp rest with lexical | ending
    · have noLayout := isLayout_of_mem_lexemes lexical
      exact ⟨TokenKind.ne_of_lexical noLayout rfl,
        TokenKind.ne_of_lexical noLayout rfl⟩
    · rw [kind_of_mem_newline ending]
      exact ⟨TokenKind.noConfusion, TokenKind.noConfusion⟩

/-- Where no logical line is indented, no token opens or closes a block. -/
theorem kind_of_mem_lex_of_flat
    {source : String}
    {tokens : List Token}
    {token : Token}
    (lexed : lex source = .ok tokens)
    (flat : ∀ line ∈ logicalLines source, line.leadingRun = [])
    (member : token ∈ tokens) :
    token.kind ≠ .indent ∧ token.kind ≠ .dedent := by
  obtain ⟨changes, final, applied, _, rfl⟩ := lex_eq_ok_iff.mp lexed
  have zeros : ∀ width ∈ (logicalLines source).map Line.width, width = 0 := by
    intro width isWidth
    obtain ⟨line, isLine, rfl⟩ := List.mem_map.mp isWidth
    rw [← line.byteLength_leadingRun, flat line isLine, byteLength_nil]
  rw [Indentation.resolveAll_zeros zeros, List.map_map] at applied
  cases applied
  rcases List.mem_append.mp member with inLines | closing
  · obtain ⟨group, isGroup, inGroup⟩ := List.mem_flatten.mp inLines
    rw [List.zipWith_map_right, List.zipWith_self] at isGroup
    obtain ⟨line, _, rfl⟩ := List.mem_map.mp isGroup
    exact Line.kind_of_mem_tokens_unchanged inGroup
  · have isEof : token = (sourceEnd source).token .eof 0 :=
      List.mem_singleton.mp closing
    rw [isEof]
    exact ⟨TokenKind.noConfusion, TokenKind.noConfusion⟩

/-! ### Sources -/

/-- The kinds of the tokens of a source, with the numbers of its lines. -/
theorem kinds_mem_countedWords
    {source : String}
    {tokens : List Token}
    (lexed : lex source = .ok tokens) :
    tokens.map Token.kind ∈
      countedWords (terminatedLines (logicalLines source))
        (unterminatedLines (logicalLines source)) := by
  obtain ⟨changes, final, applied, noErrors, rfl⟩ := lex_eq_ok_iff.mp lexed
  have length : changes.length = (logicalLines source).length := by
    rw [Indentation.length_of_resolveAll applied, List.length_map]
  have groups :=
    kinds_groups_mem
      (fun _ member => (isLogical_of_mem_logicalLines member).2) noErrors
      (logicalLines_terminated source) length
  rw [List.map_append, countedWords, ← mul_assoc]
  exact Language.append_mem_mul groups (kinds_closingTokens_mem source final)

theorem countKind_newline_of_lex
    {source : String}
    {tokens : List Token}
    (lexed : lex source = .ok tokens) :
    countKind .newline tokens = terminatedLines (logicalLines source) := by
  obtain ⟨changes, final, applied, _, rfl⟩ := lex_eq_ok_iff.mp lexed
  have length : changes.length = (logicalLines source).length := by
    rw [Indentation.length_of_resolveAll applied, List.length_map]
  have noneBehind : countKind .newline (closingTokens source final) = 0 := by
    simp [countKind, closingTokens, Cursor.token, List.countP_replicate]
  rw [countKind_append, countKind_newline_groups length, noneBehind,
    Nat.add_zero]

/--
The tokens of a source have a fixed shape. Their kinds are one group for each
logical line and dedents and the end of the input behind them; a group is an
indent or dedents, lexical kinds, and a line end unless the source ends there.
-/
theorem tokens_shaped
    {source : String}
    {tokens : List Token}
    (lexed : lex source = .ok tokens) :
    StreamShape source tokens := by
  have counted := kinds_mem_countedWords lexed
  have atMostOne := unterminatedLines_le_one (logicalLines_terminated source)
  obtain ⟨before, eof, whole, shape, last, notLast⟩ := exists_eof_of_lex lexed
  exact {
    word := mem_streamWords_of_counted atMostOne counted
    counted := ⟨_, _, atMostOne, terminatedLines_add_unterminatedLines _, counted⟩
    newlines := countKind_newline_of_lex lexed
    eof := ⟨before, eof, shape, last, notLast⟩
    lexical := fun _ member => text_ne_empty_of_mem_stream (whole ▸ member)
    newline := fun _ member => text_newline_of_mem_stream (whole ▸ member)
    flat := fun flat _ member => kind_of_mem_lex_of_flat lexed flat member
  }

/-- A block, a comment line and an unterminated line that closes the block. -/
theorem tokens_shaped_block :
    ∃ tokens,
      lex "if x:\r\n\ty\n # é\nz" = .ok tokens ∧
        tokens.map Token.kind =
          [.keyword .ifKw, .identifier, .punctuation .colon, .newline, .indent,
            .identifier, .newline, .dedent, .identifier, .eof] ∧
        StreamShape "if x:\r\n\ty\n # é\nz" tokens := by
  have lexed :
      lex "if x:\r\n\ty\n # é\nz" = .ok (stream "if x:\r\n\ty\n # é\nz") := by
    rw [lex, (collect_eq _).2]
    decide +kernel
  exact ⟨_, lexed, by decide +kernel, tokens_shaped lexed⟩

end LayoutLexer
