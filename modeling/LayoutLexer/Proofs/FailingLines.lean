import LayoutLexer.Blocks
import LayoutLexer.Proofs.IndentEncoding
import LayoutLexer.Proofs.Popping
import LayoutLexer.Proofs.Positions

namespace LayoutLexer

/-!
# The line that fails

Lexing ends at the first line that fails. The lines before it are complete: their
widths resolve one after the other and their contents are read to the end. What is
pushed before the failure are the tokens of these lines and what the failing line
pushes itself (`exists_failing_line`).

A line that fits no open block pushes nothing itself. So the last token is the
line end before it, and the open widths can be read off the tokens already pushed.
The hint of the error names just these widths, and a reader finds them in it again
(`numbersIn_openLevelsHint`).
-/

/-! ### Where lexing fails -/

/-- A line fails in front of some open blocks, behind the tokens it pushes. -/
inductive Line.Fails (line : Line) (opened : Indentation) :
    List Token → SessionError → Prop where
  /-- The line fits no open block. -/
  | misfit {mismatch : IndentMismatch} :
      opened.resolve line.width = .error mismatch →
      Fails line opened [] (line.misfit mismatch)
  /-- The line holds a character that starts no token. -/
  | unmatched {change : IndentChange} {resolved : Indentation}
      {error : SessionError} :
      opened.resolve line.width = .ok (change, resolved) →
      line.lexed.error? = some error →
      Fails line opened (pushedBy (line.layout change) ++ line.lexed.tokens) error

section

variable {source : String}
variable {line : Line}
variable {lines earlier later : List Line}
variable {indentation opened : Indentation}
variable {changes : List IndentChange}
variable {tokens : List Token}
variable {error : SessionError}

/-- Lines that are complete come first in a stream. -/
theorem streamFrom_append
    (source : String)
    (applied :
      indentation.resolveAll (lines.map Line.width) = .ok (changes, opened))
    (noErrors : ∀ line ∈ lines, line.lexed.error? = none)
    (others : List Line) :
    streamFrom source (lines ++ others) indentation =
      (List.zipWith Line.tokens lines changes).flatten ++
        streamFrom source others opened := by
  induction lines generalizing indentation changes with
  | nil =>
      cases applied
      rfl
  | cons line lines inductionHypothesis =>
      obtain ⟨noError, noErrorsBehind⟩ := List.forall_mem_cons.mp noErrors
      obtain ⟨change, resolved, changesBehind, found, rest, isChanges⟩ :=
        Indentation.resolveAll_cons_eq_ok_iff.mp applied
      rw [List.cons_append, streamFrom, found, noError, isChanges]
      dsimp only
      rw [inductionHypothesis rest noErrorsBehind, List.zipWith_cons_cons,
        List.flatten_cons, Line.tokens]
      simp only [List.append_assoc]

/-- A line that fails ends what is lexed, and all that it pushes is pushed. -/
theorem Line.Fails.ends
    (fails : line.Fails opened tokens error)
    (source : String)
    (later : List Line) :
    lexFrom source (line :: later) opened = .error error ∧
      streamFrom source (line :: later) opened = tokens := by
  rw [lexFrom, streamFrom]
  cases fails with
  | misfit found =>
      rw [found]
      exact ⟨rfl, rfl⟩
  | unmatched found read =>
      rw [found, read]
      exact ⟨rfl, by simp⟩

/-- Behind complete lines, the line that fails settles the error and the stream. -/
theorem lex_of_fails
    (lines : logicalLines source = earlier ++ line :: later)
    (applied :
      Indentation.topLevel.resolveAll (earlier.map Line.width) =
        .ok (changes, opened))
    (noErrors : ∀ line ∈ earlier, line.lexed.error? = none)
    (fails : line.Fails opened tokens error) :
    lex source = .error error ∧
      stream source = (List.zipWith Line.tokens earlier changes).flatten ++ tokens := by
  obtain ⟨lexed, streamed⟩ := fails.ends source later
  rw [lex_eq_lexFrom, stream_eq_streamFrom, lines,
    lexFrom_append source applied noErrors, streamFrom_append source applied noErrors,
    lexed, streamed]
  exact ⟨rfl, rfl⟩

/-- Lines that are not all complete have a first one that fails. -/
theorem exists_fails_of_lexFrom
    (failed : lexFrom source lines indentation = .error error) :
    ∃ earlier line later changes opened tokens,
      lines = earlier ++ line :: later ∧
        indentation.resolveAll (earlier.map Line.width) = .ok (changes, opened) ∧
        (∀ line ∈ earlier, line.lexed.error? = none) ∧
        line.Fails opened tokens error := by
  induction lines generalizing indentation with
  | nil =>
      cases failed
  | cons line lines inductionHypothesis =>
      rw [lexFrom] at failed
      cases found : indentation.resolve line.width with
      | error mismatch =>
          rw [found] at failed
          cases failed
          exact ⟨[], line, lines, [], indentation, [], rfl, rfl,
            List.forall_mem_nil _, .misfit found⟩
      | ok resolution =>
          obtain ⟨change, resolved⟩ := resolution
          rw [found] at failed
          dsimp only at failed
          cases read : line.lexed.error? with
          | some unmatched =>
              rw [read] at failed
              cases failed
              exact ⟨[], line, lines, [], indentation, _, rfl, rfl,
                List.forall_mem_nil _, .unmatched found read⟩
          | none =>
              rw [read] at failed
              have failedBehind : lexFrom source lines resolved = .error error := by
                cases behind : lexFrom source lines resolved with
                | error other =>
                    rw [behind] at failed
                    cases failed
                    rfl
                | ok tokens =>
                    rw [behind] at failed
                    cases failed
              obtain ⟨earlier, failing, later, changes, opened, tokens, shape,
                applied, noErrors, fails⟩ := inductionHypothesis failedBehind
              refine ⟨line :: earlier, failing, later, change :: changes, opened,
                tokens, by rw [shape]; rfl, ?_,
                List.forall_mem_cons.mpr ⟨read, noErrors⟩, fails⟩
              exact Indentation.resolveAll_cons_eq_ok_iff.mpr
                ⟨change, resolved, changes, found, applied, rfl⟩

/-- An error is that of the first line that fails; the lines before it are complete. -/
theorem exists_failing_line
    (failed : lex source = .error error) :
    ∃ earlier line later changes opened tokens,
      logicalLines source = earlier ++ line :: later ∧
        Indentation.topLevel.resolveAll (earlier.map Line.width) =
          .ok (changes, opened) ∧
        (∀ line ∈ earlier, line.lexed.error? = none) ∧
        line.Fails opened tokens error ∧
        stream source =
          (List.zipWith Line.tokens earlier changes).flatten ++ tokens := by
  rw [lex_eq_lexFrom] at failed
  obtain ⟨earlier, line, later, changes, opened, tokens, lines, applied, noErrors,
    fails⟩ := exists_fails_of_lexFrom failed
  exact ⟨earlier, line, later, changes, opened, tokens, lines, applied, noErrors,
    fails, (lex_of_fails lines applied noErrors fails).2⟩

end

/-- If an error of the source ends a session, the parser was pushed its stream. -/
theorem pushedTokens_of_error
    {parser : Parser σ ω}
    {source : String}
    {error : SessionError}
    (failed : (Session.run parser source).result = .error error)
    (notRefused : error.category ≠ .parser) :
    pushedTokens parser source = stream source := by
  obtain ⟨state, settled⟩ := pushedTokens_settles parser source
  rw [failed] at settled
  generalize pushedTokens parser source = pushed at settled ⊢
  cases settled with
  | acceptedEarly =>
      exact absurd rfl notRefused
  | rejected =>
      exact absurd rfl notRefused
  | interrupted =>
      rfl
  | exhausted =>
      rfl

/-! ### Replaying complete lines -/

section

variable {levels : List Nat}

/-- Tokens that are no indents or dedents leave the open widths as they are. -/
theorem foldl_replay_of_other
    {tokens : List Token}
    (other : ∀ token ∈ tokens, token.kind ≠ .indent ∧ token.kind ≠ .dedent) :
    tokens.foldl replay levels = levels := by
  induction tokens with
  | nil =>
      rfl
  | cons token rest inductionHypothesis =>
      obtain ⟨⟨noIndent, noDedent⟩, others⟩ := List.forall_mem_cons.mp other
      rw [List.foldl_cons, replay_other noIndent noDedent, inductionHypothesis others]

/-- Dedents take as many open widths away. -/
theorem foldl_replay_dedents
    {token : Token}
    (dedent : token.kind = .dedent)
    (closed : Nat) :
    (List.replicate closed token).foldl replay levels =
      levels.take (levels.length - closed) := by
  induction closed generalizing levels with
  | zero =>
      simp
  | succ closed inductionHypothesis =>
      rw [List.replicate_succ, List.foldl_cons, replay_dedent dedent,
        inductionHypothesis, List.dropLast_eq_take, List.take_take, List.length_take]
      congr 1
      omega

end

/-- The tokens of a line open and close the blocks that its width does. -/
theorem Line.foldl_replay_tokens
    {line : Line}
    {indentation resolved : Indentation}
    {change : IndentChange}
    (resolves : indentation.Resolves line.width change resolved) :
    (line.tokens change).foldl replay indentation.levels = resolved.levels := by
  have onLine :
      ∀ token ∈ line.lexed.tokens ++ pushedBy line.newline,
        token.kind ≠ .indent ∧ token.kind ≠ .dedent := by
    intro token member
    rcases List.mem_append.mp member with lexical | newline
    · have noLayout := isLayout_of_mem_lexemes lexical
      exact ⟨TokenKind.ne_of_lexical noLayout rfl,
        TokenKind.ne_of_lexical noLayout rfl⟩
    · rw [kind_of_mem_newline newline]
      exact ⟨TokenKind.noConfusion, TokenKind.noConfusion⟩
  rw [tokens, List.foldl_append, foldl_replay_of_other onLine]
  cases resolves with
  | unchanged same =>
      rfl
  | indent wider levels =>
      rw [levels]
      simp [layout, replay_indent, Cursor.token, start, take_width,
        utf8ByteSize_ofList, byteLength_leadingRun]
  | @dedent closed _ narrower positive within levels top =>
      simp only [layout, pushedBy_note, pushedBy_replicate_push]
      rw [foldl_replay_dedents rfl, levels]

/-- Replaying complete lines gives the widths that they leave open. -/
theorem foldl_replay_groups
    {lines : List Line}
    {indentation opened : Indentation}
    {changes : List IndentChange}
    (applied :
      indentation.resolveAll (lines.map Line.width) = .ok (changes, opened)) :
    (List.zipWith Line.tokens lines changes).flatten.foldl replay
        indentation.levels =
      opened.levels := by
  induction lines generalizing indentation changes with
  | nil =>
      cases applied
      rfl
  | cons line lines inductionHypothesis =>
      obtain ⟨change, resolved, changesBehind, found, rest, rfl⟩ :=
        Indentation.resolveAll_cons_eq_ok_iff.mp applied
      rw [List.zipWith_cons_cons, List.flatten_cons, List.foldl_append,
        Line.foldl_replay_tokens (Indentation.resolves_of_resolve found),
        inductionHypothesis rest]

/-! ### Reading a hint -/

/-- The numbers in a text: its runs of digits, each read in base ten. -/
def numbersIn (text : List Char) : List Nat :=
  ((text.splitOnP (!·.isDigit)).filter (· ≠ [])).map (Nat.ofDigitChars 10 · 0)

section

variable {text : List Char}

/-- A character that is no digit comes between numbers. -/
theorem numbersIn_append_cons
    {c : Char}
    (noDigit : (!c.isDigit) = true)
    (text rest : List Char) :
    numbersIn (text ++ c :: rest) = numbersIn text ++ numbersIn rest := by
  simp [numbersIn, List.splitOnP_append_cons, noDigit]

/-- Text without digits holds no number. -/
theorem numbersIn_skip
    (noDigits : ∀ c ∈ text, (!c.isDigit) = true)
    (rest : List Char) :
    numbersIn (text ++ rest) = numbersIn rest := by
  induction text with
  | nil =>
      rfl
  | cons c text inductionHypothesis =>
      obtain ⟨noDigit, others⟩ := List.forall_mem_cons.mp noDigits
      have between := numbersIn_append_cons noDigit [] (text ++ rest)
      rw [List.nil_append] at between
      rw [List.cons_append, between, inductionHypothesis others]
      rfl

/-- Text without digits divides the numbers before it from those behind it. -/
theorem numbersIn_divide
    (present : text ≠ [])
    (noDigits : ∀ c ∈ text, (!c.isDigit) = true)
    (before behind : List Char) :
    numbersIn (before ++ (text ++ behind)) = numbersIn before ++ numbersIn behind := by
  obtain ⟨c, rest, rfl⟩ := List.exists_cons_of_ne_nil present
  obtain ⟨noDigit, others⟩ := List.forall_mem_cons.mp noDigits
  rw [List.cons_append, numbersIn_append_cons noDigit, numbersIn_skip others]

theorem numbersIn_toString
    (number : Nat) :
    numbersIn (toString number).toList = [number] := by
  have digits : ∀ c ∈ Nat.toDigits 10 number, (!c.isDigit) = false := by
    intro c member
    rw [Nat.isDigit_of_mem_toDigits (by decide) (by decide) member]
    rfl
  rw [Nat.toString_eq_ofList_toDigits, String.toList_ofList, numbersIn,
    List.splitOnP_eq_singleton digits]
  simp [Nat.toDigits_ne_nil, Nat.ofDigitChars_ten_toDigits]

/-- Numbers with commas between them are read one by one. -/
theorem numbersIn_intercalate
    (numbers : List Nat) :
    numbersIn (", ".intercalate (numbers.map toString)).toList = numbers := by
  induction numbers with
  | nil =>
      rfl
  | cons number numbers inductionHypothesis =>
      cases numbers with
      | nil =>
          exact numbersIn_toString number
      | cons next others =>
          have comma : ∀ c ∈ ", ".toList, (!c.isDigit) = true :=
            List.all_eq_true.mp (by decide)
          rw [List.map_cons, List.map_cons, String.intercalate_cons_cons,
            ← List.map_cons, String.toList_append, String.toList_append,
            List.append_assoc, numbersIn_divide (by decide) comma,
            inductionHypothesis, numbersIn_toString]
          rfl

end

/-- The hint for several open blocks. -/
theorem openLevelsHint_concat
    {outer : List Nat}
    (present : outer ≠ [])
    (innermost : Nat) :
    openLevelsHint (outer ++ [innermost]) =
      "open blocks are indented " ++ ", ".intercalate (outer.map toString) ++
        " or " ++ toString innermost := by
  obtain ⟨init, last, rfl⟩ := (List.eq_nil_or_concat' outer).resolve_left present
  simp [openLevelsHint]

/-- The widths that a hint names can be read back from it. -/
theorem numbersIn_openLevelsHint
    (levels : List Nat) :
    numbersIn (openLevelsHint levels).toList = levels := by
  rcases List.eq_nil_or_concat' levels with rfl | ⟨outer, innermost, rfl⟩
  · decide
  · by_cases alone : outer = []
    · subst alone
      have words : ∀ c ∈ "the only open block is indented ".toList, (!c.isDigit) = true :=
        List.all_eq_true.mp (by decide)
      have hint :
          openLevelsHint [innermost] =
            "the only open block is indented " ++ toString innermost :=
        rfl
      rw [List.nil_append, hint, String.toList_append, numbersIn_skip words,
        numbersIn_toString]
    · have words : ∀ c ∈ "open blocks are indented ".toList, (!c.isDigit) = true :=
        List.all_eq_true.mp (by decide)
      have last : ∀ c ∈ " or ".toList, (!c.isDigit) = true :=
        List.all_eq_true.mp (by decide)
      simp only [openLevelsHint_concat alone, String.toList_append, List.append_assoc]
      rw [numbersIn_skip words, numbersIn_divide (by decide) last,
        numbersIn_intercalate, numbersIn_toString]

/-- Two lists of open widths have different hints. -/
theorem openLevelsHint_inj
    {levels other : List Nat}
    (same : openLevelsHint levels = openLevelsHint other) :
    levels = other := by
  rw [← numbersIn_openLevelsHint levels, same, numbersIn_openLevelsHint]

/-! ### Indentation errors -/

/-- A width that fits no open block is reported with all open widths. -/
theorem Indentation.levels_of_resolve_error
    {indentation : Indentation}
    {width : Nat}
    {mismatch : IndentMismatch}
    (failed : indentation.resolve width = .error mismatch) :
    mismatch.levels = indentation.levels := by
  rw [resolve] at failed
  split at failed
  · cases failed
  · split at failed
    · cases failed
    · split at failed <;> cases failed
      rfl

/-- A token of some lines comes from one of them. -/
theorem exists_emits_of_mem_groups
    {lines : List Line}
    {changes : List IndentChange}
    {token : Token}
    (member : token ∈ (List.zipWith Line.tokens lines changes).flatten) :
    ∃ line ∈ lines, line.Emits token := by
  obtain ⟨group, isGroup, inGroup⟩ := List.mem_flatten.mp member
  rw [← List.map_uncurry_zip_eq_zipWith] at isGroup
  obtain ⟨⟨line, change⟩, paired, rfl⟩ := List.mem_map.mp isGroup
  refine ⟨line, (List.of_mem_zip paired).1, ?_⟩
  rcases List.mem_append.mp inGroup with layout | onLine
  · exact Line.emits_of_mem_layout layout
  · rcases List.mem_append.mp onLine with lexical | newline
    · exact .lexical lexical
    · exact Line.emits_of_mem_newline newline

/-- The last token of lines that end in a terminated one is its line end. -/
theorem getLast?_groups_concat
    {lines : List Line}
    {last : Line}
    {changes : List IndentChange}
    (terminated : last.terminator ≠ [])
    (sameLength : changes.length = (lines ++ [last]).length) :
    (List.zipWith Line.tokens (lines ++ [last]) changes).flatten.getLast? =
      some (last.ending.token .newline last.terminator.length) := by
  obtain ⟨earlier, change, rfl⟩ :
      ∃ earlier change, changes = earlier ++ [change] := by
    rcases List.eq_nil_or_concat' changes with rfl | found
    · simp at sameLength
    · exact found
  have paired : lines.length = earlier.length := by
    simpa using sameLength.symm
  rw [List.zipWith_append paired, List.flatten_append, List.zipWith_cons_cons,
    List.zipWith_nil_left, List.flatten_singleton, Line.tokens,
    Line.newline_of_terminated terminated, ← List.append_assoc, ← List.append_assoc,
    List.getLast?_concat]

/-- An indentation error is that of a line that fits no open block. -/
theorem exists_misfit
    {source : String}
    {number width : Nat}
    {span : Span}
    {levels : List Nat}
    (failed : lex source = .error (.indentation number width span levels)) :
    ∃ earlier line later changes opened,
      logicalLines source = earlier ++ line :: later ∧
        Indentation.topLevel.resolveAll (earlier.map Line.width) =
          .ok (changes, opened) ∧
        (∃ mismatch, opened.resolve line.width = .error mismatch) ∧
        line.number = number ∧
        line.width = width ∧
        line.start.spanOf width = span ∧
        opened.levels = levels ∧
        stream source = (List.zipWith Line.tokens earlier changes).flatten := by
  obtain ⟨earlier, line, later, changes, opened, tokens, lines, applied, _, fails,
    streamed⟩ := exists_failing_line failed
  generalize isError : SessionError.indentation number width span levels = error at fails
  cases fails with
  | misfit found =>
      rw [Line.misfit] at isError
      cases isError
      refine ⟨earlier, line, later, changes, opened, lines, applied, ⟨_, found⟩, rfl,
        rfl, rfl, (Indentation.levels_of_resolve_error found).symm, ?_⟩
      rw [streamed, List.append_nil]
  | unmatched _ read =>
      have lexical := category_of_lexemes_error read
      rw [← isError] at lexical
      cases lexical

/-- Where a block is open, the line before has ended, and its end was pushed last. -/
theorem exists_previous_line
    {source : String}
    {earlier later : List Line}
    {line : Line}
    {changes : List IndentChange}
    {opened : Indentation}
    (lines : logicalLines source = earlier ++ line :: later)
    (applied :
      Indentation.topLevel.resolveAll (earlier.map Line.width) = .ok (changes, opened))
    (nested : 0 < opened.top) :
    ∃ init previous,
      earlier = init ++ [previous] ∧
        (List.zipWith Line.tokens earlier changes).flatten.getLast? =
          some (previous.ending.token .newline previous.terminator.length) := by
  obtain ⟨init, previous, rfl⟩ : ∃ init previous, earlier = init ++ [previous] := by
    rcases List.eq_nil_or_concat' earlier with rfl | found
    · cases applied
      exact absurd nested (Nat.lt_irrefl 0)
    · exact found
  rw [List.append_assoc, List.singleton_append] at lines
  have ends := lines ▸ logicalLines_terminated source
  have terminated : previous.terminator ≠ [] :=
    List.rel_of_pairwise_cons (List.pairwise_append.mp ends).2.1 List.mem_cons_self
  have sameLength : changes.length = (init ++ [previous]).length := by
    simpa using Indentation.length_of_resolveAll applied
  exact ⟨init, previous, rfl, getLast?_groups_concat terminated sameLength⟩

/-- The tokens of the lines before a line have smaller line numbers. -/
theorem line_lt_of_mem_groups
    {source : String}
    {earlier later : List Line}
    {line : Line}
    {changes : List IndentChange}
    {token : Token}
    (lines : logicalLines source = earlier ++ line :: later)
    (member : token ∈ (List.zipWith Line.tokens earlier changes).flatten) :
    token.line < line.number := by
  obtain ⟨other, isEarlier, emits⟩ := exists_emits_of_mem_groups member
  have inOrder := lines ▸ logicalLines_ordered source
  rw [emits.line_eq]
  exact ((List.pairwise_append.mp inOrder).2.2 other isEarlier line
    List.mem_cons_self).number

/-- The hint for several open blocks is not one of the other two. -/
theorem openLevelsHint_ne
    {outer : List Nat}
    (present : outer ≠ [])
    (innermost : Nat) :
    openLevelsHint (outer ++ [innermost]) ≠ "no blocks are open" ∧
      ∀ only : Nat,
        openLevelsHint (outer ++ [innermost]) ≠
          "the only open block is indented " ++ toString only := by
  constructor
  · intro noneOpen
    have same : openLevelsHint (outer ++ [innermost]) = openLevelsHint [] := noneOpen
    exact List.concat_ne_nil _ _ (openLevelsHint_inj same)
  · intro only oneOpen
    have same : openLevelsHint (outer ++ [innermost]) = openLevelsHint [only] := oneOpen
    rcases List.append_eq_singleton_iff.mp (openLevelsHint_inj same) with
      ⟨isEmpty, _⟩ | ⟨_, impossible⟩
    · exact present isEmpty
    · cases impossible

/--
An indentation error tells the truth about the open blocks. Nothing of the line is
pushed: the last token is the line end of the logical line before it. Replaying
what was pushed gives the open widths, of which there are several; the line is
narrower than the innermost and as wide as none. The hint names these widths and
no others.
-/
theorem indentation_error_truthful
    {parser : Parser σ ω}
    {source : String}
    {number width : Nat}
    {span : Span}
    {levels : List Nat}
    (failed :
      (Session.run parser source).result =
        .error (.indentation number width span levels)) :
    (∃ earlier previous line later,
      logicalLines source = earlier ++ previous :: line :: later ∧
        line.number = number ∧
        line.width = width ∧
        line.start.spanOf width = span ∧
        (pushedTokens parser source).getLast? =
          some (previous.ending.token .newline previous.terminator.length) ∧
        ∀ token ∈ pushedTokens parser source, token.line < number) ∧
    ∃ outer innermost hint,
      replayed (pushedTokens parser source) = outer ++ [innermost] ∧
        outer ≠ [] ∧
        Nested (outer ++ [innermost]) ∧
        width < innermost ∧
        width ∉ outer ++ [innermost] ∧
        (SessionError.indentation number width span levels).help? = some hint ∧
        hint =
          "open blocks are indented " ++ ", ".intercalate (outer.map toString) ++
            " or " ++ toString innermost ∧
        numbersIn hint.toList = outer ++ [innermost] ∧
        hint ≠ "no blocks are open" ∧
        ∀ only : Nat, hint ≠ "the only open block is indented " ++ toString only := by
  have notRefused :
      (SessionError.indentation number width span levels).category ≠ .parser :=
    ErrorCategory.noConfusion
  obtain ⟨earlier, line, later, changes, opened, lines, applied, misfit, isNumber,
    rfl, isSpan, rfl, streamed⟩ := exists_misfit (lex_eq_error_of_run failed notRefused)
  obtain ⟨narrower, notOpen⟩ := Indentation.exists_resolve_error_iff.mp misfit
  have pushed := (pushedTokens_of_error failed notRefused).trans streamed
  constructor
  · obtain ⟨init, previous, rfl, isLast⟩ :=
      exists_previous_line lines applied (Nat.zero_lt_of_lt narrower)
    rw [pushed]
    refine ⟨init, previous, line, later, ?_, isNumber, rfl, isSpan, isLast, ?_⟩
    · rw [lines, List.append_assoc, List.singleton_append]
    · intro token member
      exact isNumber ▸ line_lt_of_mem_groups lines member
  · have levels : replayed (pushedTokens parser source) = opened.levels := by
      rw [pushed]
      exact foldl_replay_groups applied
    have nested : Nested opened.levels :=
      .levels_of_ordered
        (Indentation.ordered_of_resolveAll applied Indentation.ordered_topLevel)
    obtain ⟨outer, innermost, isConcat⟩ :
        ∃ outer innermost, opened.levels = outer ++ [innermost] :=
      (List.eq_nil_or_concat' opened.levels).resolve_left (List.cons_ne_nil _ _)
    have isTop : innermost = opened.top := by
      have last := opened.getLast?_levels
      rw [isConcat, List.getLast?_concat] at last
      exact Option.some.inj last
    rw [isConcat] at levels notOpen nested ⊢
    -- The line is narrower than the innermost block, so this is not the top level.
    have present : outer ≠ [] := by
      rintro rfl
      have bottom : innermost = 0 := Option.some.inj nested.bottom
      exact Nat.not_lt_zero _ (bottom ▸ isTop ▸ narrower)
    obtain ⟨notNone, notOne⟩ := openLevelsHint_ne present innermost
    exact ⟨outer, innermost, _, levels, present, nested, isTop ▸ narrower, notOpen,
      rfl, openLevelsHint_concat present innermost, numbersIn_openLevelsHint _, notNone,
      notOne⟩

/--
Two blocks are open, and a line fits neither of them: the checker is pushed all of
the lines before it, and the hint names both blocks and the top level.
-/
theorem indentation_error_truthful_two_blocks :
    (Session.run Blocks.parser "if x:\n    if y:\n\t\t\t\t    z\n\n  w\n").result =
        .error (.indentation 5 2 ⟨27, 29⟩ [0, 4, 8]) ∧
      ∃ outer innermost,
        replayed
            (pushedTokens Blocks.parser "if x:\n    if y:\n\t\t\t\t    z\n\n  w\n") =
          outer ++ [innermost] ∧
        "open blocks are indented 0, 4 or 8" =
          "open blocks are indented " ++ ", ".intercalate (outer.map toString) ++
            " or " ++ toString innermost ∧
        numbersIn "open blocks are indented 0, 4 or 8".toList =
          outer ++ [innermost] := by
  have failed :
      (Session.run Blocks.parser "if x:\n    if y:\n\t\t\t\t    z\n\n  w\n").result =
        .error (.indentation 5 2 ⟨27, 29⟩ [0, 4, 8]) := by
    rw [Session.run, Session.drive_eq]
    decide +kernel
  obtain ⟨_, outer, innermost, hint, levels, _, _, _, _, isHint, shape, numbers, _⟩ :=
    indentation_error_truthful failed
  obtain rfl : "open blocks are indented 0, 4 or 8" = hint :=
    Option.some.inj isHint
  exact ⟨failed, outer, innermost, levels, shape, numbers⟩

end LayoutLexer
