import LayoutLexer.Proofs.OpenLevels
import LayoutLexer.Proofs.Stream
import Mathlib.Data.List.TakeWhile

namespace LayoutLexer

/-!
# The stream of a source, line by line

The tokens of a stream come in groups, one for each logical line: the indents or
dedents that its width makes, at least one lexical token, and the terminator if
the line has one. All of them carry the number of the line, and the lexical ones
lie in its content. Only the last line can lack a terminator.

So the tokens of a source, or its error, are found by going through its logical
lines with the open levels (`lex_eq_lexFrom`).
-/

/-! ### Tokens of a content -/

section

variable {cursor : Cursor}
variable {token : Token}

theorem line_of_mem_lexemes
    (member : token ∈ (lexemes cursor).tokens) :
    token.line = cursor.line := by
  fun_induction lexemes cursor with
  | case1 =>
      simp at member
  | case2 _ _ _ _ _ inductionHypothesis =>
      exact inductionHypothesis member
  | case3 =>
      simp at member
  | case4 _ _ _ _ _ _ _ _ _ inductionHypothesis =>
      rcases List.mem_cons.mp member with isFirst | later
      · rw [isFirst]
        rfl
      · exact inductionHypothesis later
  | case5 =>
      simp at member

/-- What is read and what is left have the bytes of the unread text. -/
theorem byteLength_take_add_drop
    (text : List Char)
    (count : Nat) :
    byteLength (text.take count) + byteLength (text.drop count) =
      byteLength text := by
  rw [← byteLength_append, List.take_append_drop]

/-- The tokens of a text lie between its ends. -/
theorem span_of_mem_lexemes
    (member : token ∈ (lexemes cursor).tokens) :
    cursor.offset ≤ token.span.start ∧
      token.span.stop ≤ cursor.offset + byteLength cursor.rest := by
  have advanced :
      ∀ (cursor : Cursor) (count : Nat),
        cursor.offset ≤ (cursor.advance count).offset ∧
          (cursor.advance count).offset +
              byteLength (cursor.advance count).rest =
            cursor.offset + byteLength cursor.rest := by
    intro cursor count
    have split := byteLength_take_add_drop cursor.rest count
    simp only [Cursor.advance]
    omega
  fun_induction lexemes cursor with
  | case1 =>
      simp at member
  | case2 cursor _ _ _ _ inductionHypothesis =>
      have inner := inductionHypothesis member
      have moved := advanced cursor 1
      omega
  | case3 =>
      simp at member
  | case4 cursor _ _ _ _ _ kind length _ inductionHypothesis =>
      rcases List.mem_cons.mp member with isFirst | later
      · have split := byteLength_take_add_drop cursor.rest length
        rw [isFirst]
        simp only [Cursor.token, Cursor.spanOf]
        omega
      · have inner := inductionHypothesis later
        have moved := advanced cursor length
        omega
  | case5 =>
      simp at member

/-- A text that holds more than blanks and a comment starts with a token. -/
theorem lexemes_tokens_ne_nil
    {c : Char}
    {rest : List Char}
    (body : cursor.rest.dropWhile isBlank = c :: rest)
    (noMark : c ≠ '#')
    (complete : (lexemes cursor).error? = none) :
    (lexemes cursor).tokens ≠ [] := by
  fun_induction lexemes cursor with
  | case1 cursor ahead =>
      simp [ahead] at body
  | case2 cursor first others ahead blank inductionHypothesis =>
      refine inductionHypothesis ?_ complete
      simpa [Cursor.advance, ahead, blank] using body
  | case3 cursor others ahead noBlank =>
      simp only [ahead, List.dropWhile_cons, noBlank] at body
      exact absurd (List.cons.inj body).1.symm noMark
  | case4 =>
      simp [Lexed.cons]
  | case5 =>
      cases complete

end

/-! ### Lines of a source -/

theorem utf8Size_of_isBlank
    {c : Char}
    (blank : isBlank c = true) :
    c.utf8Size = 1 := by
  simp only [isBlank, Bool.or_eq_true, beq_iff_eq] at blank
  rcases blank with isSpace | isTab
  · rw [isSpace]
    rfl
  · rw [isTab]
    rfl

theorem byteLength_eq_length
    {text : List Char}
    (singleBytes : ∀ c ∈ text, c.utf8Size = 1) :
    byteLength text = text.length := by
  induction text with
  | nil =>
      rfl
  | cons c text inductionHypothesis =>
      obtain ⟨first, others⟩ := List.forall_mem_cons.mp singleBytes
      rw [byteLength_cons, List.length_cons, first, inductionHypothesis others,
        Nat.add_comm]

theorem utf8ByteSize_ofList
    (text : List Char) :
    (String.ofList text).utf8ByteSize = byteLength text := by
  induction text with
  | nil =>
      rfl
  | cons c text inductionHypothesis =>
      rw [String.ofList_cons, String.utf8ByteSize_append,
        String.utf8ByteSize_singleton, inductionHypothesis, byteLength_cons]

/-- Spaces and tabs only. -/
def Blanks (text : List Char) : Prop :=
  ∀ c ∈ text, isBlank c = true

theorem blanks_nil : Blanks [] :=
  List.forall_mem_nil _

namespace Line

/-- The blanks that a line starts with. -/
def leadingRun (line : Line) : List Char :=
  line.content.takeWhile isBlank

/-- The leading run has the width of the line. -/
theorem take_width
    (line : Line) :
    line.content.take line.width = line.leadingRun :=
  (List.prefix_iff_eq_take.mp (List.takeWhile_prefix isBlank)).symm

/-- Blanks are single bytes, so the width counts the bytes of the run. -/
theorem byteLength_leadingRun
    (line : Line) :
    byteLength line.leadingRun = line.width := by
  apply byteLength_eq_length
  intro c member
  exact utf8Size_of_isBlank (List.mem_takeWhile_imp member)

/-- A content is a leading run and what stands behind it. -/
theorem leadingRun_append
    (line : Line) :
    line.leadingRun ++ line.content.dropWhile isBlank = line.content :=
  List.takeWhile_append_dropWhile

theorem blanks_leadingRun
    (line : Line) :
    Blanks line.leadingRun :=
  fun _ member => List.mem_takeWhile_imp member

theorem newline_of_terminated
    {line : Line}
    (terminated : line.terminator ≠ []) :
    pushedBy line.newline =
      [line.ending.token .newline line.terminator.length] := by
  rw [newline]
  split
  · rename_i unterminated
    exact absurd unterminated terminated
  · rfl

/-- A logical line that is read to its end has a token. -/
theorem lexed_tokens_ne_nil
    {line : Line}
    (logical : line.isLogical = true)
    (complete : line.lexed.error? = none) :
    line.lexed.tokens ≠ [] := by
  rw [isLogical] at logical
  split at logical
  · cases logical
  · rename_i c rest body
    exact lexemes_tokens_ne_nil body (by simpa using logical) complete

end Line

theorem isLogical_of_mem_logicalLines
    {source : String}
    {line : Line}
    (member : line ∈ logicalLines source) :
    line ∈ physicalLines source ∧ line.isLogical = true := by
  simpa [logicalLines] using member

/-- Only the last line of a text can lack a terminator. -/
theorem locateLines_terminated
    (text : List Char)
    (number offset : Nat) :
    (locateLines number offset (cutLines text)).Pairwise
      fun line _ => line.terminator ≠ [] := by
  induction text using firstLine_induction generalizing number offset with
  | nil =>
      exact List.Pairwise.nil
  | line first inductionHypothesis =>
      rw [first.cutLines_eq, locateLines, first.ofText_eq, List.pairwise_cons]
      refine ⟨?_, inductionHypothesis _ _⟩
      intro later member
      cases first with
      | lineFeed =>
          simp
      | returnFeed =>
          simp
      | unterminated =>
          simp [cutLines, locateLines] at member

/-- Only the last logical line can lack a terminator. -/
theorem logicalLines_terminated
    (source : String) :
    (logicalLines source).Pairwise fun line _ => line.terminator ≠ [] :=
  (locateLines_terminated source.toList 1 0).filter Line.isLogical

/-! ### Counting -/

/-- The number of tokens of a kind. -/
def countKind (kind : TokenKind) (tokens : List Token) : Nat :=
  tokens.countP (·.kind = kind)

theorem countKind_cons
    (kind : TokenKind)
    (token : Token)
    (rest : List Token) :
    countKind kind (token :: rest) =
      countKind kind [token] + countKind kind rest := by
  simp [countKind, List.countP_cons, Nat.add_comm]

theorem countKind_append
    (kind : TokenKind)
    (first second : List Token) :
    countKind kind (first ++ second) =
      countKind kind first + countKind kind second :=
  List.countP_append

/-- Two kinds of tokens match like opening and closing brackets. -/
structure Balanced
    (opening closing : TokenKind)
    (tokens : List Token) : Prop where
  opened :
    ∀ earlier, earlier <+: tokens →
      countKind closing earlier ≤ countKind opening earlier
  matched : countKind opening tokens = countKind closing tokens

/-! ### The stream -/

/-- The last tokens of a stream that no error ends. -/
def closingTokens (source : String) (indentation : Indentation) : List Token :=
  List.replicate indentation.depth ((sourceEnd source).token .dedent 0) ++
    [(sourceEnd source).token .eof 0]

/-- The stream from some logical lines on. -/
def streamFrom (source : String) : List Line → Indentation → List Token
  | [], indentation =>
      closingTokens source indentation
  | line :: others, indentation =>
      match indentation.resolve line.width with
      | .error _ =>
          []
      | .ok (change, resolved) =>
          pushedBy (line.layout change) ++
            (line.lexed.tokens ++
              match line.lexed.error? with
              | some _ => []
              | none => pushedBy line.newline ++ streamFrom source others resolved)

/--
Only the last line can be unterminated. The dedents that close the input then
stand between its tokens and its end.
-/
theorem streamFrom_of_unterminated
    {line : Line}
    {others : List Line}
    (source : String)
    (resolved : Indentation)
    (terminated : ∀ next ∈ others, line.terminator ≠ [])
    (unterminated : line.terminator = []) :
    streamFrom source others resolved = closingTokens source resolved := by
  cases others with
  | nil =>
      rfl
  | cons next later =>
      exact absurd unterminated (terminated next List.mem_cons_self)

/--
A line that does not fit contributes nothing. Any other contributes its indents
or dedents and its lexical tokens; its terminator and the lines behind it follow
unless a character cuts them off.
-/
theorem streamFrom_cons_cases
    (source : String)
    (line : Line)
    (others : List Line)
    (indentation : Indentation) :
    streamFrom source (line :: others) indentation = [] ∨
      ∃ change rest,
        streamFrom source (line :: others) indentation =
            pushedBy (line.layout change) ++ (line.lexed.tokens ++ rest) ∧
          (rest = [] ∨
            ∃ resolved,
              rest = pushedBy line.newline ++ streamFrom source others resolved) := by
  rw [streamFrom]
  cases indentation.resolve line.width with
  | error mismatch =>
      exact .inl rfl
  | ok resolution =>
      obtain ⟨change, resolved⟩ := resolution
      refine .inr ⟨change, _, rfl, ?_⟩
      cases line.lexed.error? with
      | some error =>
          exact .inl rfl
      | none =>
          exact .inr ⟨resolved, rfl⟩

/-- The tokens of the lines that are left make up the rest of the stream. -/
theorem allTokens_layOut
    (source : String)
    (lines : List Line)
    (indentation : Indentation) :
    ((layOut lines indentation).andThen (closeBlocks source)).allTokens =
      streamFrom source lines indentation := by
  induction lines generalizing indentation with
  | nil =>
      by_cases flat : indentation.depth = 0
      · simp [layOut, streamFrom, closingTokens, Course.andThen, Course.after,
          Course.allTokens, Course.tokens, closeBlocks, flat]
      · simp [layOut, streamFrom, closingTokens, Course.andThen, Course.after,
          Course.allTokens, Course.tokens, closeBlocks, flat]
  | cons line others inductionHypothesis =>
      rw [layOut, Course.andThen_andThen, streamFrom, Line.course]
      cases indentation.resolve line.width with
      | error mismatch =>
          rfl
      | ok resolution =>
          obtain ⟨change, resolved⟩ := resolution
          dsimp only
          rw [Course.andThen_after, Course.allTokens_after, Line.statement]
          cases line.lexed.error? with
          | some error =>
              simp [Course.andThen, Course.allTokens, Course.tokens]
          | none =>
              rw [Course.andThen_ok, Course.allTokens_after,
                inductionHypothesis resolved]
              simp

/-- The stream of a source, line by line. -/
theorem stream_eq_streamFrom
    (source : String) :
    stream source = streamFrom source (logicalLines source) .topLevel :=
  allTokens_layOut source (logicalLines source) .topLevel

/-- No error ends the stream from some logical lines on. -/
def Completes (lines : List Line) (indentation : Indentation) : Prop :=
  ∃ final, (layOut lines indentation).result = .ok final

/-- Lines are complete when each resolves its width and is read to its end. -/
theorem completes_cons
    (line : Line)
    (others : List Line)
    (indentation : Indentation) :
    Completes (line :: others) indentation ↔
      ∃ change resolved,
        indentation.resolve line.width = .ok (change, resolved) ∧
          line.lexed.error? = none ∧
          Completes others resolved := by
  rw [Completes, layOut, Line.course]
  cases found : indentation.resolve line.width with
  | error mismatch =>
      simp [Course.andThen]
  | ok resolution =>
      obtain ⟨change, resolved⟩ := resolution
      dsimp only
      rw [Course.andThen_after, Line.statement]
      cases line.lexed.error? with
      | some error =>
          simp [Course.andThen, Course.after]
      | none =>
          simp [Course.andThen_ok, Course.after, Completes]

/-- A source has tokens when all its logical lines are complete. -/
theorem exists_lex_iff_completes
    (source : String) :
    (∃ tokens, lex source = .ok tokens) ↔
      Completes (logicalLines source) .topLevel := by
  rw [lex, (collect_eq source).2, lexByLines, courseOf, Course.andThen, Completes]
  cases (layOut (logicalLines source) .topLevel).result with
  | error error =>
      simp
  | ok final =>
      simp [Course.after, closeBlocks]

/-! ### Tokens or an error -/

/-- The tokens of a course and the last one, or the error that ends it. -/
def Course.outcome (course : Course Token) : Except SessionError (List Token) :=
  match course.result with
  | .error error =>
      .error error
  | .ok last =>
      .ok (course.tokens ++ [last])

theorem Course.outcome_after
    (course : Course Token)
    (emissions : List Emission) :
    (course.after emissions).outcome =
      course.outcome.map (pushedBy emissions ++ ·) := by
  rw [outcome, outcome, tokens_after]
  cases ending : course.result <;> simp [after, ending, Except.map]

/-- The tokens of a line that is read to its end, by what its width does. -/
def Line.tokens (line : Line) (change : IndentChange) : List Token :=
  pushedBy (line.layout change) ++ (line.lexed.tokens ++ pushedBy line.newline)

/-- The tokens from some logical lines on, or the first error in them. -/
def lexFrom
    (source : String) :
    List Line → Indentation → Except SessionError (List Token)
  | [], indentation =>
      .ok (closingTokens source indentation)
  | line :: others, indentation =>
      match indentation.resolve line.width with
      | .error mismatch =>
          .error (line.misfit mismatch)
      | .ok (change, resolved) =>
          match line.lexed.error? with
          | some error =>
              .error error
          | none =>
              (lexFrom source others resolved).map (line.tokens change ++ ·)

theorem outcome_layOut
    (source : String)
    (lines : List Line)
    (indentation : Indentation) :
    ((layOut lines indentation).andThen (closeBlocks source)).outcome =
      lexFrom source lines indentation := by
  induction lines generalizing indentation with
  | nil =>
      have closing := allTokens_layOut source [] indentation
      simp only [Course.allTokens, layOut, Course.andThen, Course.after,
        closeBlocks, streamFrom] at closing
      exact congrArg Except.ok closing
  | cons line others inductionHypothesis =>
      rw [layOut, Course.andThen_andThen, lexFrom, Line.course]
      cases indentation.resolve line.width with
      | error mismatch =>
          rfl
      | ok resolution =>
          obtain ⟨change, resolved⟩ := resolution
          dsimp only
          rw [Course.andThen_after, Course.outcome_after, Line.statement]
          cases line.lexed.error? with
          | some error =>
              rfl
          | none =>
              dsimp only
              rw [Course.andThen_ok, Course.outcome_after,
                inductionHypothesis resolved, Line.tokens]
              cases lexFrom source others resolved <;> simp [Except.map]

/-- The tokens of a source are those of its logical lines, from the first on. -/
theorem lex_eq_lexFrom
    (source : String) :
    lex source = lexFrom source (logicalLines source) .topLevel := by
  rw [lex, (collect_eq source).2]
  exact outcome_layOut source (logicalLines source) .topLevel

section

variable {source : String}
variable {lines : List Line}
variable {indentation final : Indentation}
variable {changes : List IndentChange}

/-- Lines whose widths resolve and that are read to their ends come first. -/
theorem lexFrom_append
    (source : String)
    (applied :
      indentation.resolveAll (lines.map Line.width) = .ok (changes, final))
    (noErrors : ∀ line ∈ lines, line.lexed.error? = none)
    (others : List Line) :
    lexFrom source (lines ++ others) indentation =
      (lexFrom source others final).map
        ((List.zipWith Line.tokens lines changes).flatten ++ ·) := by
  induction lines generalizing indentation changes with
  | nil =>
      cases applied
      rw [List.nil_append]
      cases lexFrom source others final <;> rfl
  | cons line lines inductionHypothesis =>
      obtain ⟨noError, noErrorsBehind⟩ := List.forall_mem_cons.mp noErrors
      obtain ⟨change, resolved, changesBehind, found, rest, isChanges⟩ :=
        Indentation.resolveAll_cons_eq_ok_iff.mp applied
      rw [List.cons_append, lexFrom, found, noError, isChanges]
      dsimp only
      rw [inductionHypothesis rest noErrorsBehind, List.zipWith_cons_cons,
        List.flatten_cons]
      cases lexFrom source others final <;> simp [Except.map]

/-- Lines that no error ends resolve their widths and are read to their ends. -/
theorem exists_resolveAll_of_lexFrom
    {tokens : List Token}
    (lexed : lexFrom source lines indentation = .ok tokens) :
    (∃ changes final,
      indentation.resolveAll (lines.map Line.width) = .ok (changes, final)) ∧
    ∀ line ∈ lines, line.lexed.error? = none := by
  induction lines generalizing indentation tokens with
  | nil =>
      exact ⟨⟨[], indentation, rfl⟩, List.forall_mem_nil _⟩
  | cons line lines inductionHypothesis =>
      rw [lexFrom] at lexed
      cases found : indentation.resolve line.width with
      | error mismatch =>
          rw [found] at lexed
          cases lexed
      | ok resolution =>
          obtain ⟨change, resolved⟩ := resolution
          rw [found] at lexed
          dsimp only at lexed
          cases read : line.lexed.error? with
          | some error =>
              rw [read] at lexed
              cases lexed
          | none =>
              rw [read] at lexed
              cases behind : lexFrom source lines resolved with
              | error error =>
                  rw [behind] at lexed
                  cases lexed
              | ok tokensBehind =>
                  obtain ⟨⟨changes, final, rest⟩, noErrors⟩ :=
                    inductionHypothesis behind
                  refine ⟨⟨change :: changes, final, ?_⟩,
                    List.forall_mem_cons.mpr ⟨read, noErrors⟩⟩
                  exact Indentation.resolveAll_cons_eq_ok_iff.mpr
                    ⟨change, resolved, changes, found, rest, rfl⟩

/-- The tokens of a source, by the widths and contents of its logical lines. -/
theorem lex_eq_ok_iff
    {tokens : List Token} :
    lex source = .ok tokens ↔
      ∃ changes final,
        Indentation.topLevel.resolveAll ((logicalLines source).map Line.width) =
            .ok (changes, final) ∧
          (∀ line ∈ logicalLines source, line.lexed.error? = none) ∧
          tokens =
            (List.zipWith Line.tokens (logicalLines source) changes).flatten ++
              closingTokens source final := by
  have complete :
      ∀ {changes final},
        Indentation.topLevel.resolveAll ((logicalLines source).map Line.width) =
          .ok (changes, final) →
        (∀ line ∈ logicalLines source, line.lexed.error? = none) →
        lex source =
          .ok ((List.zipWith Line.tokens (logicalLines source) changes).flatten ++
            closingTokens source final) := by
    intro changes final applied noErrors
    have read := lexFrom_append source applied noErrors []
    rw [List.append_nil] at read
    rw [lex_eq_lexFrom, read]
    rfl
  constructor
  · intro lexed
    obtain ⟨⟨changes, final, applied⟩, noErrors⟩ :=
      exists_resolveAll_of_lexFrom (lex_eq_lexFrom source ▸ lexed)
    refine ⟨changes, final, applied, noErrors, ?_⟩
    rw [complete applied noErrors] at lexed
    exact (Except.ok.inj lexed).symm
  · rintro ⟨changes, final, applied, noErrors, rfl⟩
    exact complete applied noErrors

end

end LayoutLexer
