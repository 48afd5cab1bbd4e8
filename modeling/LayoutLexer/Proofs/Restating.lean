import LayoutLexer.Proofs.Rendering

namespace LayoutLexer

/-!
# Writing a source again

Every source that can be read has its own words and widths, so it has a program.
This program is written in one way, without comments, blank lines and superfluous
blanks. It is read as the same tokens again, except that the last line then has
a terminator.
-/

/-! ### Programs of a source -/

/-- The lexical tokens on a line. -/
def lexicalOn (number : Nat) (tokens : List Token) : List Token :=
  tokens.filter fun token => !token.kind.isLayout && token.line == number

/-- A written line has the width of a line and the words that tokens have on it. -/
structure Line.RestatedBy
    (tokens : List Token)
    (line : Line)
    (written : WrittenLine) : Prop where
  width : line.width = written.width
  words :
    (lexicalOn line.number tokens).map Token.outline =
      written.words.map Word.outline

/-- A program has the widths of the logical lines of a source, and their tokens. -/
def Restates
    (program : List WrittenLine)
    (source : String)
    (tokens : List Token) : Prop :=
  List.Forall₂ (Line.RestatedBy tokens) (logicalLines source) program

/-- A kind with its text, which is left out for the kinds of layout. -/
def sketch (entry : TokenKind × String) : TokenKind × Option String :=
  (entry.1, if entry.1.isLayout then none else some entry.2)

def Token.sketch (token : Token) : TokenKind × Option String :=
  LayoutLexer.sketch token.outline

/-- The last logical line of a source has no terminator. -/
def EndsUnterminated (source : String) : Prop :=
  ∃ last, (logicalLines source).getLast? = some last ∧ last.terminator = []

/-! ### The tokens on a line -/

theorem lexicalOn_append
    (number : Nat)
    (first second : List Token) :
    lexicalOn number (first ++ second) =
      lexicalOn number first ++ lexicalOn number second :=
  List.filter_append first second

/-- The lexical tokens of a line are on the line, and on no other. -/
theorem Line.lexicalOn_tokens
    (line : Line)
    (change : IndentChange)
    (number : Nat) :
    lexicalOn number (line.tokens change) =
      if line.number = number then line.lexed.tokens else [] := by
  have noLayout : lexicalOn number (pushedBy (line.layout change)) = [] := by
    apply List.filter_eq_nil_iff.mpr
    intro token member
    rcases kind_of_mem_layout member with kind | kind <;>
      simp [kind, TokenKind.isLayout]
  have noNewline : lexicalOn number (pushedBy line.newline) = [] := by
    apply List.filter_eq_nil_iff.mpr
    intro token member
    simp [kind_of_mem_newline member, TokenKind.isLayout]
  have onLine :
      ∀ token ∈ line.lexed.tokens,
        token.kind.isLayout = false ∧ token.line = line.number :=
    fun token member =>
      ⟨isLayout_of_mem_lexemes member, line_of_mem_lexemes member⟩
  have lexical :
      lexicalOn number line.lexed.tokens =
        if line.number = number then line.lexed.tokens else [] := by
    split
    · rename_i sameNumber
      apply List.filter_eq_self.mpr
      intro token member
      simp [onLine token member, sameNumber]
    · rename_i otherNumber
      apply List.filter_eq_nil_iff.mpr
      intro token member
      simp [onLine token member, otherNumber]
  rw [tokens, lexicalOn_append, lexicalOn_append, noLayout, noNewline, lexical,
    List.nil_append, List.append_nil]

theorem lexicalOn_closingTokens
    (source : String)
    (final : Indentation)
    (number : Nat) :
    lexicalOn number (closingTokens source final) = [] := by
  apply List.filter_eq_nil_iff.mpr
  intro token member
  rcases List.mem_append.mp member with closing | last
  · rw [List.eq_of_mem_replicate closing]
    simp [Cursor.token, TokenKind.isLayout]
  · rw [List.mem_singleton.mp last]
    simp [Cursor.token, TokenKind.isLayout]

section

variable {lines : List Line}
variable {changes : List IndentChange}

theorem lexicalOn_groups_eq_nil
    {number : Nat}
    (elsewhere : ∀ line ∈ lines, line.number ≠ number) :
    lexicalOn number (List.zipWith Line.tokens lines changes).flatten = [] := by
  induction lines generalizing changes with
  | nil =>
      rfl
  | cons line others inductionHypothesis =>
      obtain ⟨different, othersElsewhere⟩ := List.forall_mem_cons.mp elsewhere
      cases changes with
      | nil =>
          rfl
      | cons change changes =>
          rw [List.zipWith_cons_cons, List.flatten_cons, lexicalOn_append,
            line.lexicalOn_tokens, if_neg different,
            inductionHypothesis othersElsewhere, List.append_nil]

/-- Lines have different numbers, so each keeps its lexical tokens to itself. -/
theorem lexicalOn_groups
    (ordered : lines.Pairwise Line.IsBefore)
    (sameLength : changes.length = lines.length) :
    ∀ line ∈ lines,
      lexicalOn line.number (List.zipWith Line.tokens lines changes).flatten =
        line.lexed.tokens := by
  induction lines generalizing changes with
  | nil =>
      exact List.forall_mem_nil _
  | cons first others inductionHypothesis =>
      obtain ⟨isBefore, othersOrdered⟩ := List.pairwise_cons.mp ordered
      obtain ⟨change, otherChanges, rfl⟩ :=
        List.exists_cons_of_length_eq_add_one sameLength
      have othersLength : otherChanges.length = others.length :=
        Nat.succ.inj sameLength
      intro line member
      rw [List.zipWith_cons_cons, List.flatten_cons, lexicalOn_append,
        first.lexicalOn_tokens]
      rcases List.mem_cons.mp member with isFirst | later
      · have elsewhere : ∀ other ∈ others, other.number ≠ line.number := by
          intro other otherMember
          rw [isFirst]
          exact Nat.ne_of_gt (isBefore other otherMember).number
        rw [if_pos (by rw [isFirst]), lexicalOn_groups_eq_nil elsewhere,
          List.append_nil, isFirst]
      · have different : first.number ≠ line.number :=
          Nat.ne_of_lt (isBefore line later).number
        rw [if_neg different, List.nil_append]
        exact inductionHypothesis othersOrdered othersLength line later

/-- Without its terminator, the last line ends in a lexical token. -/
theorem exists_getLast?_groups
    {last : Line}
    (isLast : lines.getLast? = some last)
    (unterminated : last.terminator = [])
    (present : last.lexed.tokens ≠ [])
    (sameLength : changes.length = lines.length) :
    ∃ token,
      (List.zipWith Line.tokens lines changes).flatten.getLast? = some token ∧
        token.kind.isLayout = false := by
  induction lines generalizing changes with
  | nil =>
      cases isLast
  | cons line others inductionHypothesis =>
      obtain ⟨change, otherChanges, rfl⟩ :=
        List.exists_cons_of_length_eq_add_one sameLength
      cases others with
      | nil =>
          obtain rfl : line = last := Option.some.inj isLast
          have noNewline : pushedBy line.newline = [] := by
            rw [Line.newline, unterminated]
            rfl
          refine ⟨line.lexed.tokens.getLast present, ?_,
            isLayout_of_mem_lexemes (List.getLast_mem present)⟩
          simp only [List.zipWith_cons_cons, List.zipWith_nil_left,
            List.flatten_cons, List.flatten_nil, List.append_nil, Line.tokens,
            noNewline, List.getLast?_append,
            List.getLast?_eq_some_getLast present, Option.some_or]
      | cons next others =>
          rw [List.getLast?_cons_cons] at isLast
          obtain ⟨token, found, lexical⟩ :=
            inductionHypothesis isLast (Nat.succ.inj sameLength)
          refine ⟨token, ?_, lexical⟩
          rw [List.zipWith_cons_cons, List.flatten_cons, List.getLast?_append,
            found, Option.some_or]

end

/-! ### The same tokens again -/

theorem sketch_layoutOutline
    (first second : List Char)
    (change : IndentChange) :
    (layoutOutline first change).map sketch =
      (layoutOutline second change).map sketch := by
  cases change with
  | unchanged =>
      rfl
  | indent =>
      rfl
  | dedent closed =>
      simp [layoutOutline, sketch, TokenKind.isLayout]

/-- The terminator that a last line has when it is written, and lacked before. -/
def missingNewline (lines : List Line) : List (TokenKind × Option String) :=
  match lines.getLast? with
  | none =>
      []
  | some last =>
      if last.terminator = [] then
        [(.newline, none)]
      else
        []

/-- A line with the same words makes the same tokens, and has a terminator. -/
theorem Line.sketch_tokens
    {line : Line}
    {written : WrittenLine}
    (sameWords :
      line.lexed.tokens.map Token.outline = written.words.map Word.outline)
    (change : IndentChange) :
    (written.outline change).map sketch =
      (line.tokens change).map Token.sketch ++ missingNewline [line] := by
  have layout :
      (layoutOutline written.run change).map sketch =
        (pushedBy (line.layout change)).map Token.sketch := by
    rw [sketch_layoutOutline _ line.leadingRun, ← line.outline_layout,
      List.map_map]
    rfl
  have words :
      (written.words.map Word.outline).map sketch =
        line.lexed.tokens.map Token.sketch := by
    rw [← sameWords, List.map_map]
    rfl
  have ending :
      [(.newline, none)] =
        (pushedBy line.newline).map Token.sketch ++ missingNewline [line] := by
    by_cases terminated : line.terminator = []
    · simp [newline, missingNewline, terminated]
    · rw [newline_of_terminated terminated]
      simp [missingNewline, terminated, Token.sketch, sketch, Token.outline,
        Cursor.token, TokenKind.isLayout]
  rw [WrittenLine.outline, tokens, List.map_append, List.map_append, layout,
    words, List.map_append, List.map_append, List.append_assoc, List.append_assoc,
    ← ending]
  rfl

/-- Lines with the same words make the same tokens; the last gets a terminator. -/
theorem sketch_groups
    {lines : List Line}
    {program : List WrittenLine}
    {changes : List IndentChange}
    (sameWords :
      List.Forall₂ (fun line written =>
        line.lexed.tokens.map Token.outline = written.words.map Word.outline)
        lines program)
    (terminated : lines.Pairwise fun line _ => line.terminator ≠ [])
    (sameLength : changes.length = lines.length) :
    (List.zipWith WrittenLine.outline program changes).flatten.map sketch =
      (List.zipWith Line.tokens lines changes).flatten.map Token.sketch ++
        missingNewline lines := by
  induction sameWords generalizing changes with
  | nil =>
      rfl
  | @cons line written others program words otherWords inductionHypothesis =>
      obtain ⟨change, otherChanges, rfl⟩ :=
        List.exists_cons_of_length_eq_add_one sameLength
      have rest :=
        inductionHypothesis (List.pairwise_cons.mp terminated).2
          (Nat.succ.inj sameLength)
      rw [List.zipWith_cons_cons, List.zipWith_cons_cons, List.flatten_cons,
        List.flatten_cons, List.map_append, List.map_append, rest,
        Line.sketch_tokens words]
      cases others with
      | nil =>
          simp [missingNewline]
      | cons next others =>
          have hasNewline : missingNewline [line] = [] := by
            have ends := (List.pairwise_cons.mp terminated).1 next List.mem_cons_self
            simp [missingNewline, ends]
          have sameLast :
              missingNewline (line :: next :: others) =
                missingNewline (next :: others) := by
            rw [missingNewline, List.getLast?_cons_cons, missingNewline]
          rw [hasNewline, sameLast, List.append_nil, List.append_assoc]

/-! ### Restating a source -/

theorem exists_forall₂_of_forall_mem
    {related : α → β → Prop}
    {first : List α}
    (each : ∀ a ∈ first, ∃ b, related a b) :
    ∃ second, List.Forall₂ related first second := by
  induction first with
  | nil =>
      exact ⟨[], .nil⟩
  | cons a first inductionHypothesis =>
      obtain ⟨⟨b, pair⟩, others⟩ := List.forall_mem_cons.mp each
      obtain ⟨second, pairs⟩ := inductionHypothesis others
      exact ⟨b :: second, .cons pair pairs⟩

/-- Lexical tokens are words. -/
theorem exists_words_of_lexemes
    (cursor : Cursor) :
    ∃ words : List Word,
      (lexemes cursor).tokens.map Token.outline = words.map Word.outline := by
  have each :
      ∀ token ∈ (lexemes cursor).tokens,
        ∃ word : Word, token.outline = word.outline := by
    intro token member
    obtain ⟨count, kind, length, isToken, found⟩ :=
      exists_match_of_mem_lexemes member
    refine ⟨⟨kind, _, spells_of_longestMatch found⟩, ?_⟩
    rw [isToken]
    rfl
  obtain ⟨words, pairs⟩ := exists_forall₂_of_forall_mem each
  exact ⟨words, map_eq_map_of_forall₂ (fun _ _ same => same) pairs⟩

section

variable {source : String}
variable {tokens : List Token}

/-- The tokens of a source that are on a logical line are those of its content. -/
theorem lexicalOn_of_lex
    (lexed : lex source = .ok tokens) :
    ∀ line ∈ logicalLines source,
      lexicalOn line.number tokens = line.lexed.tokens := by
  obtain ⟨changes, final, applied, _, isTokens⟩ := lex_eq_ok_iff.mp lexed
  have sameLength : changes.length = (logicalLines source).length :=
    (Indentation.length_of_resolveAll applied).trans (List.length_map _)
  intro line member
  rw [isTokens, lexicalOn_append, lexicalOn_closingTokens, List.append_nil]
  exact lexicalOn_groups (logicalLines_ordered source) sameLength line member

/-- Every source that can be read can be restated. -/
theorem exists_restates
    (lexed : lex source = .ok tokens) :
    ∃ program, Restates program source tokens := by
  obtain ⟨_, _, _, noErrors, _⟩ := lex_eq_ok_iff.mp lexed
  apply exists_forall₂_of_forall_mem
  intro line member
  have logical := (isLogical_of_mem_logicalLines member).2
  have present := Line.lexed_tokens_ne_nil logical (noErrors line member)
  obtain ⟨words, sameWords⟩ := exists_words_of_lexemes line.start
  have wordsPresent : words ≠ [] := by
    rintro rfl
    exact present (List.map_eq_nil_iff.mp sameWords)
  refine ⟨⟨line.leadingRun, words, line.blanks_leadingRun, wordsPresent⟩, rfl, ?_⟩
  rw [lexicalOn_of_lex lexed line member]
  exact sameWords

/-- The tokens of a restated source, up to the terminator of the last line. -/
theorem lex_render_of_restates
    {program : List WrittenLine}
    (lexed : lex source = .ok tokens)
    (restates : Restates program source tokens) :
    ∃ again before closing,
      lex (render program) = .ok again ∧
        tokens = before ++ closing ∧
        (∀ token ∈ closing, token.kind = .dedent ∨ token.kind = .eof) ∧
        (EndsUnterminated source →
          ∃ last, before.getLast? = some last ∧ last.kind.isLayout = false) ∧
        again.map Token.sketch =
          before.map Token.sketch ++
            (missingNewline (logicalLines source) ++ closing.map Token.sketch) := by
  obtain ⟨changes, final, applied, noErrors, isTokens⟩ := lex_eq_ok_iff.mp lexed
  have sameLength : changes.length = (logicalLines source).length :=
    (Indentation.length_of_resolveAll applied).trans (List.length_map _)
  have widths :
      (logicalLines source).map Line.width = program.map WrittenLine.width :=
    map_eq_map_of_forall₂ (fun _ _ => Line.RestatedBy.width) restates
  have sameWords :
      List.Forall₂ (fun line written =>
        line.lexed.tokens.map Token.outline = written.words.map Word.outline)
        (logicalLines source) program := by
    have onLines :
        List.Forall₂ (fun line written =>
          lexicalOn line.number tokens = line.lexed.tokens ∧
            line.RestatedBy tokens written)
          (logicalLines source) program :=
      (List.forall₂_and_left _ _).mpr ⟨lexicalOn_of_lex lexed, restates⟩
    refine onLines.imp ?_
    rintro line written ⟨onLine, restated⟩
    rw [← onLine]
    exact restated.words
  rw [widths] at applied
  obtain ⟨again, lexedAgain, outlines⟩ := lex_render applied
  refine ⟨again, _, _, lexedAgain, isTokens, ?_, ?_, ?_⟩
  · intro token member
    rcases List.mem_append.mp member with closing | last
    · rw [List.eq_of_mem_replicate closing]
      exact .inl rfl
    · rw [List.mem_singleton.mp last]
      exact .inr rfl
  · rintro ⟨last, isLast, unterminated⟩
    have member := List.mem_of_getLast? isLast
    have logical := (isLogical_of_mem_logicalLines member).2
    exact exists_getLast?_groups isLast unterminated
      (Line.lexed_tokens_ne_nil logical (noErrors last member)) sameLength
  · have closing :
        (closingOutline final.depth).map sketch =
          (closingTokens source final).map Token.sketch := by
      simp [closingOutline, closingTokens, Token.sketch, Token.outline,
        Cursor.token, sourceEnd]
    have sketches :
        again.map Token.sketch = (again.map Token.outline).map sketch := by
      rw [List.map_map]
      rfl
    rw [sketches, outlines, List.map_append, closing,
      sketch_groups sameWords (logicalLines_terminated source) sameLength,
      List.append_assoc]

theorem missingNewline_of_endsUnterminated
    (unterminated : EndsUnterminated source) :
    missingNewline (logicalLines source) = [(.newline, none)] := by
  obtain ⟨last, isLast, noTerminator⟩ := unterminated
  simp [missingNewline, isLast, noTerminator]

theorem missingNewline_of_not_endsUnterminated
    (terminated : ¬ EndsUnterminated source) :
    missingNewline (logicalLines source) = [] := by
  cases isLast : (logicalLines source).getLast? with
  | none =>
      simp [missingNewline, isLast]
  | some last =>
      have hasTerminator : last.terminator ≠ [] :=
        fun noTerminator => terminated ⟨last, isLast, noTerminator⟩
      simp [missingNewline, isLast, hasTerminator]

end

/--
Writing a program and reading it back changes nothing. A program whose widths
resolve is read as its words, with the indents and dedents that the widths make
and one line end for each line. And every source that can be read has a program
with its widths and words; whenever such a program is written, it is read as the
same kinds with the same words, except that the last line gets a line end if it
had none.
-/
theorem lex_render_roundtrip :
    (∀ (program : List WrittenLine) (changes : List IndentChange)
        (final : Indentation),
      Indentation.topLevel.resolveAll (program.map WrittenLine.width) =
        .ok (changes, final) →
      ∃ tokens,
        lex (render program) = .ok tokens ∧
          tokens.map Token.outline =
            (List.zipWith WrittenLine.outline program changes).flatten ++
              closingOutline final.depth) ∧
    ∀ (source : String) (tokens : List Token),
      lex source = .ok tokens →
      (∃ program, Restates program source tokens) ∧
      ∀ program, Restates program source tokens →
        ∃ again,
          lex (render program) = .ok again ∧
            (¬ EndsUnterminated source →
              again.map Token.sketch = tokens.map Token.sketch) ∧
            (EndsUnterminated source →
              ∃ before closing,
                tokens = before ++ closing ∧
                  (∃ last,
                    before.getLast? = some last ∧ last.kind.isLayout = false) ∧
                  (∀ token ∈ closing,
                    token.kind = .dedent ∨ token.kind = .eof) ∧
                  again.map Token.sketch =
                    before.map Token.sketch ++
                      (.newline, none) :: closing.map Token.sketch) := by
  refine ⟨fun _ _ _ applied => lex_render applied, ?_⟩
  intro source tokens lexed
  refine ⟨exists_restates lexed, ?_⟩
  intro program restates
  obtain ⟨again, before, closing, lexedAgain, isTokens, closes, lastLexical, sketches⟩ :=
    lex_render_of_restates lexed restates
  refine ⟨again, lexedAgain, ?_, ?_⟩
  · intro terminated
    rw [sketches, missingNewline_of_not_endsUnterminated terminated, isTokens,
      List.nil_append, List.map_append]
  · intro unterminated
    refine ⟨before, closing, isTokens, lastLexical unterminated, closes, ?_⟩
    rw [sketches, missingNewline_of_endsUnterminated unterminated,
      List.singleton_append]

/-- A header and the indented line in its block are read back. -/
theorem lex_render_roundtrip_block :
    ∃ program tokens,
      render program = "if x :\n\t .5\n" ∧
        lex (render program) = .ok tokens ∧
        tokens.map Token.outline =
          [(.keyword .ifKw, "if"), (.identifier, "x"),
            (.punctuation .colon, ":"), (.newline, "\n"), (.indent, "\t "),
            (.float, ".5"), (.newline, "\n"), (.dedent, ""), (.eof, "")] := by
  have noKeyword : ∀ word : Keyword, ['x'] ≠ word.spelling.toList := by
    intro word
    cases word <;> decide
  have identifier : Spells .identifier ['x'] :=
    .identifier rfl (List.forall_mem_nil _) noKeyword
  have digits : Digits ['5'] := by
    simp [Digits]
  have float : Spells .float ([] ++ '.' :: ['5']) :=
    .float (List.forall_mem_nil _) (List.cons_ne_nil _ _) digits
  have blanks : Blanks ['\t', ' '] := by
    simp [Blanks, isBlank]
  let header : WrittenLine :=
    ⟨[], [⟨_, _, .keyword .ifKw⟩, ⟨_, _, identifier⟩, ⟨_, _, .punctuation .colon⟩],
      blanks_nil, List.cons_ne_nil _ _⟩
  let body : WrittenLine :=
    ⟨_, [⟨_, _, float⟩], blanks, List.cons_ne_nil _ _⟩
  obtain ⟨tokens, lexed, outlines⟩ :=
    lex_render_roundtrip.1 [header, body] [.unchanged, .indent] ⟨[2]⟩ rfl
  exact ⟨[header, body], tokens, rfl, lexed, outlines⟩

end LayoutLexer
