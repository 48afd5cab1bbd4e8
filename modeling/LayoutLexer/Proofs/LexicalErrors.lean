import LayoutLexer.Proofs.Bytes
import LayoutLexer.Proofs.FailingLines
import LayoutLexer.Proofs.Lookahead
import LayoutLexer.Proofs.Pushes
import LayoutLexer.Proofs.Surroundings

namespace LayoutLexer

/-!
# Lexical errors come early

A character that starts no token is reported as soon as it is read. All that stands
before it could be lexed without it: the source that is cut off there is complete,
and its tokens are those that were pushed. What stands behind it does not count,
apart from the next character, with which it might have started a token: any other
source that begins in this way fails in the same way (`lexical_error_prompt`).
-/

open Session

/-! ### Sources that agree -/

/-- Two sources have the same bytes before a place and the same character there. -/
structure AgreeUpTo (source other : String) (place : Nat) : Prop where
  bytes : (Bytes.ofString other).take place = (Bytes.ofString source).take place
  next : String.Pos.Raw.get? other ⟨place⟩ = String.Pos.Raw.get? source ⟨place⟩

namespace Bytes

/-- The first character can be told from the bytes. -/
theorem eq_of_utf8EncodeChar_append
    {c other : Char}
    {bytes otherBytes : List UInt8}
    (same :
      String.utf8EncodeChar c ++ bytes = String.utf8EncodeChar other ++ otherBytes) :
    c = other := by
  have decoded :
      ∀ (c : Char) (bytes : List UInt8),
        (String.utf8EncodeChar c ++ bytes).toByteArray.utf8DecodeChar? 0 = some c := by
    intro c bytes
    rw [List.toByteArray_append]
    exact ByteArray.utf8DecodeChar?_utf8EncodeChar_append
  have found := decoded c bytes
  rw [same, decoded other otherBytes] at found
  exact (Option.some.inj found).symm

/-- A text that begins with the bytes of another one begins with that text. -/
theorem exists_append_of_encode_eq
    {text first : List Char}
    {bytes : List UInt8}
    (same : encode text = encode first ++ bytes) :
    ∃ rest, text = first ++ rest := by
  induction first generalizing text with
  | nil =>
      exact ⟨text, rfl⟩
  | cons c first inductionHypothesis =>
      rw [encode_cons, List.append_assoc] at same
      cases text with
      | nil =>
          have noBytes := (List.append_eq_nil_iff.mp same.symm).1
          exact absurd noBytes (utf8EncodeChar_ne_nil c)
      | cons other text =>
          rw [encode_cons] at same
          obtain rfl := eq_of_utf8EncodeChar_append same
          obtain ⟨rest, rfl⟩ := inductionHypothesis (List.append_cancel_left same)
          exact ⟨rest, rfl⟩

end Bytes

/-- A source that agrees with another one begins with the same characters. -/
theorem AgreeUpTo.exists_rest
    {source other : String}
    {front behind : List Char}
    (agree : AgreeUpTo source other (byteLength front))
    (shape : source.toList = front ++ behind) :
    ∃ otherBehind,
      other.toList = front ++ otherBehind ∧ otherBehind.head? = behind.head? := by
  have bytes := agree.bytes
  have next := agree.next
  have atPlace :
      ∀ {text : String} {rest : List Char},
        text.toList = front ++ rest →
        String.Pos.Raw.get? text ⟨byteLength front⟩ = rest.head? := by
    intro text rest isText
    have whole : text = String.ofList (front ++ rest) := by
      rw [← isText, String.ofList_toList]
    rw [whole, byteLength_eq_utf8Len]
    exact String.get?_of_valid front rest
  have read :
      (Bytes.encode (front ++ behind)).take (byteLength front) = Bytes.encode front := by
    rw [Bytes.encode_append]
    exact List.take_left' (Bytes.length_encode front)
  rw [Bytes.ofString_eq, Bytes.ofString_eq, shape, read] at bytes
  have whole := List.take_append_drop (byteLength front) (Bytes.encode other.toList)
  rw [bytes] at whole
  obtain ⟨otherBehind, isOther⟩ := Bytes.exists_append_of_encode_eq whole.symm
  refine ⟨otherBehind, isOther, ?_⟩
  rw [← atPlace isOther, next, atPlace shape]

/-! ### The character that starts no token -/

/-- A line is cut into tokens up to a character that starts none. -/
structure Line.BreaksOff
    (line : Line)
    (front : List Char)
    (c : Char)
    (rest : List Char)
    (tokens : List Token) : Prop where
  content : line.content = front ++ c :: rest
  cuts : CutsInto (c :: rest) ⟨front, line.offset, line.number⟩ tokens
  stops : StopsAt (c :: rest) (some c)

namespace Line.BreaksOff

variable {line : Line}
variable {front rest : List Char}
variable {c : Char}
variable {tokens : List Token}

theorem noBlank
    (breaks : line.BreaksOff front c rest tokens) :
    isBlank c = false := by
  cases breaks.stops with
  | unmatched noBlank =>
      exact noBlank

/-- Such a line has these tokens and an error about the character. -/
theorem lexed
    (breaks : line.BreaksOff front c rest tokens) :
    line.lexed =
      ⟨tokens,
        some (.lexical c line.number
          ⟨line.offset + byteLength front,
            line.offset + byteLength front + c.utf8Size⟩)⟩ := by
  have read := breaks.cuts.lexemes_of_stopsAt breaks.stops
  rw [← Line.start_of_append breaks.content, Cursor.endsAt_eq] at read
  rw [Line.lexed, read]
  simp [Cursor.failure?, Cursor.spanOf]

theorem isLogical
    (breaks : line.BreaksOff front c rest tokens) :
    line.isLogical = true := by
  rw [← Bool.not_eq_false]
  intro skipped
  have read := breaks.lexed
  rw [lexed_of_not_isLogical skipped] at read
  cases read

theorem leadingRun
    (breaks : line.BreaksOff front c rest tokens) :
    line.leadingRun = front.takeWhile isBlank := by
  have stops : ∀ first, (c :: rest).head? = some first → isBlank first = false := by
    intro first isFirst
    cases isFirst
    exact breaks.noBlank
  rw [Line.leadingRun, breaks.content, takeWhile_append_of_stop stops]

end Line.BreaksOff

/-- A line with an error breaks off at the character that the error is about. -/
theorem Line.exists_breaksOff
    {line : Line}
    {error : SessionError}
    (read : line.lexed.error? = some error) :
    ∃ front c rest, line.BreaksOff front c rest line.lexed.tokens := by
  obtain ⟨front, behind, failed?, content, cuts, stops, isError⟩ := line.exists_cutsInto
  rw [read] at isError
  cases stops with
  | finished =>
      cases isError
  | comment =>
      cases isError
  | unmatched noBlank noMark unmatched =>
      exact ⟨front, _, _, content, cuts, .unmatched noBlank noMark unmatched⟩

/-! ### The source before it -/

theorem filter_isVisible_layout
    (line : Line)
    (change : IndentChange) :
    (pushedBy (line.layout change)).filter Token.isVisible = [] := by
  rw [List.filter_eq_nil_iff]
  intro token member
  rw [isVisible_of_mem_layout member]
  exact Bool.false_ne_true

theorem filter_isVisible_closingTokens
    (source : String)
    (indentation : Indentation) :
    (closingTokens source indentation).filter Token.isVisible = [] := by
  rw [List.filter_eq_nil_iff]
  intro token member
  rcases List.mem_append.mp member with isDedent | isEof
  · rw [List.eq_of_mem_replicate isDedent]
    exact Bool.false_ne_true
  · rw [List.mem_singleton.mp isEof]
    exact Bool.false_ne_true

/-- The part of a line before the character is complete, and has all the tokens. -/
theorem Line.BreaksOff.lexFrom_front
    {line : Line}
    {front rest : List Char}
    {c : Char}
    {tokens : List Token}
    {opened resolved : Indentation}
    {change : IndentChange}
    (breaks : line.BreaksOff front c rest tokens)
    (noFeed : '\n' ∉ front)
    (found : opened.resolve line.width = .ok (change, resolved))
    (source : String) :
    ∃ read,
      lexFrom source (remainingLines front line.offset line.number) opened = .ok read ∧
        read.filter Token.isVisible = tokens.filter Token.isVisible := by
  let begun : Line := ⟨line.number, line.offset, front, []⟩
  have lexed : begun.lexed = ⟨tokens, none⟩ := by
    have keeps : KeepsMatches (c :: rest) [] := .of_separated nofun
    have read := (breaks.cuts.of_keepsMatches keeps).lexemes_of_stopsAt .finished
    have whole : begun.content = front ++ [] := (List.append_nil front).symm
    rwa [← start_of_append whole] at read
  have width : begun.width = line.width :=
    congrArg List.length breaks.leadingRun.symm
  rw [remainingLines_of_noLineFeed noFeed]
  by_cases logical : begun.isLogical = true
  · refine ⟨begun.tokens change ++ closingTokens source resolved, ?_, ?_⟩
    · rw [if_pos logical, lexFrom, width, found, lexed]
      rfl
    · have noNewline : pushedBy begun.newline = [] := rfl
      rw [Line.tokens, lexed, noNewline, List.append_nil, List.filter_append,
        List.filter_append, filter_isVisible_layout, filter_isVisible_closingTokens,
        List.nil_append, List.append_nil]
  · rw [Bool.not_eq_true] at logical
    refine ⟨closingTokens source opened, ?_, ?_⟩
    · rw [if_neg (Bool.not_eq_true _ ▸ logical)]
      rfl
    · rw [lexed_of_not_isLogical logical] at lexed
      cases lexed
      exact filter_isVisible_closingTokens source opened

/-! ### Another source behind it -/

/-- The line goes on in another way, but with the same character. -/
theorem Line.BreaksOff.of_head
    {line other : Line}
    {front rest otherRest tail otherTail : List Char}
    {c : Char}
    {tokens : List Token}
    (breaks : line.BreaksOff front c rest tokens)
    (content : other.content = front ++ c :: otherRest)
    (offset : other.offset = line.offset)
    (number : other.number = line.number)
    (separated : Separated tail)
    (otherSeparated : Separated otherTail)
    (sameNext : (otherRest ++ otherTail).head? = (rest ++ tail).head?) :
    other.BreaksOff front c otherRest tokens where
  content := content
  cuts := by
    have longer : KeepsMatches (c :: rest) (c :: rest ++ tail) :=
      .append separated
    have shorter : KeepsMatches (c :: otherRest ++ otherTail) (c :: otherRest) :=
      .of_append otherSeparated
    rw [List.cons_append] at longer shorter
    rw [offset, number]
    exact breaks.cuts.of_keepsMatches ((longer.trans (.of_head sameNext)).trans shorter)
  stops := by
    cases breaks.stops with
    | unmatched noBlank noMark unmatched =>
        refine .unmatched noBlank noMark ?_
        rw [← longestMatch_append separated, List.cons_append] at unmatched
        rw [← longestMatch_append otherSeparated, List.cons_append]
        exact longestMatch_eq_none_of_head sameNext unmatched

/-- A carriage return in a content is not the first half of a terminator. -/
theorem FirstLine.head?_ne_lineFeed
    {text content terminator more front rest : List Char}
    (first : FirstLine text content terminator more)
    (isContent : content = front ++ '\r' :: rest) :
    (rest ++ (terminator ++ more)).head? ≠ some '\n' := by
  have ends : EndsBefore ('\r' :: rest) (terminator ++ more) := by
    have dropped := first.endsBefore.drop front.length
    rwa [isContent, List.drop_left] at dropped
  intro feeds
  have noTerminator := ends.terminatorLength?_append
  obtain ⟨behind, isFeed⟩ := List.head?_eq_some_iff.mp feeds
  rw [isFeed] at noTerminator
  cases noTerminator

/-- Text that goes on with the same character goes on in the same line. -/
theorem FirstLine.exists_of_head
    {text content terminator more front rest behind : List Char}
    {c : Char}
    (first : FirstLine text content terminator more)
    (isContent : content = front ++ c :: rest)
    (sameNext : behind.head? = (rest ++ (terminator ++ more)).head?) :
    ∃ otherRest otherTerminator otherMore,
      behind = otherRest ++ (otherTerminator ++ otherMore) ∧
        FirstLine (front ++ c :: behind) (front ++ c :: otherRest) otherTerminator
          otherMore := by
  have noFeed : '\n' ∉ front ++ [c] := by
    intro member
    apply first.endsBefore.noLineFeed
    rw [isContent, List.append_cons]
    exact List.mem_append_left rest member
  by_cases atEnd : behind = []
  · refine ⟨[], [], [], atEnd, ?_⟩
    rw [atEnd]
    exact .unterminated (front ++ [c]) noFeed (by simp)
  · obtain ⟨otherRest, otherTerminator, otherMore, goesOn⟩ := exists_firstLine atEnd
    refine ⟨otherRest, otherTerminator, otherMore, goesOn.text_eq, ?_⟩
    rw [List.append_cons front c behind, List.append_cons front c otherRest]
    refine goesOn.prepend noFeed ?_
    intro returns
    rw [List.getLast?_concat] at returns
    cases returns
    rw [sameNext]
    exact first.head?_ne_lineFeed isContent

/-! ### Lexical errors -/

section

variable {source : String}
variable {before more front rest : List Char}
variable {c : Char}
variable {line : Line}
variable {changes : List IndentChange}
variable {change : IndentChange}
variable {opened resolved : Indentation}
variable {tokens : List Token}

/-- The source before the character that a line breaks off at is complete. -/
theorem Line.BreaksOff.exists_lex_before
    (breaks : line.BreaksOff front c rest tokens)
    (amid : line.Amid source before more)
    (applied :
      Indentation.topLevel.resolveAll ((remainingLines before 0 1).map Line.width) =
        .ok (changes, opened))
    (noErrors : ∀ line ∈ remainingLines before 0 1, line.lexed.error? = none)
    (found : opened.resolve line.width = .ok (change, resolved)) :
    ∃ read,
      lex (Span.textIn ⟨0, line.offset + byteLength front⟩ source) = .ok read ∧
        read.filter Token.isVisible =
          ((List.zipWith Line.tokens (remainingLines before 0 1) changes).flatten ++
            (pushedBy (line.layout change) ++ tokens)).filter Token.isVisible := by
  have shape :
      source.toList =
        [] ++ ((before ++ front) ++ c :: (rest ++ (line.terminator ++ more))) := by
    rw [amid.text, breaks.content]
    simp
  have noFeed : '\n' ∉ front := by
    intro member
    apply amid.first.endsBefore.noLineFeed
    rw [breaks.content]
    exact List.mem_append_left _ member
  have cut :
      Span.textIn ⟨0, line.offset + byteLength front⟩ source =
        String.ofList (before ++ front) := by
    rw [amid.offset, ← byteLength_append, ← textIn_eq shape]
    simp
  have lines :
      logicalLines (String.ofList (before ++ front)) =
        remainingLines before 0 1 ++ remainingLines front line.offset line.number := by
    have behind := remainingLines_append amid.whole front 0 1
    rw [Nat.zero_add, ← amid.offset, ← amid.number] at behind
    rw [logicalLines_eq_remainingLines, String.toList_ofList, behind]
  obtain ⟨read, isRead, visible⟩ :=
    breaks.lexFrom_front noFeed found (String.ofList (before ++ front))
  rw [cut, lex_eq_lexFrom, lines, lexFrom_append _ applied noErrors, isRead]
  refine ⟨_, rfl, ?_⟩
  rw [List.filter_append, visible, List.filter_append, List.filter_append,
    filter_isVisible_layout, List.nil_append]

/-- A source that agrees up to the character breaks off in the same way. -/
theorem Line.BreaksOff.lex_of_agree
    {other : String}
    (breaks : line.BreaksOff front c rest tokens)
    (amid : line.Amid source before more)
    (applied :
      Indentation.topLevel.resolveAll ((remainingLines before 0 1).map Line.width) =
        .ok (changes, opened))
    (noErrors : ∀ line ∈ remainingLines before 0 1, line.lexed.error? = none)
    (found : opened.resolve line.width = .ok (change, resolved))
    (agree :
      AgreeUpTo source other (line.offset + byteLength front + c.utf8Size)) :
    lex other =
        .error (.lexical c line.number
          ⟨line.offset + byteLength front,
            line.offset + byteLength front + c.utf8Size⟩) ∧
      stream other =
        (List.zipWith Line.tokens (remainingLines before 0 1) changes).flatten ++
          (pushedBy (line.layout change) ++ tokens) := by
  have shape :
      source.toList =
        (before ++ (front ++ [c])) ++ (rest ++ (line.terminator ++ more)) := by
    rw [amid.text, breaks.content]
    simp
  have place :
      line.offset + byteLength front + c.utf8Size =
        byteLength (before ++ (front ++ [c])) := by
    simp [amid.offset, Nat.add_assoc]
  rw [place] at agree
  obtain ⟨behind, isOther, sameNext⟩ := agree.exists_rest shape
  obtain ⟨otherRest, otherTerminator, otherMore, rfl, first⟩ :=
    amid.first.exists_of_head breaks.content sameNext
  let changed : Line :=
    ⟨line.number, line.offset, front ++ c :: otherRest, otherTerminator⟩
  have changedBreaks : changed.BreaksOff front c otherRest tokens :=
    breaks.of_head rfl rfl rfl amid.first.endsBefore.separated
      first.endsBefore.separated sameNext
  have changedAmid : changed.Amid other before otherMore := {
    text := by
      rw [isOther]
      simp [changed]
    whole := amid.whole
    first := first.text_eq ▸ first
    offset := amid.offset
    number := amid.number
  }
  have sameRun : changed.leadingRun = line.leadingRun := by
    rw [changedBreaks.leadingRun, breaks.leadingRun]
  have sameWidth : changed.width = line.width :=
    Line.width_of_leadingRun sameRun
  have read := changedBreaks.lexed
  have fails : changed.Fails opened
      (pushedBy (changed.layout change) ++ changed.lexed.tokens) _ :=
    .unmatched (sameWidth ▸ found) (congrArg Lexed.error? read)
  have result :=
    lex_of_fails (changedAmid.logicalLines_eq changedBreaks.isLogical) applied noErrors
      fails
  rwa [read, Line.layout_of_leadingRun sameRun rfl rfl] at result

/-- A lexical error is that of the first line that breaks off. -/
theorem exists_breaking_line
    {number : Nat}
    {span : Span}
    (failed : lex source = .error (.lexical c number span)) :
    ∃ before, ∃ line : Line, ∃ more changes opened change resolved front rest,
      line.Amid source before more ∧
        Indentation.topLevel.resolveAll ((remainingLines before 0 1).map Line.width) =
          .ok (changes, opened) ∧
        (∀ line ∈ remainingLines before 0 1, line.lexed.error? = none) ∧
        opened.resolve line.width = .ok (change, resolved) ∧
        line.BreaksOff front c rest line.lexed.tokens ∧
        number = line.number ∧
        span =
          ⟨line.offset + byteLength front,
            line.offset + byteLength front + c.utf8Size⟩ := by
  obtain ⟨earlier, line, later, changes, opened, tokens, lines, applied, noErrors,
    fails, _⟩ := exists_failing_line failed
  obtain ⟨before, more, amid, rfl⟩ := exists_amid lines
  generalize isError : SessionError.lexical c number span = error at fails
  cases fails with
  | misfit _ =>
      cases isError
  | unmatched found read =>
      obtain ⟨front, failing, rest, breaks⟩ := Line.exists_breaksOff read
      rw [← isError, breaks.lexed] at read
      cases read
      exact ⟨before, line, more, changes, opened, _, _, front, rest, amid, applied,
        noErrors, found, breaks, rfl, rfl⟩

end

/--
A lexical error is reported as early as possible, and by what was read. The source
before the character is complete, and its lexical tokens and line ends are those
that were pushed before the error. Any other source with the same bytes up to the
end of the character and the same character behind it fails with the same error,
after the same tokens.
-/
theorem lexical_error_prompt
    {source : String}
    {c : Char}
    {number : Nat}
    {span : Span}
    (failed : lex source = .error (.lexical c number span)) :
    (∃ tokens,
      lex (Span.textIn ⟨0, span.start⟩ source) = .ok tokens ∧
        tokens.filter Token.isVisible =
          (pushedTokens Recorder.parser source).filter Token.isVisible) ∧
    ∀ other,
      AgreeUpTo source other span.stop →
        lex other = .error (.lexical c number span) ∧
          pushedTokens Recorder.parser other = pushedTokens Recorder.parser source := by
  have pushed :
      ∀ {source}, lex source = .error (.lexical c number span) →
        pushedTokens Recorder.parser source = stream source :=
    fun failed => pushedTokens_of_error failed ErrorCategory.noConfusion
  obtain ⟨before, line, more, changes, opened, change, resolved, front, rest, amid,
    applied, noErrors, found, breaks, rfl, rfl⟩ := exists_breaking_line failed
  obtain ⟨_, streamed⟩ :=
    breaks.lex_of_agree amid applied noErrors found ⟨rfl, rfl⟩
  constructor
  · rw [pushed failed, streamed]
    exact breaks.exists_lex_before amid applied noErrors found
  · intro other agree
    obtain ⟨otherFailed, otherStreamed⟩ :=
      breaks.lex_of_agree amid applied noErrors found agree
    refine ⟨otherFailed, ?_⟩
    rw [pushed otherFailed, pushed failed, streamed, otherStreamed]

/--
A point that makes no fraction: the tokens before it are those of the source that is
cut off there, and the text behind the next character does not count.
-/
theorem lexical_error_prompt_point :
    lex "if x:\n  3.é" = .error (.lexical '.' 2 ⟨9, 10⟩) ∧
      AgreeUpTo "if x:\n  3.é" "if x:\n  3.é5\n z" 10 ∧
      (∃ tokens,
        lex "if x:\n  3" = .ok tokens ∧
          tokens.filter Token.isVisible =
            (pushedTokens Recorder.parser "if x:\n  3.é").filter Token.isVisible) ∧
      lex "if x:\n  3.é5\n z" = .error (.lexical '.' 2 ⟨9, 10⟩) := by
  have failed : lex "if x:\n  3.é" = .error (.lexical '.' 2 ⟨9, 10⟩) := by
    rw [lex, (collect_eq _).2]
    decide +kernel
  have agree : AgreeUpTo "if x:\n  3.é" "if x:\n  3.é5\n z" 10 :=
    ⟨by decide +kernel, by decide +kernel⟩
  have cut : Span.textIn ⟨0, 9⟩ "if x:\n  3.é" = "if x:\n  3" := by
    decide +kernel
  obtain ⟨before, others⟩ := lexical_error_prompt failed
  rw [cut] at before
  exact ⟨failed, agree, before, (others _ agree).1⟩

end LayoutLexer
