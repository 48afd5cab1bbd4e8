import LayoutLexer.Proofs.FailingLines
import LayoutLexer.Proofs.FinalNewline
import LayoutLexer.Proofs.Room

namespace LayoutLexer

/-!
# Spacing

Tokens may stand further apart than they do. Blanks can be put in behind any of them,
and a comment at the end of any logical line, whether or not the line has a terminator.
What stands behind the place is found further on, and nothing else changes: a source
has the same tokens, and the checker says the same of it (`spacing_immaterial`).

Which tokens stand behind the place is told by their order in the stream. Indents and
dedents start where their line does, so none of them is at the end of a line.
-/

open Session

/-! ### Tokens around a place -/

section

variable {source : String}
variable {before after : List Token}
variable {token : Token}

/-- Tokens other than dedents come one behind the other. -/
theorem stop_le_of_stream_eq
    (streamed : stream source = before ++ token :: after)
    (noDedent : token.kind ≠ .dedent) :
    (∀ earlier ∈ before,
      earlier.span.stop ≤ token.span.start ∧ earlier.line ≤ token.line) ∧
    ∀ later ∈ after, token.span.stop ≤ later.span.start := by
  have ordered := streamed ▸ pairwise_precedes_stream source
  obtain ⟨_, fromToken, across⟩ := List.pairwise_append.mp ordered
  constructor
  · intro earlier member
    have precedes := across earlier member token List.mem_cons_self
    refine ⟨precedes.span.resolve_right ?_, precedes.line⟩
    rintro ⟨isDedent, rfl⟩
    exact noDedent isDedent
  · intro later member
    have precedes := List.rel_of_pairwise_cons fromToken member
    exact precedes.span.resolve_right fun both => noDedent both.1

/-- A token that stands for no text starts where its line does. -/
theorem Line.Emits.start_of_hidden
    {line : Line}
    (emits : line.Emits token)
    (hidden : token.isVisible = false) :
    token.span.start = line.offset := by
  cases emits with
  | layout _ =>
      rfl
  | lexical member =>
      simp [Token.isVisible, isLayout_of_mem_lexemes member] at hidden
  | newline _ =>
      cases hidden

theorem Line.offset_lt_ending
    {line : Line}
    (logical : line.isLogical = true) :
    line.offset < line.ending.offset := by
  refine Nat.lt_add_of_pos_right (byteLength_pos ?_)
  intro isEmpty
  simp [isLogical, isEmpty] at logical

theorem offset_le_of_number_le
    {line other : Line}
    (member : line ∈ logicalLines source)
    (otherMember : other ∈ logicalLines source)
    (inOrder : other.number ≤ line.number) :
    other.offset ≤ line.offset := by
  obtain ⟨earlier, later, lines⟩ := List.append_of_mem member
  have ordered := lines ▸ logicalLines_ordered source
  obtain ⟨_, fromLine, across⟩ := List.pairwise_append.mp ordered
  rw [lines] at otherMember
  rcases List.mem_append.mp otherMember with isEarlier | fromHere
  · have isBefore := across other isEarlier line List.mem_cons_self
    exact Nat.le_trans (Nat.le_add_right _ _) isBefore.offset
  · rcases List.mem_cons.mp fromHere with rfl | isLater
    · exact Nat.le_refl _
    · have isBefore := List.rel_of_pairwise_cons fromLine isLater
      exact absurd isBefore.number (Nat.not_lt.mpr inOrder)

/-- All tokens in front of a line end start before it. -/
theorem start_lt_of_newline
    {earlier : Token}
    (streamed : stream source = before ++ token :: after)
    (isNewline : token.kind = .newline)
    (member : earlier ∈ before) :
    earlier.span.start < token.span.start := by
  have inStream : earlier ∈ stream source :=
    streamed ▸ List.mem_append_left _ member
  have newlineInStream : token ∈ stream source :=
    streamed ▸ List.mem_append_right _ List.mem_cons_self
  have noDedent : token.kind ≠ .dedent := by
    rw [isNewline]
    exact TokenKind.noConfusion
  obtain ⟨ends, inOrder⟩ := (stop_le_of_stream_eq streamed noDedent).1 earlier member
  by_cases visible : earlier.isVisible = true
  · exact Nat.lt_of_lt_of_le (start_lt_stop_of_mem_stream inStream visible) ends
  · -- A token that stands for no text starts where its line does, and this is not
    -- behind the line that ends here.
    rw [Bool.not_eq_true] at visible
    obtain ⟨line, isLine, isEnding⟩ := exists_line_of_newline newlineInStream isNewline
    rw [stream_eq_streamFrom] at inStream
    rcases emits_of_mem_streamFrom inStream with
      ⟨other, isOther, emits⟩ | ⟨kind, _, atEnd⟩
    · have sameNumber : token.line = line.number := by
        rw [isEnding]
        rfl
      rw [emits.line_eq, sameNumber] at inOrder
      rw [emits.start_of_hidden visible, isEnding]
      exact Nat.lt_of_le_of_lt (offset_le_of_number_le isLine isOther inOrder)
        (Line.offset_lt_ending (isLogical_of_mem_logicalLines isLine).2)
    · have placed := (placed_of_mem_stream newlineInStream).span.within
      have wide := start_lt_stop_of_mem_stream newlineInStream
        (by simp [Token.isVisible, isNewline])
      have size : earlier.span.stop = source.utf8ByteSize := by
        rw [atEnd, utf8ByteSize_eq_byteLength]
        rfl
      omega

end

/-! ### Sources with more room -/

/-- An error has the same wording and line as another one. -/
structure SessionError.SameReport (error other : SessionError) : Prop where
  message : other.message = error.message
  line : other.line = error.line

/--
Another source has the same tokens, but some of them so many bytes further on, and the
checker says the same of it.
-/
structure MakesRoom
    (source other : String)
    (kept moved : List Token)
    (bytes : Nat) : Prop where
  lexed : lex other = .ok (kept ++ moved.map (·.movedBy ⟨0, bytes⟩))
  checked : Results SessionError.SameReport Eq (check source) (check other)

theorem SessionError.sameReport_movedFrom
    (error : SessionError)
    (place bytes : Nat) :
    error.SameReport (error.movedFrom place ⟨0, bytes⟩) := by
  rw [movedFrom]
  split
  · cases error <;> exact ⟨rfl, rfl⟩
  · exact ⟨rfl, rfl⟩

theorem SessionError.refusal_movedFrom
    (token : Token)
    (message : String)
    (place : Nat)
    (displacement : Displacement) :
    refusal (token.movedFrom place displacement) message =
      (refusal token message).movedFrom place displacement := by
  have sameSpan : (refusal token message).span = token.span := rfl
  rw [Token.movedFrom, movedFrom, sameSpan]
  split <;> rfl

theorem Token.line_movedFrom
    (token : Token)
    (place bytes : Nat) :
    (token.movedFrom place ⟨0, bytes⟩).line = token.line := by
  rw [movedFrom]
  split <;> rfl

/-- Text put into a line makes room for itself, and does nothing else. -/
theorem Line.HasRoom.makesRoom
    {source : String}
    {before more front inserted behind : List Char}
    {line : Line}
    {kept moved : List Token}
    (room : line.HasRoom front inserted behind)
    (amid : line.Amid source before more)
    (logical : line.isLogical = true)
    (lexed : LayoutLexer.lex source = .ok (kept ++ moved))
    (early : ∀ token ∈ kept, token.span.start < line.offset + byteLength front)
    (late : ∀ token ∈ moved, line.offset + byteLength front ≤ token.span.start) :
    MakesRoom source
      (insertAt source (line.offset + byteLength front) (String.ofList inserted))
      kept moved (byteLength inserted) where
  lexed := by
    rw [(room.alike amid logical).lex_eq, lexed]
    exact congrArg Except.ok (map_movedFrom_append early late)
  checked := by
    have results :=
      (room.alike amid logical).check (fun moved => moved ▸ Token.kind_movedFrom _)
        (fun moved => moved ▸ Token.line_movedFrom _ _ _)
        (fun moved message => moved ▸ SessionError.refusal_movedFrom _ message _ _)
    refine results.imp ?_ fun _ _ => id
    rintro error _ rfl
    exact error.sameReport_movedFrom _ _

/-- The last line of a source that ends in an open one. -/
theorem exists_open_line
    {source : String}
    (opened : endsInOpenLine source = true) :
    ∃ earlier, ∃ line : Line,
      logicalLines source = earlier ++ [line] ∧ line.terminator = [] := by
  rw [endsInOpenLine, Option.any_eq_true] at opened
  obtain ⟨line, isLast, isOpen⟩ := opened
  rw [Bool.and_eq_true, List.isEmpty_iff] at isOpen
  obtain ⟨init, lines⟩ := List.getLast?_eq_some_iff.mp isLast
  refine ⟨init.filter Line.isLogical, line, ?_, isOpen.2⟩
  rw [logicalLines, lines, List.filter_append, List.filter_singleton, isOpen.1]
  rfl

theorem insertAt_utf8ByteSize
    (source text : String) :
    insertAt source source.utf8ByteSize text = source ++ text := by
  have shape : source.toList = source.toList ++ [] :=
    (List.append_nil _).symm
  apply String.toList_inj.mp
  rw [utf8ByteSize_eq_byteLength, toList_insertAt shape]
  simp

section

variable {source : String}
variable {before after : List Token}

/-- A logical line of a source that can be lexed is complete. -/
theorem exists_amid_of_mem
    {tokens : List Token}
    {line : Line}
    (lexed : lex source = .ok tokens)
    (isLine : line ∈ logicalLines source) :
    ∃ before more,
      line.Amid source before more ∧
        line.isLogical = true ∧
        line.lexed.error? = none := by
  obtain ⟨_, _, _, noErrors, _⟩ := lex_eq_ok_iff.mp lexed
  obtain ⟨earlier, later, lines⟩ := List.append_of_mem isLine
  obtain ⟨before, more, amid, _⟩ := exists_amid lines
  exact ⟨before, more, amid, (isLogical_of_mem_logicalLines isLine).2,
    noErrors line isLine⟩

/-- Blanks can be put in behind any lexical token. -/
theorem makesRoom_of_blanks
    {token : Token}
    {blanks : String}
    (lexed : lex source = .ok (before ++ token :: after))
    (isLexical : token.kind.isLayout = false)
    (notEmpty : blanks ≠ "")
    (areBlanks : Blanks blanks.toList) :
    MakesRoom source (insertAt source token.span.stop blanks) (before ++ [token]) after
      blanks.utf8ByteSize := by
  obtain ⟨_, _, streamed, _⟩ := exists_eof_of_lex lexed
  have inStream : token ∈ stream source :=
    streamed ▸ List.mem_append_right _ List.mem_cons_self
  obtain ⟨line, isLine, member⟩ := exists_line_of_lexical inStream isLexical
  obtain ⟨_, _, amid, logical, complete⟩ := exists_amid_of_mem lexed isLine
  obtain ⟨earlier, later, shape⟩ := List.append_of_mem member
  have someBlank : blanks.toList ≠ [] := by
    simpa using notEmpty
  obtain ⟨front, behind, isPlace, room⟩ :=
    Line.exists_hasRoom_of_tokens complete shape someBlank areBlanks
  have present : token.span.start < token.span.stop :=
    start_lt_stop_of_mem_stream inStream (by simp [Token.isVisible, isLexical])
  obtain ⟨ends, starts⟩ :=
    stop_le_of_stream_eq streamed (TokenKind.ne_of_lexical isLexical rfl)
  have early :
      ∀ other ∈ before ++ [token],
        other.span.start < line.offset + byteLength front := by
    intro other member
    rw [← isPlace]
    rcases List.mem_append.mp member with isEarlier | isToken
    · have otherInStream : other ∈ stream source :=
        streamed ▸ List.mem_append_left _ isEarlier
      calc
        other.span.start ≤ other.span.stop :=
          (placed_of_mem_stream otherInStream).span.ordered
        _ ≤ token.span.start := (ends other isEarlier).1
        _ < token.span.stop := present
    · rw [List.mem_singleton.mp isToken]
      exact present
  have late : ∀ other ∈ after, line.offset + byteLength front ≤ other.span.start :=
    isPlace ▸ starts
  rw [List.append_cons] at lexed
  have makesRoom := room.makesRoom amid logical lexed early late
  rwa [← isPlace, String.ofList_toList, ← utf8ByteSize_eq_byteLength] at makesRoom

section

variable {comment : String}
variable (noFeed : '\n' ∉ comment.toList)
variable (noReturn : '\r' ∉ comment.toList)
include noFeed noReturn

/-- A comment can be put at the end of any logical line. -/
theorem makesRoom_of_comment
    {front more : List Char}
    {line : Line}
    (amid : line.Amid source front more)
    (logical : line.isLogical = true)
    (complete : line.lexed.error? = none)
    (lexed : lex source = .ok (before ++ after))
    (early : ∀ token ∈ before, token.span.start < line.ending.offset)
    (late : ∀ token ∈ after, line.ending.offset ≤ token.span.start) :
    MakesRoom source (insertAt source line.ending.offset ("#" ++ comment)) before after
      ("#" ++ comment).utf8ByteSize := by
  have isComment : String.ofList ('#' :: comment.toList) = "#" ++ comment := by
    rw [String.ofList_cons, String.ofList_toList]
    rfl
  have room := Line.hasRoom_comment logical complete noFeed noReturn
  rw [← isComment, LayoutLexer.utf8ByteSize_ofList]
  exact room.makesRoom amid logical lexed early late

/-- A comment can be put in front of any line end. -/
theorem makesRoom_of_newline
    {newline : Token}
    (lexed : lex source = .ok (before ++ newline :: after))
    (isNewline : newline.kind = .newline) :
    MakesRoom source (insertAt source newline.span.start ("#" ++ comment)) before
      (newline :: after) ("#" ++ comment).utf8ByteSize := by
  obtain ⟨_, _, streamed, _⟩ := exists_eof_of_lex lexed
  have inStream : newline ∈ stream source :=
    streamed ▸ List.mem_append_right _ List.mem_cons_self
  have noDedent : newline.kind ≠ .dedent := by
    rw [isNewline]
    exact TokenKind.noConfusion
  obtain ⟨line, isLine, isEnding⟩ := exists_line_of_newline inStream isNewline
  obtain ⟨_, _, amid, logical, complete⟩ := exists_amid_of_mem lexed isLine
  have isPlace : line.ending.offset = newline.span.start := by
    rw [isEnding]
    rfl
  rw [← isPlace]
  refine makesRoom_of_comment noFeed noReturn amid logical complete lexed ?_ ?_
  · intro token member
    rw [isPlace]
    exact start_lt_of_newline streamed isNewline member
  · intro token member
    rw [isPlace]
    rcases List.mem_cons.mp member with rfl | isLater
    · exact Nat.le_refl _
    · exact Nat.le_trans (placed_of_mem_stream inStream).span.ordered
        ((stop_le_of_stream_eq streamed noDedent).2 token isLater)

/-- A comment can be put behind an open last line. -/
theorem exists_makesRoom_of_endsInOpenLine
    {tokens : List Token}
    (lexed : lex source = .ok tokens)
    (opened : endsInOpenLine source = true) :
    ∃ before dedents eof,
      tokens = before ++ (dedents ++ [eof]) ∧
        (∀ last, before.getLast? = some last → last.isVisible = true) ∧
        Closes source.utf8ByteSize dedents eof ∧
        MakesRoom source (source ++ ("#" ++ comment)) before (dedents ++ [eof])
          ("#" ++ comment).utf8ByteSize := by
  obtain ⟨earlier, line, lines, unterminated⟩ := exists_open_line opened
  have isLine : line ∈ logicalLines source :=
    lines ▸ List.mem_append_right _ List.mem_cons_self
  obtain ⟨_, more, amid, logical, complete⟩ := exists_amid_of_mem lexed isLine
  have endsHere : line.ending.offset = source.utf8ByteSize := by
    have noMore : more = [] :=
      (amid.first.eq_of_unterminated unterminated).2
    simp [Line.ending, utf8ByteSize_eq_byteLength, amid.text, amid.offset, unterminated,
      noMore]
  obtain ⟨changes, final, applied, noErrors, shape⟩ := lex_eq_ok_iff.mp lexed
  have present : ∀ line ∈ logicalLines source, line.lexed.tokens ≠ [] :=
    fun line member =>
      Line.lexed_tokens_ne_nil (isLogical_of_mem_logicalLines member).2
        (noErrors line member)
  refine ⟨_, _, _, shape, fun _ => isVisible_of_getLast?_groups present,
    utf8ByteSize_eq_byteLength source ▸ closes_closingTokens source final, ?_⟩
  rw [← insertAt_utf8ByteSize, ← endsHere]
  refine makesRoom_of_comment noFeed noReturn amid logical complete (shape ▸ lexed) ?_ ?_
  · intro token member
    obtain ⟨other, isOther, emits⟩ := exists_emits_of_mem_groups member
    rw [endsHere]
    by_cases visible : token.isVisible = true
    · have placed := emits.placed (standsIn_of_mem_logicalLines isOther)
      exact Nat.lt_of_lt_of_le (emits.start_lt_stop visible) placed.span.within
    · rw [Bool.not_eq_true] at visible
      obtain ⟨_, _, otherAmid, otherLogical, _⟩ := exists_amid_of_mem lexed isOther
      rw [emits.start_of_hidden visible, utf8ByteSize_eq_byteLength]
      exact Nat.lt_of_lt_of_le (Line.offset_lt_ending otherLogical)
        otherAmid.ending_le_sourceEnd
  · intro token member
    rw [endsHere, utf8ByteSize_eq_byteLength]
    rcases List.mem_append.mp member with isDedent | isEof
    · rw [List.eq_of_mem_replicate isDedent]
      exact Nat.le_refl _
    · rw [List.mem_singleton.mp isEof]
      exact Nat.le_refl _

end

end

/--
Spacing inside a line is immaterial. Blanks can be put in behind any lexical token, and
a comment in front of any line end or behind an open last line. The tokens in front of
the place stay as they are, those behind it are moved by the bytes put in, and the
checker gives the same summary or an error with the same message and line.
-/
theorem spacing_immaterial
    {source : String}
    {tokens : List Token}
    (lexed : lex source = .ok tokens) :
    (∀ before token after blanks,
      tokens = before ++ token :: after →
      token.kind.isLayout = false →
      blanks ≠ "" →
      Blanks blanks.toList →
        MakesRoom source (insertAt source token.span.stop blanks) (before ++ [token])
          after blanks.utf8ByteSize) ∧
    ∀ comment : String,
      '\n' ∉ comment.toList →
      '\r' ∉ comment.toList →
        (∀ before newline after,
          tokens = before ++ newline :: after →
          newline.kind = .newline →
            MakesRoom source (insertAt source newline.span.start ("#" ++ comment)) before
              (newline :: after) ("#" ++ comment).utf8ByteSize) ∧
        (endsInOpenLine source = true →
          ∃ before dedents eof,
            tokens = before ++ (dedents ++ [eof]) ∧
              (∀ last, before.getLast? = some last → last.isVisible = true) ∧
              Closes source.utf8ByteSize dedents eof ∧
              MakesRoom source (source ++ ("#" ++ comment)) before (dedents ++ [eof])
                ("#" ++ comment).utf8ByteSize) := by
  constructor
  · rintro before token after blanks rfl isLexical notEmpty areBlanks
    exact makesRoom_of_blanks lexed isLexical notEmpty areBlanks
  · intro comment noFeed noReturn
    constructor
    · rintro before newline after rfl isNewline
      exact makesRoom_of_newline noFeed noReturn lexed isNewline
    · exact exists_makesRoom_of_endsInOpenLine noFeed noReturn lexed

/--
Blanks around an operator, a comment behind a comment and before a carriage return, and
a comment at the end of the source, where a block is still open.
-/
theorem spacing_immaterial_block :
    MakesRoom "if a:\n  b<3.5#x\r\n  c" "if a:\n  b< \t3.5#x\r\n  c"
        ((stream "if a:\n  b<3.5#x\r\n  c").take 6 ++
          [⟨.operator .less, "<", 2, ⟨9, 10⟩⟩])
        ((stream "if a:\n  b<3.5#x\r\n  c").drop 7) 2 ∧
      MakesRoom "if a:\n  b<3.5#x\r\n  c" "if a:\n  b<3.5#x#é\r\n  c"
        ((stream "if a:\n  b<3.5#x\r\n  c").take 8)
        (⟨.newline, "\r\n", 2, ⟨15, 17⟩⟩ ::
          (stream "if a:\n  b<3.5#x\r\n  c").drop 9) 3 ∧
      ∃ before dedents eof,
        stream "if a:\n  b<3.5#x\r\n  c" = before ++ (dedents ++ [eof]) ∧
          MakesRoom "if a:\n  b<3.5#x\r\n  c" "if a:\n  b<3.5#x\r\n  c#é" before
            (dedents ++ [eof]) 3 := by
  have lexed :
      lex "if a:\n  b<3.5#x\r\n  c" = .ok (stream "if a:\n  b<3.5#x\r\n  c") := by
    rw [lex, (collect_eq _).2]
    decide +kernel
  obtain ⟨behindToken, comments⟩ := spacing_immaterial lexed
  obtain ⟨beforeNewline, atEnd⟩ := comments "é" (by decide) (by decide)
  have comment : "#" ++ "é" = "#é" := by
    decide
  have commentBytes : "#é".utf8ByteSize = 3 := by
    decide
  rw [comment, commentBytes] at beforeNewline atEnd
  refine ⟨?_, ?_, ?_⟩
  · have atToken :
        stream "if a:\n  b<3.5#x\r\n  c" =
          (stream "if a:\n  b<3.5#x\r\n  c").take 6 ++
            ⟨.operator .less, "<", 2, ⟨9, 10⟩⟩ ::
              (stream "if a:\n  b<3.5#x\r\n  c").drop 7 := by
      decide +kernel
    have blanks : Blanks " \t".toList :=
      List.all_eq_true.mp (by decide)
    have inserted :
        insertAt "if a:\n  b<3.5#x\r\n  c" 10 " \t" = "if a:\n  b< \t3.5#x\r\n  c" := by
      decide +kernel
    have room := behindToken _ _ _ " \t" atToken rfl (by decide) blanks
    rwa [inserted] at room
  · have atNewline :
        stream "if a:\n  b<3.5#x\r\n  c" =
          (stream "if a:\n  b<3.5#x\r\n  c").take 8 ++
            ⟨.newline, "\r\n", 2, ⟨15, 17⟩⟩ ::
              (stream "if a:\n  b<3.5#x\r\n  c").drop 9 := by
      decide +kernel
    have inserted :
        insertAt "if a:\n  b<3.5#x\r\n  c" 15 "#é" = "if a:\n  b<3.5#x#é\r\n  c" := by
      decide +kernel
    have room := beforeNewline _ _ _ atNewline rfl
    rwa [inserted] at room
  · have opened : endsInOpenLine "if a:\n  b<3.5#x\r\n  c" = true := by
      decide +kernel
    have appended :
        "if a:\n  b<3.5#x\r\n  c" ++ "#é" = "if a:\n  b<3.5#x\r\n  c#é" := by
      decide
    obtain ⟨before, dedents, eof, shape, _, _, room⟩ := atEnd opened
    rw [appended] at room
    exact ⟨before, dedents, eof, shape, room⟩

end LayoutLexer
