import LayoutLexer.Proofs.Positions

namespace LayoutLexer

/-!
# Tokens cover their source

A source can be put together again from its tokens and what stands between them.
The grammar below says what may stand there: blanks between two tokens of a line,
blanks and possibly a comment before a terminator or the end of the source, and
whole lines of this kind before a logical line. It follows the text from left to
right and counts the bytes, so every character is covered by one token or is
part of one such piece.

The tokens of a source follow this grammar (`coversFrom_streamFrom`). Nothing is
lost between two of them and no token is about text that is not there.
-/

/-! ### The grammar of a source -/

/-- Nothing, or a comment that stays on its line. -/
inductive OptionalComment : List Char → Prop where
  | absent :
      OptionalComment []
  | present {rest : List Char} :
      '\n' ∉ rest →
      OptionalComment ('#' :: rest)

/-- Blanks, and possibly a comment behind them. -/
def Filler (text : List Char) : Prop :=
  ∃ blanks comment,
    text = blanks ++ comment ∧ Blanks blanks ∧ OptionalComment comment

/-- The two ways to end a line. -/
inductive Terminator : List Char → Prop where
  | lineFeed : Terminator ['\n']
  | returnFeed : Terminator ['\r', '\n']

/-- A token has this text, and its bytes start at an offset. -/
structure Token.Covers (token : Token) (offset : Nat) (text : List Char) : Prop where
  sameText : token.text = String.ofList text
  sameBytes : token.span = ⟨offset, offset + byteLength text⟩

/--
Lexical tokens cover the content of a line behind its leading run. Blanks may
stand between two of them, a comment only behind the last.
-/
inductive CoversContent : Nat → List Char → List Token → Prop where
  | last {offset : Nat} {token : Token} {text filler : List Char} :
      token.kind.isLayout = false →
      text ≠ [] →
      token.Covers offset text →
      Filler filler →
      CoversContent offset (text ++ filler) [token]
  | next {offset : Nat} {token : Token} {text blanks rest : List Char}
      {tokens : List Token} :
      token.kind.isLayout = false →
      text ≠ [] →
      token.Covers offset text →
      Blanks blanks →
      CoversContent (offset + byteLength (text ++ blanks)) rest tokens →
      CoversContent offset (text ++ (blanks ++ rest)) (token :: tokens)

/-- Indents or dedents cover the leading run of a line. -/
def CoversRun (offset : Nat) (run : List Char) (tokens : List Token) : Prop :=
  ∀ token ∈ tokens,
    (token.kind = .indent ∨ token.kind = .dedent) ∧ token.Covers offset run

/-- Dedents and the end of the input stand at an offset and cover nothing. -/
structure Closes (offset : Nat) (dedents : List Token) (eof : Token) : Prop where
  dedents : ∀ token ∈ dedents, token.kind = .dedent ∧ token.Covers offset []
  isEof : eof.kind = .eof
  eof : eof.Covers offset []

/-- Tokens cover a text that begins with a line. -/
inductive CoversFrom : Nat → List Char → List Token → Prop where
  /-- A line without tokens is passed over. -/
  | skipped {offset : Nat} {filler terminator rest : List Char}
      {tokens : List Token} :
      Filler filler →
      Terminator terminator →
      CoversFrom (offset + byteLength (filler ++ terminator)) rest tokens →
      CoversFrom offset (filler ++ (terminator ++ rest)) tokens
  /--
  The tokens of a logical line. A carriage return before the line feed is part
  of the terminator.
  -/
  | line {offset : Nat} {run content terminator rest : List Char}
      {layout lexical tokens : List Token} {newline : Token} :
      Blanks run →
      CoversRun offset run layout →
      CoversContent (offset + byteLength run) content lexical →
      newline.kind = .newline →
      newline.Covers (offset + byteLength (run ++ content)) terminator →
      Terminator terminator →
      (terminator = ['\n'] → content.getLast? ≠ some '\r') →
      CoversFrom (offset + byteLength (run ++ (content ++ terminator))) rest
        tokens →
      CoversFrom offset (run ++ (content ++ (terminator ++ rest)))
        (layout ++ (lexical ++ newline :: tokens))
  /-- The tokens of a logical line that the source ends on. -/
  | lastLine {offset : Nat} {run content : List Char}
      {layout lexical dedents : List Token} {eof : Token} :
      Blanks run →
      CoversRun offset run layout →
      CoversContent (offset + byteLength run) content lexical →
      Closes (offset + byteLength (run ++ content)) dedents eof →
      CoversFrom offset (run ++ content)
        (layout ++ (lexical ++ (dedents ++ [eof])))
  /-- No logical line is left. -/
  | finished {offset : Nat} {filler : List Char}
      {dedents : List Token} {eof : Token} :
      Filler filler →
      Closes (offset + byteLength filler) dedents eof →
      CoversFrom offset filler (dedents ++ [eof])

/-! ### Contents -/

theorem Cursor.covers_token
    (cursor : Cursor)
    (kind : TokenKind)
    (length : Nat) :
    (cursor.token kind length).Covers cursor.offset (cursor.rest.take length) :=
  ⟨rfl, rfl⟩

/-- What lexical tokens cover may have blanks or a comment behind it. -/
theorem CoversContent.cons
    {offset : Nat}
    {token : Token}
    {text blanks rest : List Char}
    {tokens : List Token}
    (lexical : token.kind.isLayout = false)
    (present : text ≠ [])
    (covers : token.Covers offset text)
    (areBlanks : Blanks blanks)
    (behind :
      tokens = [] ∧ OptionalComment rest ∨
        CoversContent (offset + byteLength text + byteLength blanks) rest
          tokens) :
    CoversContent offset (text ++ (blanks ++ rest)) (token :: tokens) := by
  rcases behind with ⟨isLast, comment⟩ | others
  · rw [isLast]
    exact .last lexical present covers ⟨blanks, rest, rfl, areBlanks, comment⟩
  · refine .next lexical present covers areBlanks ?_
    rw [byteLength_append, ← Nat.add_assoc]
    exact others

/-- The tokens of a text cover it, up to blanks before them. -/
theorem coversContent_lexemes
    {cursor : Cursor}
    (complete : (lexemes cursor).error? = none)
    (noFeed : '\n' ∉ cursor.rest) :
    ∃ blanks rest,
      cursor.rest = blanks ++ rest ∧
        Blanks blanks ∧
        ((lexemes cursor).tokens = [] ∧ OptionalComment rest ∨
          CoversContent (cursor.offset + byteLength blanks) rest
            (lexemes cursor).tokens) := by
  fun_induction lexemes cursor with
  | case1 cursor ahead =>
      exact ⟨[], [], ahead, blanks_nil, .inl ⟨rfl, .absent⟩⟩
  | case2 cursor c rest ahead blank inductionHypothesis =>
      have restNoFeed : '\n' ∉ (cursor.advance 1).rest :=
        fun member => noFeed (List.mem_of_mem_drop member)
      obtain ⟨blanks, others, shape, areBlanks, covers⟩ :=
        inductionHypothesis complete restNoFeed
      have behind : rest = blanks ++ others := by
        simpa [Cursor.advance, ahead] using shape
      refine ⟨c :: blanks, others, by rw [ahead, behind, List.cons_append],
        List.forall_mem_cons.mpr ⟨blank, areBlanks⟩, ?_⟩
      simpa [Cursor.advance, ahead, Nat.add_assoc] using covers
  | case3 cursor rest ahead noBlank =>
      have restNoFeed : '\n' ∉ rest :=
        fun member => noFeed (ahead ▸ List.mem_cons_of_mem _ member)
      exact ⟨[], '#' :: rest, ahead, blanks_nil,
        .inl ⟨rfl, .present restNoFeed⟩⟩
  | case4 cursor c rest ahead noBlank noMark kind length found
      inductionHypothesis =>
      rw [← longestMatch_eq_firstLongest] at found
      have positive := longestMatch_nonempty _ _ kind length found
      have present : cursor.rest.take length ≠ [] := by
        simp [ahead, Nat.ne_of_gt positive]
      have restNoFeed : '\n' ∉ (cursor.advance length).rest :=
        fun member => noFeed (List.mem_of_mem_drop member)
      obtain ⟨blanks, others, shape, areBlanks, covers⟩ :=
        inductionHypothesis complete restNoFeed
      refine ⟨[], cursor.rest, rfl, blanks_nil, .inr ?_⟩
      have split : cursor.rest = cursor.rest.take length ++ (blanks ++ others) := by
        rw [← shape]
        exact (List.take_append_drop length cursor.rest).symm
      have token :
          CoversContent cursor.offset
            (cursor.rest.take length ++ (blanks ++ others))
            (cursor.token kind length ::
              (lexemes (cursor.advance length)).tokens) :=
        .cons (isLayout_of_longestMatch found) present
          (cursor.covers_token kind length) areBlanks covers
      rw [← split] at token
      exact token
  | case5 =>
      cases complete

/-! ### Lines -/

namespace Line

variable {line : Line}

/-- A line that is passed over holds only filler. -/
theorem filler_of_not_isLogical
    (notLogical : ¬ line.isLogical = true)
    (noFeed : '\n' ∉ line.content) :
    Filler line.content := by
  refine ⟨line.leadingRun, line.content.dropWhile isBlank,
    line.leadingRun_append.symm, line.blanks_leadingRun, ?_⟩
  rw [isLogical] at notLogical
  split at notLogical
  · rename_i isEmpty
    rw [isEmpty]
    exact .absent
  · rename_i c rest body
    have isMark : c = '#' := by
      simpa using notLogical
    have restNoFeed : '\n' ∉ rest := by
      intro member
      apply noFeed
      rw [← line.leadingRun_append, body]
      exact List.mem_append_right _ (List.mem_cons_of_mem c member)
    rw [body, isMark]
    exact .present restNoFeed

/-- The lexical tokens of a logical line cover what its leading run leaves. -/
theorem coversContent_lexed
    (logical : line.isLogical = true)
    (complete : line.lexed.error? = none)
    (noFeed : '\n' ∉ line.content) :
    CoversContent (line.offset + byteLength line.leadingRun)
      (line.content.dropWhile isBlank) line.lexed.tokens := by
  have behindRun : line.lexed = lexemes (line.start.advance line.width) :=
    lexemes_blankRun line.start
  have body :
      (line.start.advance line.width).rest = line.content.dropWhile isBlank :=
    drop_blankRun line.content
  have place :
      (line.start.advance line.width).offset =
        line.offset + byteLength line.leadingRun := by
    rw [← line.take_width]
    rfl
  have bodyNoFeed : '\n' ∉ (line.start.advance line.width).rest :=
    fun member => noFeed (List.mem_of_mem_drop member)
  have present := lexed_tokens_ne_nil logical complete
  rw [behindRun] at complete present ⊢
  obtain ⟨blanks, rest, shape, areBlanks, covers⟩ :=
    coversContent_lexemes complete bodyNoFeed
  -- The leading run is all of the blanks, so none is left before the token.
  have noBlanks : blanks = [] := by
    cases blanks with
    | nil =>
        rfl
    | cons c others =>
        have notBlank := List.head?_dropWhile_not isBlank line.content
        rw [← body, shape] at notBlank
        simp [areBlanks c List.mem_cons_self] at notBlank
  rw [noBlanks, List.nil_append, body] at shape
  rw [noBlanks, place] at covers
  rw [shape]
  exact covers.resolve_left fun isEmpty => present isEmpty.1

theorem coversRun_layout
    (line : Line)
    (change : IndentChange) :
    CoversRun line.offset line.leadingRun (pushedBy (line.layout change)) := by
  intro token member
  obtain ⟨kind, isLayout, isToken⟩ := eq_of_mem_layout member
  have covers := line.start.covers_token kind line.width
  rw [isToken]
  exact ⟨isLayout, line.take_width ▸ covers⟩

end Line

/-! ### Sources -/

/-- The end of a source closes the open blocks. -/
theorem closes_closingTokens
    (source : String)
    (indentation : Indentation) :
    Closes (byteLength source.toList)
      (List.replicate indentation.depth ((sourceEnd source).token .dedent 0))
      ((sourceEnd source).token .eof 0) where
  dedents := by
    intro token member
    rw [List.eq_of_mem_replicate member]
    exact ⟨rfl, (sourceEnd source).covers_token .dedent 0⟩
  isEof := rfl
  eof := (sourceEnd source).covers_token .eof 0

/-- A terminator that is there is one of two. -/
theorem FirstLine.terminator_of_ne_nil
    {text content terminator more : List Char}
    (first : FirstLine text content terminator more)
    (terminated : terminator ≠ []) :
    Terminator terminator ∧
      (terminator = ['\n'] → content.getLast? ≠ some '\r') := by
  cases first with
  | lineFeed _ _ _ noReturn =>
      exact ⟨.lineFeed, fun _ => noReturn⟩
  | returnFeed =>
      exact ⟨.returnFeed, nofun⟩
  | unterminated =>
      exact absurd rfl terminated

namespace Line

variable {line : Line}
variable {text more : List Char}
variable {tokens : List Token}

/-- A line that is passed over leaves the tokens to the lines behind it. -/
theorem coversFrom_of_skipped
    (first : FirstLine text line.content line.terminator more)
    (notLogical : ¬ line.isLogical = true)
    (terminated : line.terminator ≠ [])
    (covers :
      CoversFrom (line.offset + byteLength (line.content ++ line.terminator))
        more tokens) :
    CoversFrom line.offset text tokens := by
  have filler := filler_of_not_isLogical notLogical first.endsBefore.noLineFeed
  rw [first.text_eq]
  exact .skipped filler (first.terminator_of_ne_nil terminated).1 covers

/-- The tokens of a terminated logical line stand before those behind it. -/
theorem coversFrom_of_terminated
    (first : FirstLine text line.content line.terminator more)
    (logical : line.isLogical = true)
    (complete : line.lexed.error? = none)
    (terminated : line.terminator ≠ [])
    (change : IndentChange)
    (covers :
      CoversFrom (line.offset + byteLength (line.content ++ line.terminator))
        more tokens) :
    CoversFrom line.offset text
      (pushedBy (line.layout change) ++
        (line.lexed.tokens ++ (pushedBy line.newline ++ tokens))) := by
  have content := coversContent_lexed logical complete first.endsBefore.noLineFeed
  have ending := line.ending.covers_token .newline line.terminator.length
  obtain ⟨isTerminator, noReturn⟩ := first.terminator_of_ne_nil terminated
  have bodyNoReturn :
      line.terminator = ['\n'] →
        (line.content.dropWhile isBlank).getLast? ≠ some '\r' := by
    intro isFeed returns
    apply noReturn isFeed
    rw [← line.leadingRun_append, List.getLast?_append, returns]
    rfl
  have wholeEnding :
      (line.ending.token .newline line.terminator.length).Covers
        (line.offset +
          byteLength (line.leadingRun ++ line.content.dropWhile isBlank))
        line.terminator := by
    rw [line.leadingRun_append]
    rwa [Line.ending, List.take_length] at ending
  rw [newline_of_terminated terminated, first.text_eq,
    ← line.leadingRun_append, List.append_assoc]
  refine .line line.blanks_leadingRun (line.coversRun_layout change) content rfl
    wholeEnding isTerminator bodyNoReturn ?_
  rwa [← List.append_assoc, line.leadingRun_append]

/-- The tokens of a logical line that the source ends on cover it. -/
theorem coversFrom_of_unterminated
    {source : String}
    {indentation : Indentation}
    (first : FirstLine line.content line.content [] [])
    (logical : line.isLogical = true)
    (complete : line.lexed.error? = none)
    (change : IndentChange)
    (untilEnd : line.offset + byteLength line.content = byteLength source.toList) :
    CoversFrom line.offset line.content
      (pushedBy (line.layout change) ++
        (line.lexed.tokens ++ closingTokens source indentation)) := by
  have content := coversContent_lexed logical complete first.endsBefore.noLineFeed
  have closes := closes_closingTokens source indentation
  rw [← untilEnd, ← line.leadingRun_append] at closes
  have covers :=
    CoversFrom.lastLine line.blanks_leadingRun (line.coversRun_layout change)
      content closes
  rwa [line.leadingRun_append] at covers

end Line

open Session in
/-- The tokens of what is left of a source cover it. -/
theorem coversFrom_streamFrom
    {source : String}
    {text : List Char}
    {offset number : Nat}
    {indentation : Indentation}
    (untilEnd : offset + byteLength text = byteLength source.toList)
    (complete : Completes (remainingLines text offset number) indentation) :
    CoversFrom offset text
      (streamFrom source (remainingLines text offset number) indentation) := by
  induction text using firstLine_induction
    generalizing offset number indentation with
  | nil =>
      have closes := closes_closingTokens source indentation
      rw [← untilEnd] at closes
      exact .finished ⟨[], [], rfl, blanks_nil, .absent⟩ closes
  | @line text content terminator more first inductionHypothesis =>
      let line : Line := ⟨number, offset, content, terminator⟩
      have later :
          ∀ resolved,
            Completes (remainingLines more (line.next more).offset
              (line.next more).line) resolved →
            CoversFrom (offset + byteLength (content ++ terminator)) more
              (streamFrom source
                (remainingLines more (line.next more).offset
                  (line.next more).line) resolved) := by
        intro resolved completeOthers
        refine inductionHypothesis ?_ completeOthers
        rw [← untilEnd, first.text_eq]
        simp [Nat.add_assoc]
      rw [remainingLines_eq first] at complete ⊢
      by_cases logical : line.isLogical = true
      · rw [if_pos logical] at complete ⊢
        obtain ⟨change, resolved, found, noError, completeOthers⟩ :=
          (completes_cons line _ indentation).mp complete
        rw [streamFrom, found, noError]
        by_cases terminated : terminator = []
        · obtain ⟨rfl, rfl⟩ := first.eq_of_unterminated terminated
          subst terminated
          exact Line.coversFrom_of_unterminated first logical noError change
            untilEnd
        · exact Line.coversFrom_of_terminated first logical noError terminated
            change (later resolved completeOthers)
      · rw [if_neg logical] at complete ⊢
        by_cases terminated : terminator = []
        · obtain ⟨rfl, rfl⟩ := first.eq_of_unterminated terminated
          have filler : Filler text :=
            Line.filler_of_not_isLogical logical first.endsBefore.noLineFeed
          have closes := closes_closingTokens source indentation
          rw [← untilEnd] at closes
          exact .finished filler closes
        · exact Line.coversFrom_of_skipped first logical terminated
            (later indentation complete)

/-! ### Tokens that stand for text -/

/-- Whether a token stands for text of its line, not for the layout alone. -/
def Token.isVisible (token : Token) : Bool :=
  !token.kind.isLayout || token.kind == .newline

theorem byteLength_pos
    {text : List Char}
    (present : text ≠ []) :
    0 < byteLength text := by
  cases text with
  | nil =>
      exact absurd rfl present
  | cons c rest =>
      rw [byteLength_cons]
      exact Nat.add_pos_left c.utf8Size_pos _

theorem Cursor.start_lt_stop
    {cursor : Cursor}
    {length : Nat}
    (present : cursor.rest.take length ≠ [])
    (kind : TokenKind) :
    (cursor.token kind length).span.start <
      (cursor.token kind length).span.stop :=
  Nat.lt_add_of_pos_right (byteLength_pos present)

/-- A visible token of a line has at least one byte. -/
theorem Line.Emits.start_lt_stop
    {line : Line}
    {token : Token}
    (emits : line.Emits token)
    (visible : token.isVisible = true) :
    token.span.start < token.span.stop := by
  cases emits with
  | layout isLayout =>
      rcases isLayout with isIndent | isDedent
      · simp [isIndent, Token.isVisible, Cursor.token, TokenKind.isLayout] at visible
      · simp [isDedent, Token.isVisible, Cursor.token, TokenKind.isLayout] at visible
  | lexical member =>
      obtain ⟨count, kind, length, isToken, longest⟩ :=
        exists_match_of_mem_lexemes member
      have positive := longestMatch_nonempty _ _ kind length longest
      have within := length_le_of_longestMatch longest
      rw [isToken]
      refine Cursor.start_lt_stop ?_ kind
      intro isEmpty
      have counted := congrArg List.length isEmpty
      rw [List.length_take_of_le within] at counted
      exact absurd counted (Nat.ne_of_gt positive)
  | newline terminated =>
      refine Cursor.start_lt_stop ?_ .newline
      rwa [Line.ending, List.take_length]

/-- A visible token of a stream has at least one byte. -/
theorem start_lt_stop_of_mem_stream
    {source : String}
    {token : Token}
    (member : token ∈ stream source)
    (visible : token.isVisible = true) :
    token.span.start < token.span.stop := by
  rw [stream_eq_streamFrom] at member
  rcases emits_of_mem_streamFrom member with
    ⟨line, _, emits⟩ | ⟨kind, isDedent | isEof, atEnd⟩
  · exact emits.start_lt_stop visible
  · rw [atEnd, isDedent] at visible
    cases visible
  · rw [atEnd, isEof] at visible
    cases visible

/--
The tokens of a source cover it without loss. The lexical tokens and line ends
come one behind the other, and each covers some bytes; all other bytes are
blanks, comments and lines without tokens, where the grammar has them. Indents
and dedents cover the leading run of their line, and at the end of the source
they and the end of the input cover nothing.
-/
theorem tokens_cover_source
    {source : String}
    {tokens : List Token}
    (lexed : lex source = .ok tokens) :
    (∀ token ∈ tokens.filter Token.isVisible,
      token.span.start < token.span.stop) ∧
    (tokens.filter Token.isVisible).Pairwise (fun first second =>
      first.span.stop ≤ second.span.start) ∧
    CoversFrom 0 source.toList tokens := by
  obtain ⟨before, eof, whole, _⟩ := exists_eof_of_lex lexed
  refine ⟨?_, ?_, ?_⟩
  · intro token member
    obtain ⟨inTokens, visible⟩ := List.mem_filter.mp member
    exact start_lt_stop_of_mem_stream (whole ▸ inTokens) visible
  · have ordered := pairwise_precedes_stream source
    rw [whole] at ordered
    refine (ordered.filter Token.isVisible).imp_of_mem ?_
    intro first second firstMember _ precedes
    have visible := (List.mem_filter.mp firstMember).2
    rcases precedes.span with apart | ⟨isDedent, _⟩
    · exact apart
    · simp [Token.isVisible, isDedent, TokenKind.isLayout] at visible
  · have complete := (exists_lex_iff_completes source).mp ⟨tokens, lexed⟩
    rw [← whole, stream_eq_streamFrom]
    exact coversFrom_streamFrom (Nat.zero_add _) complete

/-- A header, an indented line with a comment, and a blank line are covered. -/
theorem tokens_cover_source_block :
    ∃ tokens,
      lex "if x:\r\n  \ty # é\r\n\n" = .ok tokens ∧
        tokens.map Token.text =
          ["if", "x", ":", "\r\n", "  \t", "y", "\r\n", "", ""] ∧
        CoversFrom 0 "if x:\r\n  \ty # é\r\n\n".toList tokens := by
  obtain ⟨tokens, lexed, texts⟩ :
      ∃ tokens,
        lex "if x:\r\n  \ty # é\r\n\n" = .ok tokens ∧
          tokens.map Token.text =
            ["if", "x", ":", "\r\n", "  \t", "y", "\r\n", "", ""] := by
    refine ⟨(stream "if x:\r\n  \ty # é\r\n\n"), ?_, ?_⟩
    · rw [lex, (collect_eq _).2]
      decide +kernel
    · decide +kernel
  exact ⟨tokens, lexed, texts, (tokens_cover_source lexed).2.2⟩

end LayoutLexer
