import LayoutLexer.Proofs.Places
import LayoutLexer.Proofs.Protocol
import Mathlib.Data.List.Chain

namespace LayoutLexer

/-!
# The positions of tokens and errors

Whatever the parser, the tokens that a session pushes are placed in the source:
each has the text of the bytes it spans, and the line these start on. Offsets
and lines never decrease, and between two line ends the line does not change.
The error that ends a session says where it was found in the same terms.

A session pushes a part of the stream of its source, so it is enough to go
through the stream, line by line.
-/

/-! ### Where tokens come from -/

namespace Line

/-- The ways in which a line contributes a token. -/
inductive Emits (line : Line) : Token → Prop where
  | layout {kind : TokenKind} :
      kind = .indent ∨ kind = .dedent →
      Emits line (line.start.token kind line.width)
  | lexical {token : Token} :
      token ∈ line.lexed.tokens →
      Emits line token
  | newline :
      line.terminator ≠ [] →
      Emits line (line.ending.token .newline line.terminator.length)

section

variable {line : Line}
variable {token : Token}

theorem emits_of_mem_layout
    {change : IndentChange}
    (member : token ∈ pushedBy (line.layout change)) :
    line.Emits token := by
  obtain ⟨kind, isLayout, isToken⟩ := eq_of_mem_layout member
  exact isToken ▸ .layout isLayout

theorem emits_of_mem_newline
    (member : token ∈ pushedBy line.newline) :
    line.Emits token := by
  obtain ⟨terminated, isToken⟩ := eq_of_mem_newline member
  exact isToken ▸ .newline terminated

end

end Line

/-- A token of a stream comes from a line or from the end of the source. -/
theorem emits_of_mem_streamFrom
    {source : String}
    {lines : List Line}
    {indentation : Indentation}
    {token : Token}
    (member : token ∈ streamFrom source lines indentation) :
    (∃ line ∈ lines, line.Emits token) ∨
      ∃ kind,
        (kind = .dedent ∨ kind = .eof) ∧
          token = (sourceEnd source).token kind 0 := by
  induction lines generalizing indentation with
  | nil =>
      right
      rcases List.mem_append.mp member with closing | last
      · exact ⟨.dedent, .inl rfl, List.eq_of_mem_replicate closing⟩
      · exact ⟨.eof, .inr rfl, List.mem_singleton.mp last⟩
  | cons line others inductionHypothesis =>
      rcases streamFrom_cons_cases source line others indentation with
        isEmpty | ⟨change, rest, shape, goesOn⟩
      · simp [isEmpty] at member
      · rw [shape] at member
        rcases List.mem_append.mp member with laidOut | behindLayout
        · exact .inl ⟨line, List.mem_cons_self, Line.emits_of_mem_layout laidOut⟩
        · rcases List.mem_append.mp behindLayout with lexical | behindLexical
          · exact .inl ⟨line, List.mem_cons_self, .lexical lexical⟩
          · rcases goesOn with isEmpty | ⟨resolved, isRest⟩
            · simp [isEmpty] at behindLexical
            · rw [isRest] at behindLexical
              rcases List.mem_append.mp behindLexical with ending | later
              · exact .inl ⟨line, List.mem_cons_self,
                  Line.emits_of_mem_newline ending⟩
              · rcases inductionHypothesis later with
                  ⟨other, otherMember, emits⟩ | atEnd
                · exact .inl ⟨other, List.mem_cons_of_mem line otherMember, emits⟩
                · exact .inr atEnd

/-! ### Tokens are placed -/

section

variable {source : String}
variable {line : Line}
variable {token : Token}

/-- Reading within a content stays on its line. -/
theorem Line.StandsIn.advance
    (stands : line.StandsIn source)
    (count : Nat) :
    (line.start.advance count).StandsIn source :=
  stands.start.advance fun member =>
    stands.noLineFeed (List.mem_of_mem_take member)

theorem Line.Emits.placed
    (emits : line.Emits token)
    (stands : line.StandsIn source) :
    token.PlacedIn source := by
  cases emits with
  | layout _ =>
      exact stands.start.placed _ _
  | lexical member =>
      obtain ⟨count, kind, length, isToken, _⟩ :=
        exists_match_of_mem_lexemes member
      exact isToken ▸ (stands.advance count).placed kind length
  | newline _ =>
      exact stands.ending.placed _ _

theorem standsIn_of_mem_logicalLines
    (member : line ∈ logicalLines source) :
    line.StandsIn source :=
  (physicalLines_standsIn source).1 line
    (isLogical_of_mem_logicalLines member).1

/-- Every token of a stream is placed in the source. -/
theorem placed_of_mem_stream
    (member : token ∈ stream source) :
    token.PlacedIn source := by
  rw [stream_eq_streamFrom] at member
  rcases emits_of_mem_streamFrom member with ⟨line, logical, emits⟩ | ⟨kind, _, atEnd⟩
  · exact emits.placed (standsIn_of_mem_logicalLines logical)
  · exact atEnd ▸ (sourceEnd_standsIn source).placed kind 0

end

/-! ### Tokens come in order -/

namespace Token

/-- A token ends before another one starts, or both close a block there. -/
structure Precedes (first second : Token) : Prop where
  span :
    first.span.stop ≤ second.span.start ∨
      first.kind = .dedent ∧ first = second
  line : first.line ≤ second.line

/-- A token ends before a place. -/
structure EndsBefore (token : Token) (place : Cursor) : Prop where
  span : token.span.stop ≤ place.offset
  line : token.line ≤ place.line

/-- A token starts behind a place. -/
structure StartsBehind (token : Token) (place : Cursor) : Prop where
  span : place.offset ≤ token.span.start
  line : place.line ≤ token.line

theorem StartsBehind.of_le
    {token : Token}
    {place earlier : Cursor}
    (starts : token.StartsBehind place)
    (offset : earlier.offset ≤ place.offset)
    (line : earlier.line = place.line) :
    token.StartsBehind earlier :=
  ⟨Nat.le_trans offset starts.span, Nat.le_trans (Nat.le_of_eq line) starts.line⟩

end Token

section

variable {source : String}

/-- Tokens before a place precede those behind it. -/
theorem pairwise_precedes_append
    {first second : List Token}
    (place : Cursor)
    (firstOrdered : first.Pairwise Token.Precedes)
    (secondOrdered : second.Pairwise Token.Precedes)
    (before : ∀ token ∈ first, token.EndsBefore place)
    (behind : ∀ token ∈ second, token.StartsBehind place) :
    (first ++ second).Pairwise Token.Precedes := by
  apply List.pairwise_append.mpr
  refine ⟨firstOrdered, secondOrdered, ?_⟩
  intro earlier earlierMember later laterMember
  have ends := before earlier earlierMember
  have starts := behind later laterMember
  exact ⟨.inl (Nat.le_trans ends.span starts.span),
    Nat.le_trans ends.line starts.line⟩

theorem pairwise_precedes_replicate
    {token : Token}
    (dedent : token.kind = .dedent)
    (count : Nat) :
    (List.replicate count token).Pairwise Token.Precedes := by
  apply List.pairwise_replicate.mpr
  exact .inr ⟨.inr ⟨dedent, rfl⟩, Nat.le_refl _⟩

/-- The tokens of a content come in order. -/
theorem pairwise_precedes_lexemes
    (cursor : Cursor) :
    (lexemes cursor).tokens.Pairwise Token.Precedes := by
  fun_induction lexemes cursor with
  | case1 =>
      exact .nil
  | case2 _ _ _ _ _ inductionHypothesis =>
      exact inductionHypothesis
  | case3 =>
      exact .nil
  | case4 cursor _ _ _ _ _ kind length _ inductionHypothesis =>
      refine .cons ?_ inductionHypothesis
      intro later member
      have starts := (span_of_mem_lexemes member).1
      have line := line_of_mem_lexemes member
      exact ⟨.inl starts, Nat.le_of_eq line.symm⟩
  | case5 =>
      exact .nil

namespace Line

variable {line : Line}
variable {token : Token}

theorem pairwise_precedes_layout
    (line : Line)
    (change : IndentChange) :
    (pushedBy (line.layout change)).Pairwise Token.Precedes := by
  cases change with
  | unchanged =>
      exact .nil
  | indent =>
      exact List.pairwise_singleton _ _
  | dedent closed =>
      simp only [layout, pushedBy_note, pushedBy_replicate_push]
      exact pairwise_precedes_replicate rfl closed

theorem pairwise_precedes_newline
    (line : Line) :
    (pushedBy line.newline).Pairwise Token.Precedes := by
  rw [newline]
  split
  · exact .nil
  · exact List.pairwise_singleton _ _

/-- Lexical tokens stand behind the leading run. -/
theorem startsBehind_of_mem_lexed
    (member : token ∈ line.lexed.tokens) :
    token.StartsBehind (line.start.advance line.width) := by
  rw [lexed, lexemes_blankRun] at member
  exact ⟨(span_of_mem_lexemes member).1,
    Nat.le_of_eq (line_of_mem_lexemes member).symm⟩

theorem endsBefore_of_mem_lexed
    (member : token ∈ line.lexed.tokens) :
    token.EndsBefore line.ending := by
  have sameLine : token.line = line.start.line := line_of_mem_lexemes member
  exact ⟨(span_of_mem_lexemes member).2, Nat.le_of_eq sameLine⟩

theorem endsBefore_of_mem_layout
    {change : IndentChange}
    (member : token ∈ pushedBy (line.layout change)) :
    token.EndsBefore (line.start.advance line.width) := by
  obtain ⟨kind, _, isToken⟩ := eq_of_mem_layout member
  rw [isToken]
  exact ⟨Nat.le_refl _, Nat.le_refl _⟩

theorem advance_width_le
    (line : Line) :
    (line.start.advance line.width).offset ≤ line.ending.offset := by
  have split := byteLength_take_add_drop line.content line.width
  simp only [Cursor.advance, start, ending]
  omega

/-- A line emits no token before its start. -/
theorem Emits.startsBehind
    (emits : line.Emits token) :
    token.StartsBehind line.start := by
  cases emits with
  | layout _ =>
      exact ⟨Nat.le_refl _, Nat.le_refl _⟩
  | lexical member =>
      exact ⟨(span_of_mem_lexemes member).1,
        Nat.le_of_eq (line_of_mem_lexemes member).symm⟩
  | newline _ =>
      exact ⟨Nat.le_add_right _ _, Nat.le_refl _⟩

theorem Emits.line_eq
    (emits : line.Emits token) :
    token.line = line.number := by
  cases emits with
  | layout _ =>
      rfl
  | lexical member =>
      exact line_of_mem_lexemes member
  | newline _ =>
      rfl

/-- The place behind the terminator of a line, counted to the line itself. -/
def behind (line : Line) : Cursor :=
  line.ending.advance line.terminator.length

theorem offset_behind
    (line : Line) :
    line.behind.offset =
      line.offset + byteLength (line.content ++ line.terminator) := by
  simp [behind, ending, Cursor.advance, Nat.add_assoc]

/-- A source does not end before a line of it. -/
theorem StandsIn.behind_le
    (stands : line.StandsIn source) :
    line.behind.offset ≤ (sourceEnd source).offset ∧
      line.number ≤ (sourceEnd source).line := by
  obtain ⟨before, text, more, shape, first, offset, number⟩ := stands
  rw [offset_behind, offset, number, sourceEnd, shape, first.text_eq]
  simp only [byteLength_append, List.count_append]
  omega

/-- The terminator of a line ends it. -/
theorem endsBefore_of_mem_newline
    (member : token ∈ pushedBy line.newline) :
    token.EndsBefore line.behind := by
  rw [(eq_of_mem_newline member).2]
  exact ⟨Nat.le_refl _, Nat.le_refl _⟩

theorem startsBehind_of_mem_newline
    (member : token ∈ pushedBy line.newline) :
    token.StartsBehind line.ending := by
  rw [(eq_of_mem_newline member).2]
  exact ⟨Nat.le_refl _, Nat.le_refl _⟩

end Line

/-- The tokens of the lines behind a line start behind it. -/
theorem startsBehind_of_mem_streamFrom
    {line : Line}
    {others : List Line}
    {indentation : Indentation}
    {token : Token}
    (stands : line.StandsIn source)
    (ordered : ∀ later ∈ others, line.IsBefore later)
    (member : token ∈ streamFrom source others indentation) :
    token.StartsBehind line.behind := by
  rcases emits_of_mem_streamFrom member with
    ⟨later, laterMember, emits⟩ | ⟨kind, _, atEnd⟩
  · have isBefore := ordered later laterMember
    have starts := emits.startsBehind
    refine ⟨?_, Nat.le_trans (Nat.le_of_lt isBefore.number) starts.line⟩
    rw [line.offset_behind]
    exact Nat.le_trans isBefore.offset starts.span
  · obtain ⟨offset, number⟩ := stands.behind_le
    rw [atEnd]
    exact ⟨offset, number⟩

/-- The tokens of a stream come in order. -/
theorem pairwise_precedes_streamFrom
    {lines : List Line}
    {indentation : Indentation}
    (standing : ∀ line ∈ lines, line.StandsIn source)
    (ordered : lines.Pairwise Line.IsBefore) :
    (streamFrom source lines indentation).Pairwise Token.Precedes := by
  induction lines generalizing indentation with
  | nil =>
      apply pairwise_precedes_append (sourceEnd source)
      · exact pairwise_precedes_replicate rfl indentation.depth
      · exact List.pairwise_singleton _ _
      · intro token member
        rw [List.eq_of_mem_replicate member]
        exact ⟨Nat.le_refl _, Nat.le_refl _⟩
      · intro token member
        rw [List.mem_singleton.mp member]
        exact ⟨Nat.le_refl _, Nat.le_refl _⟩
  | cons line others inductionHypothesis =>
      obtain ⟨stands, standingOthers⟩ := List.forall_mem_cons.mp standing
      obtain ⟨isBefore, orderedOthers⟩ := List.pairwise_cons.mp ordered
      rcases streamFrom_cons_cases source line others indentation with
        isEmpty | ⟨change, rest, shape, goesOn⟩
      · rw [isEmpty]
        exact .nil
      · have restOrdered : rest.Pairwise Token.Precedes := by
          rcases goesOn with isEmpty | ⟨resolved, isRest⟩
          · rw [isEmpty]
            exact .nil
          · rw [isRest]
            apply pairwise_precedes_append line.behind
            · exact line.pairwise_precedes_newline
            · exact inductionHypothesis standingOthers orderedOthers
            · exact fun _ => Line.endsBefore_of_mem_newline
            · exact fun _ => startsBehind_of_mem_streamFrom stands isBefore
        have restBehind : ∀ token ∈ rest, token.StartsBehind line.ending := by
          intro token member
          rcases goesOn with isEmpty | ⟨resolved, isRest⟩
          · simp [isEmpty] at member
          · rw [isRest] at member
            rcases List.mem_append.mp member with ending | later
            · exact Line.startsBehind_of_mem_newline ending
            · exact (startsBehind_of_mem_streamFrom stands isBefore later).of_le
                (Nat.le_add_right _ _) rfl
        rw [shape]
        apply pairwise_precedes_append (line.start.advance line.width)
        · exact line.pairwise_precedes_layout change
        · apply pairwise_precedes_append line.ending
          · exact pairwise_precedes_lexemes line.start
          · exact restOrdered
          · exact fun _ => Line.endsBefore_of_mem_lexed
          · exact restBehind
        · exact fun _ => Line.endsBefore_of_mem_layout
        · intro token member
          rcases List.mem_append.mp member with lexical | later
          · exact Line.startsBehind_of_mem_lexed lexical
          · exact (restBehind token later).of_le line.advance_width_le rfl

theorem pairwise_precedes_stream
    (source : String) :
    (stream source).Pairwise Token.Precedes := by
  rw [stream_eq_streamFrom]
  exact pairwise_precedes_streamFrom
    (fun _ member => standsIn_of_mem_logicalLines member)
    (logicalLines_ordered source)

/-! ### Lines change at line ends -/

/-- Two neighbours are on the same line unless the first one ends it. -/
def Token.KeepsLine (token next : Token) : Prop :=
  token.kind = .newline ∨ token.line = next.line

theorem isChain_keepsLine_of_line_eq
    {number : Nat}
    {tokens : List Token}
    (sameLine : ∀ token ∈ tokens, token.line = number) :
    tokens.IsChain Token.KeepsLine := by
  apply List.Pairwise.isChain
  apply List.Pairwise.imp_of_mem ?_ (List.pairwise_of_forall fun _ _ => trivial)
  intro first second firstMember secondMember _
  exact .inr ((sameLine first firstMember).trans (sameLine second secondMember).symm)

/-- Tokens of one line may stand before tokens that go on with the line. -/
theorem isChain_keepsLine_append
    {number : Nat}
    {tokens rest : List Token}
    (sameLine : ∀ token ∈ tokens, token.line = number)
    (kept : rest.IsChain Token.KeepsLine)
    (goesOn : ∀ next ∈ rest.head?, next.line = number) :
    (tokens ++ rest).IsChain Token.KeepsLine := by
  apply List.isChain_append.mpr
  refine ⟨isChain_keepsLine_of_line_eq sameLine, kept, ?_⟩
  intro last lastMember next nextMember
  have lastLine := sameLine last (List.mem_of_getLast? lastMember)
  exact .inr (lastLine.trans (goesOn next nextMember).symm)

theorem line_of_mem_closingTokens
    {indentation : Indentation}
    {token : Token}
    (member : token ∈ closingTokens source indentation) :
    token.line = (sourceEnd source).line := by
  rcases List.mem_append.mp member with closing | last
  · rw [List.eq_of_mem_replicate closing]
    rfl
  · rw [List.mem_singleton.mp last]
    rfl

/-- A terminator ends its line; without one, the source ends on it. -/
theorem isChain_keepsLine_newline
    {line : Line}
    {others : List Line}
    {indentation : Indentation}
    (stands : line.StandsIn source)
    (terminated : ∀ later ∈ others, line.terminator ≠ [])
    (kept : (streamFrom source others indentation).IsChain Token.KeepsLine) :
    (pushedBy line.newline ++ streamFrom source others indentation).IsChain
        Token.KeepsLine ∧
      ∀ next ∈ (pushedBy line.newline ++
        streamFrom source others indentation).head?, next.line = line.number := by
  rw [Line.newline]
  split
  · rename_i unterminated
    cases others with
    | cons later others =>
        exact absurd unterminated (terminated later List.mem_cons_self)
    | nil =>
        refine ⟨kept, ?_⟩
        intro next isNext
        rw [stands.number_eq unterminated]
        exact line_of_mem_closingTokens (List.mem_of_head? isNext)
  · refine ⟨List.isChain_cons.mpr ⟨fun _ _ => .inl rfl, kept⟩, ?_⟩
    intro next isNext
    cases isNext
    rfl

theorem isChain_keepsLine_streamFrom
    {lines : List Line}
    {indentation : Indentation}
    (standing : ∀ line ∈ lines, line.StandsIn source)
    (terminated : lines.Pairwise fun line _ => line.terminator ≠ []) :
    (streamFrom source lines indentation).IsChain Token.KeepsLine := by
  induction lines generalizing indentation with
  | nil =>
      exact isChain_keepsLine_of_line_eq fun _ => line_of_mem_closingTokens
  | cons line others inductionHypothesis =>
      obtain ⟨stands, standingOthers⟩ := List.forall_mem_cons.mp standing
      obtain ⟨endsBefore, terminatedOthers⟩ := List.pairwise_cons.mp terminated
      rcases streamFrom_cons_cases source line others indentation with
        isEmpty | ⟨change, rest, shape, goesOn⟩
      · rw [isEmpty]
        exact .nil
      · have sameLine :
            ∀ token ∈ pushedBy (line.layout change) ++ line.lexed.tokens,
              token.line = line.number := by
          intro token member
          rcases List.mem_append.mp member with laidOut | lexical
          · exact (Line.emits_of_mem_layout laidOut).line_eq
          · exact (Line.Emits.lexical lexical).line_eq
        rw [shape, ← List.append_assoc]
        rcases goesOn with isEmpty | ⟨resolved, isRest⟩
        · rw [isEmpty, List.append_nil]
          exact isChain_keepsLine_of_line_eq sameLine
        · obtain ⟨kept, begins⟩ :=
            isChain_keepsLine_newline stands endsBefore
              (inductionHypothesis standingOthers terminatedOthers)
          rw [isRest]
          exact isChain_keepsLine_append sameLine kept begins

theorem isChain_keepsLine_stream
    (source : String) :
    (stream source).IsChain Token.KeepsLine := by
  rw [stream_eq_streamFrom]
  exact isChain_keepsLine_streamFrom
    (fun _ member => standsIn_of_mem_logicalLines member)
    (logicalLines_terminated source)

/-- The line stays the same up to the next line end. -/
theorem line_eq_of_isChain_keepsLine
    {first last : Token}
    {between after : List Token}
    (kept : (first :: (between ++ last :: after)).IsChain Token.KeepsLine)
    (noNewline : ∀ token ∈ first :: between, token.kind ≠ .newline) :
    first.line = last.line := by
  induction between generalizing first with
  | nil =>
      obtain ⟨step, _⟩ := List.isChain_cons_cons.mp kept
      exact step.resolve_left (noNewline first List.mem_cons_self)
  | cons next between inductionHypothesis =>
      obtain ⟨step, keptOthers⟩ := List.isChain_cons_cons.mp kept
      obtain ⟨notNewline, others⟩ := List.forall_mem_cons.mp noNewline
      exact (step.resolve_left notNewline).trans
        (inductionHypothesis keptOthers others)

end

/-! ### Errors -/

namespace SessionError

/--
What an error is about: the character that starts no token, the leading run of
the line that does not fit, or the last token that was pushed.
-/
def PointsAt (source : String) (pushed : List Token) : SessionError → Prop
  | .lexical c _ span =>
      span.LiesIn source ∧ span.textIn source = String.singleton c
  | .indentation number width span _ =>
      ∃ line ∈ physicalLines source,
        line.number = number ∧
          span.LiesIn source ∧
          span.start = line.offset ∧
          span.textIn source = String.ofList line.leadingRun ∧
          span.length = width
  | .parser number kind _ span =>
      ∃ token,
        pushed.getLast? = some token ∧
          token.line = number ∧ token.kind = kind ∧ token.span = span

/-- An error is reported where it is found, on a line of the source. -/
structure PlacedIn
    (error : SessionError)
    (source : String)
    (pushed : List Token) : Prop where
  subject : error.PointsAt source pushed
  line : error.line = lineNumber source error.span.start
  hasText :
    error.category ≠ .parser →
      ∃ line ∈ logicalLines source, line.number = error.line

variable {source : String}
variable {pushed : List Token}

/-- The error of a stream is placed, whatever was pushed. -/
theorem PlacedIn.of_lexByLines
    {error : SessionError}
    (failed : lexByLines source = .error error)
    (pushed : List Token) :
    error.PlacedIn source pushed := by
  obtain ⟨line, member, ⟨mismatch, isMisfit⟩ | lexicalFailed⟩ :=
    exists_line_of_lexByLines_error failed
  · have stands := standsIn_of_mem_logicalLines member
    obtain ⟨lies, text, number⟩ := stands.start.spanOf line.width
    have width : (line.start.spanOf line.width).length = line.width := by
      simp [Span.length, Cursor.spanOf, Line.start, line.take_width,
        line.byteLength_leadingRun]
    have run : line.start.rest.take line.width = line.leadingRun :=
      line.take_width
    rw [isMisfit]
    refine ⟨⟨line, (isLogical_of_mem_logicalLines member).1, rfl, lies, rfl, ?_,
      width⟩, number, fun _ => ⟨line, member, rfl⟩⟩
    rw [text, run]
  · obtain ⟨count, c, rest, ahead, isError⟩ :=
      exists_character_of_lexemes_error lexicalFailed
    have stands := (standsIn_of_mem_logicalLines member).advance count
    obtain ⟨lies, text, number⟩ := stands.spanOf 1
    rw [isError]
    refine ⟨⟨lies, ?_⟩, number, fun _ => ⟨line, member, rfl⟩⟩
    rw [text, ahead]
    rfl

/-- The error of a token that is not taken is placed where the token is. -/
theorem PlacedIn.of_getLast?
    {token : Token}
    (isLast : pushed.getLast? = some token)
    (placed : token.PlacedIn source)
    (message : String) :
    (SessionError.parser token.line token.kind message token.span).PlacedIn
      source pushed where
  subject := ⟨token, isLast, rfl, rfl, rfl⟩
  line := placed.line
  hasText := fun notParser => absurd rfl notParser

end SessionError

/-- The error of a session is placed in its source. -/
theorem error_placed
    {parser : Parser σ ω}
    {source : String}
    {error : SessionError}
    (failed : (Session.run parser source).result = .error error) :
    error.PlacedIn source (pushedTokens parser source) := by
  obtain ⟨state, settled⟩ := pushedTokens_settles parser source
  have placed :
      ∀ {token : Token},
        (pushedTokens parser source).getLast? = some token →
          token.PlacedIn source := by
    intro token isLast
    have pushed : token ∈ pushedTokens parser source :=
      List.mem_of_getLast? isLast
    exact placed_of_mem_stream
      ((pushedTokens_isPrefix parser source).subset pushed)
  rw [failed] at settled
  generalize pushedTokens parser source = pushed at settled placed ⊢
  cases settled with
  | acceptedEarly =>
      exact .of_getLast? (by simp) (placed (by simp)) _
  | rejected =>
      exact .of_getLast? (by simp) (placed (by simp)) _
  | interrupted _ interrupts =>
      exact .of_lexByLines interrupts _
  | exhausted _ _ isLast _ =>
      exact .of_getLast? isLast (placed isLast) _

/--
The tokens that a session pushes and the error that ends it are placed in its
source. A token has the text of the bytes it spans, between characters, and the
line these start on. Offsets and lines never decrease, and up to a line end the
line stays the same. An error points at the character, the leading run or the
token it is about, and no error of the source names a line without text.
-/
theorem positions_faithful
    (parser : Parser σ ω)
    (source : String) :
    (∀ token ∈ pushedTokens parser source, token.PlacedIn source) ∧
    (pushedTokens parser source).Pairwise (fun first second =>
      first.span.start ≤ second.span.start ∧
        first.span.stop ≤ second.span.stop ∧
        first.line ≤ second.line) ∧
    (∀ before first between last after,
      pushedTokens parser source =
          before ++ first :: (between ++ last :: after) →
        (∀ token ∈ first :: between, token.kind ≠ .newline) →
          first.line = last.line) ∧
    (∀ error, (Session.run parser source).result = .error error →
      error.PlacedIn source (pushedTokens parser source)) := by
  have early := pushedTokens_isPrefix parser source
  have placed : ∀ token ∈ pushedTokens parser source, token.PlacedIn source :=
    fun _ member => placed_of_mem_stream (early.subset member)
  refine ⟨placed, ?_, ?_, fun _ => error_placed⟩
  · have ordered := (pairwise_precedes_stream source).sublist early.sublist
    refine ordered.imp_of_mem ?_
    intro first second firstMember secondMember precedes
    have firstOrdered := (placed first firstMember).span.ordered
    have secondOrdered := (placed second secondMember).span.ordered
    rcases precedes.span with apart | ⟨_, same⟩
    · exact ⟨Nat.le_trans firstOrdered apart, Nat.le_trans apart secondOrdered,
        precedes.line⟩
    · exact ⟨same ▸ Nat.le_refl _, same ▸ Nat.le_refl _, precedes.line⟩
  · intro before first between last after shape noNewline
    obtain ⟨later, whole⟩ := early
    have kept := isChain_keepsLine_stream source
    rw [← whole, shape] at kept
    exact line_eq_of_isChain_keepsLine
      kept.left_of_append.right_of_append noNewline

/-- A line that fits no open block: the error points at its leading run. -/
theorem positions_faithful_misfit :
    (Session.run Recorder.parser "a # é\n  b\n c").result =
        .error (.indentation 3 1 ⟨11, 12⟩ [0, 2]) ∧
      (SessionError.indentation 3 1 ⟨11, 12⟩ [0, 2]).PlacedIn "a # é\n  b\n c"
        (pushedTokens Recorder.parser "a # é\n  b\n c") := by
  have failed :
      (Session.run Recorder.parser "a # é\n  b\n c").result =
        .error (.indentation 3 1 ⟨11, 12⟩ [0, 2]) := by
    refine (collect_eq _).2.trans ?_
    decide +kernel
  exact ⟨failed, (positions_faithful Recorder.parser _).2.2.2 _ failed⟩

end LayoutLexer
