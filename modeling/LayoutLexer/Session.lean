import LayoutLexer.Cursor
import LayoutLexer.Event
import LayoutLexer.Indentation
import LayoutLexer.Parser

set_option linter.unusedVariables false

namespace LayoutLexer.Session

/-!
# Lexing sessions

A session reads a source line by line and pushes its tokens to a parser. Lines
without a token are skipped. Of every other line the width is resolved against
the open blocks, which may push indents or dedents, and then its tokens are
pushed one by one up to the line end. At the end of the source the remaining
blocks are closed and the end of the input is pushed. The first error ends the
session, and whichever way it ends, the parser is released once.

Each token is pushed before the scanner reads past it. The recursion follows
the unread text: a statement never lengthens it (`statement_length_le`) and a
line shortens it (`line_length_lt`).
-/

/-- What a session has done so far. -/
structure Progress (σ : Type) where
  parser : σ
  delivered : Nat
  log : Array Event

/-- The end of a session before the end of its source. -/
structure Halt (σ : Type) where
  error : SessionError
  progress : Progress σ

/-- The result of a session. -/
structure Outcome (σ ω : Type) where
  result : Except SessionError ω
  /-- The state in which the parser was left by its release. -/
  parser : σ
  log : List Event

/-- The log of a session, headed by the operation it was run for. -/
def Outcome.announced
    (outcome : Outcome σ ω)
    (operation : Operation)
    (source : String) :
    List Event :=
  .started operation source.utf8ByteSize :: outcome.log

namespace Progress

/-- Nothing is done yet. -/
def start (parser : Parser σ ω) : Progress σ where
  parser := parser.initial
  delivered := 0
  log := #[]

/-- Add an event to the log. -/
def record (progress : Progress σ) (event : Event) : Progress σ :=
  { progress with log := progress.log.push event }

end Progress

/-- The rejection of a parser that accepts too soon. -/
def acceptedEarly : String :=
  "parser accepted before end of input"

/-- The rejection of a parser that waits for more at the end. -/
def inputExhausted : String :=
  "unexpected end of input"

/-- Push one token, log it and count it. -/
def push
    (parser : Parser σ ω)
    (progress : Progress σ)
    (token : Token) :
    Status String × Progress σ :=
  let answer := parser.push progress.parser token
  (answer.1, {
    parser := answer.2
    delivered := progress.delivered + 1
    log := progress.log.push (.deliver token.line token.kind token.text)
  })

/-- Push a token before the end; the session goes on if more is needed. -/
def deliver
    (parser : Parser σ ω)
    (progress : Progress σ)
    (token : Token) :
    Except (Halt σ) (Progress σ) :=
  match push parser progress token with
  | (.needMore, progress) =>
      .ok progress
  | (.accepted, progress) =>
      .error ⟨.refusal token acceptedEarly, progress⟩
  | (.rejected message, progress) =>
      .error ⟨.refusal token message, progress⟩

/-- Push the last token; the session is complete if it is accepted. -/
def finish
    (parser : Parser σ ω)
    (progress : Progress σ)
    (token : Token) :
    Except (Halt σ) (Progress σ) :=
  match push parser progress token with
  | (.accepted, progress) =>
      .ok progress
  | (.needMore, progress) =>
      .error ⟨.refusal token inputExhausted, progress⟩
  | (.rejected message, progress) =>
      .error ⟨.refusal token message, progress⟩

/-- Push the same token several times. -/
def deliverCopies
    (parser : Parser σ ω)
    (token : Token) :
    Nat → Progress σ → Except (Halt σ) (Progress σ)
  | 0, progress =>
      .ok progress
  | count + 1, progress =>
      match deliver parser progress token with
      | .error halt =>
          .error halt
      | .ok progress =>
          deliverCopies parser token count progress

/-- Resolve the width of a line and push the indents or dedents it makes. -/
def resolveWidth
    (parser : Parser σ ω)
    (cursor : Cursor)
    (width : Nat)
    (indentation : Indentation)
    (progress : Progress σ) :
    Except (Halt σ) (Indentation × Progress σ) :=
  match indentation.resolve width with
  | .error mismatch =>
      .error ⟨.indentation cursor.line width (cursor.spanOf width)
        mismatch.levels, progress⟩
  | .ok (.unchanged, resolved) =>
      .ok (resolved, progress)
  | .ok (.indent, resolved) =>
      match
        deliver parser (progress.record (.indent cursor.line width))
          (cursor.token .indent width)
      with
      | .error halt =>
          .error halt
      | .ok progress =>
          .ok (resolved, progress)
  | .ok (.dedent closed, resolved) =>
      match
        deliverCopies parser (cursor.token .dedent width) closed
          (progress.record (.dedent cursor.line width closed))
      with
      | .error halt =>
          .error halt
      | .ok progress =>
          .ok (resolved, progress)

/-- Push the tokens of a line whose width is resolved. -/
def statement
    (parser : Parser σ ω)
    (cursor : Cursor)
    (progress : Progress σ) :
    Except (Halt σ) (Cursor × Progress σ) :=
  match scanned : scan cursor.rest with
  | .token kind length =>
      match deliver parser progress (cursor.token kind length) with
      | .error halt =>
          .error halt
      | .ok progress =>
          statement parser (cursor.advance length) progress
  | .blank length =>
      statement parser (cursor.advance length) progress
  | .comment length =>
      statement parser (cursor.advance length) progress
  | .lineEnd length =>
      match deliver parser progress (cursor.token .newline length) with
      | .error halt =>
          .error halt
      | .ok progress =>
          .ok ((cursor.advance length).nextLine, progress)
  | .finished =>
      .ok (cursor, progress)
  | .unmatched c =>
      .error ⟨.lexical c cursor.line (cursor.spanOf 1), progress⟩
termination_by cursor.rest.length
decreasing_by
  all_goals exact drop_scan_lt scanned rfl

/-- A statement never lengthens the unread text. -/
theorem statement_length_le
    {parser : Parser σ ω}
    {cursor next : Cursor}
    {progress after : Progress σ}
    (completed : statement parser cursor progress = .ok (next, after)) :
    next.rest.length ≤ cursor.rest.length := by
  fun_induction statement parser cursor progress with
  | case1 => cases completed
  | case2 cursor _ kind length _ _ _ inductionHypothesis =>
      exact Nat.le_trans (inductionHypothesis completed)
        (cursor.length_rest_advance_le length)
  | case3 cursor _ length _ inductionHypothesis =>
      exact Nat.le_trans (inductionHypothesis completed)
        (cursor.length_rest_advance_le length)
  | case4 cursor _ length _ inductionHypothesis =>
      exact Nat.le_trans (inductionHypothesis completed)
        (cursor.length_rest_advance_le length)
  | case5 => cases completed
  | case6 cursor _ length =>
      cases completed
      exact cursor.length_rest_advance_le length
  | case7 =>
      cases completed
      exact Nat.le_refl _
  | case8 => cases completed

/-- A statement of a line that is not blank shortens the unread text. -/
theorem statement_length_lt
    {parser : Parser σ ω}
    {cursor next : Cursor}
    {progress after : Progress σ}
    (unread : cursor.rest ≠ [])
    (completed : statement parser cursor progress = .ok (next, after)) :
    next.rest.length < cursor.rest.length := by
  unfold statement at completed
  split at completed
  · split at completed
    · cases completed
    · rename_i scanned _ _ _
      exact Nat.lt_of_le_of_lt (statement_length_le completed)
        (drop_scan_lt scanned rfl)
  · rename_i scanned
    exact Nat.lt_of_le_of_lt (statement_length_le completed)
      (drop_scan_lt scanned rfl)
  · rename_i scanned
    exact Nat.lt_of_le_of_lt (statement_length_le completed)
      (drop_scan_lt scanned rfl)
  · split at completed
    · cases completed
    · rename_i scanned _ _ _
      cases completed
      exact drop_scan_lt scanned rfl
  · rename_i scanned
    exact absurd (scan_eq_finished.mp scanned) unread
  · cases completed

/-- Read one line, and push what it holds. -/
def line
    (parser : Parser σ ω)
    (cursor : Cursor)
    (indentation : Indentation)
    (progress : Progress σ) :
    Except (Halt σ) (Cursor × Indentation × Progress σ) :=
  let width := blankRun cursor.rest
  if endsLine (cursor.rest.drop width) then
    .ok (cursor.skipLine, indentation, progress)
  else
    match resolveWidth parser cursor width indentation progress with
    | .error halt =>
        .error halt
    | .ok (indentation, progress) =>
        match statement parser (cursor.advance width) progress with
        | .error halt =>
            .error halt
        | .ok (cursor, progress) =>
            .ok (cursor, indentation, progress)

/-- Reading a line shortens an unread text that is not empty. -/
theorem line_length_lt
    {parser : Parser σ ω}
    {cursor next : Cursor}
    {indentation resolved : Indentation}
    {progress after : Progress σ}
    (unread : cursor.rest ≠ [])
    (completed :
      line parser cursor indentation progress = .ok (next, resolved, after)) :
    next.rest.length < cursor.rest.length := by
  unfold line at completed
  dsimp only at completed
  split at completed
  · cases completed
    exact Cursor.length_rest_skipLine_lt unread
  · rename_i tokensAhead
    split at completed
    · cases completed
    · split at completed
      · cases completed
      · rename_i stated
        cases completed
        refine Nat.lt_of_lt_of_le (statement_length_lt ?_ stated)
          (cursor.length_rest_advance_le _)
        intro exhausted
        simp only [Cursor.advance] at exhausted
        simp [exhausted, endsLine] at tokensAhead

/-- Read all lines. -/
def lines
    (parser : Parser σ ω)
    (cursor : Cursor)
    (indentation : Indentation)
    (progress : Progress σ) :
    Except (Halt σ) (Cursor × Indentation × Progress σ) :=
  if atEnd : cursor.rest = [] then
    .ok (cursor, indentation, progress)
  else
    match completed : line parser cursor indentation progress with
    | .error halt =>
        .error halt
    | .ok (next, resolved, progress) =>
        lines parser next resolved progress
termination_by cursor.rest.length
decreasing_by
  exact line_length_lt atEnd completed

/-- Close the open blocks and push the end of the input. -/
def conclude
    (parser : Parser σ ω)
    (cursor : Cursor)
    (indentation : Indentation)
    (progress : Progress σ) :
    Except (Halt σ) (Progress σ) :=
  let closed := indentation.drain.1
  let noted :=
    if 0 < closed then
      progress.record (.closing cursor.line closed)
    else
      progress
  match deliverCopies parser (cursor.token .dedent 0) closed noted with
  | .error halt =>
      .error halt
  | .ok progress =>
      finish parser progress (cursor.token .eof 0)

/-- Read a whole source; on success, say how many lines were entered. -/
def drive
    (parser : Parser σ ω)
    (source : String) :
    Except (Halt σ) (Nat × Progress σ) :=
  match
    lines parser (.start source) .topLevel (.start parser)
  with
  | .error halt =>
      .error halt
  | .ok (cursor, indentation, progress) =>
      match conclude parser cursor indentation progress with
      | .error halt =>
          .error halt
      | .ok progress =>
          .ok (cursor.line, progress)

/--
Run a session to its end and release the parser. Its output counts only when it
accepted the whole input.
-/
def run (parser : Parser σ ω) (source : String) : Outcome σ ω :=
  match drive parser source with
  | .ok (lines, progress) =>
      let released := parser.release progress.parser
      {
        result := .ok released.1
        parser := released.2
        log := (progress.record (.complete progress.delivered lines)).log.toList
      }
  | .error halt =>
      let released := parser.release halt.progress.parser
      {
        result := .error halt.error
        parser := released.2
        log := (halt.progress.record
          (.aborted halt.error.category halt.error.line
            halt.progress.delivered)).log.toList
      }

end LayoutLexer.Session
