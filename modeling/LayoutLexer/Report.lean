import LayoutLexer.Blocks
import LayoutLexer.Recorder
import LayoutLexer.Text.Json

namespace LayoutLexer

/-!
# Reports on a source

A report shows the tokens of a named source, one to a line or as JSON, or sums
up its block structure. If the session fails, so does the report, and it names
the source. Either way the log of the session remains.
-/

/-- A source of which no report could be made, and why. -/
structure Failure where
  name : String
  error : SessionError
  deriving Repr, DecidableEq

/-- What a report shows of the source. -/
inductive ReportFormat where
  /-- The tokens, one to a line. -/
  | listing
  /-- The tokens as JSON. -/
  | json
  /-- The block structure. -/
  | check
  deriving Repr, DecidableEq

/-- A report or the reason why there is none, with the log of the session. -/
structure Report where
  result : Except Failure String
  log : List Event

namespace Report

/-- The record of a token, its members in alphabetical order. -/
def tokenRecord (token : Token) : Fields :=
  [("end", .number token.span.stop),
    ("kind", .text token.kind.name),
    ("line", .number token.line),
    ("start", .number token.span.start),
    ("text", .text token.text)]

/-- The tokens, one to a line. -/
def listing (tokens : List Token) : String :=
  "\n".intercalate (tokens.map Token.display)

/-- The tokens as JSON. -/
def json (tokens : List Token) : String :=
  Text.Json.array (tokens.map tokenRecord)

/-- The block structure of a named source in one sentence. -/
def summary (name : String) (summary : Blocks.Summary) : String :=
  name ++ ": ok (" ++ toString summary.statements ++
    " statements, max depth " ++ toString summary.maxDepth ++ ")"

/-- Report on a session of a named source. -/
def ofOutcome
    (name : String)
    (log : List Event)
    (render : ω → String)
    (result : Except SessionError ω) :
    Report :=
  match result with
  | .ok output =>
      {
        result := .ok (render output)
        log := log
      }
  | .error error =>
      {
        result := .error ⟨name, error⟩
        log := log ++ [.failed name error.category error.line]
      }

/-- Show the tokens of a named source. -/
def tokens
    (name source : String)
    (render : List Token → String) :
    Report :=
  let outcome := collect source
  ofOutcome name (outcome.announced .lex source) render outcome.result

/-- Sum up the block structure of a named source. -/
def check (name source : String) : Report :=
  let outcome := inspect source
  ofOutcome name (outcome.announced .run source) (summary name) outcome.result

/-- Report on a named source. -/
def make (format : ReportFormat) (name source : String) : Report :=
  match format with
  | .listing =>
      tokens name source listing
  | .json =>
      tokens name source json
  | .check =>
      check name source

end Report

end LayoutLexer
