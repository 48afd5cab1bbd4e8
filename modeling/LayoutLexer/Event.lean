import LayoutLexer.Diagnostic
import LayoutLexer.Field

namespace LayoutLexer

/-!
# The log of a session

A session records what it does as events. Each event has a level and a list of
named fields, the last of which is a fixed message for everything but the start
of an operation. A reader of the log chooses the least severe level to be shown.
-/

/-- The severity of an event, most severe first. -/
inductive LogLevel where
  | error
  | warn
  | info
  | debug
  | trace
  deriving Repr, DecidableEq

namespace LogLevel

/-- The rank of a level; more severe levels rank lower. -/
def rank : LogLevel → Nat
  | .error => 0
  | .warn => 1
  | .info => 2
  | .debug => 3
  | .trace => 4

/-- The name of a level. -/
def name : LogLevel → String
  | .error => "ERROR"
  | .warn => "WARN"
  | .info => "INFO"
  | .debug => "DEBUG"
  | .trace => "TRACE"

end LogLevel

/-- An operation that announces itself in the log. -/
inductive Operation where
  /-- Tokens are collected. -/
  | lex
  /-- Tokens are pushed to a parser. -/
  | run
  deriving Repr, DecidableEq

/-- The name of an operation. -/
def Operation.name : Operation → String
  | .lex => "lex"
  | .run => "run"

/-- One entry of a log. -/
inductive Event where
  /-- An operation starts on a source of this many bytes. -/
  | started (operation : Operation) (sourceLength : Nat)
  /-- A token is handed to the parser. -/
  | deliver (line : Nat) (kind : TokenKind) (text : String)
  /-- A line opens a block. -/
  | indent (line width : Nat)
  /-- A line closes blocks. -/
  | dedent (line width closed : Nat)
  /-- The end of the input closes blocks. -/
  | closing (line closed : Nat)
  /-- The parser accepted the whole input. -/
  | complete (tokens lines : Nat)
  /-- The session ended in an error. -/
  | aborted (category : ErrorCategory) (line tokens : Nat)
  /-- No report could be made of a file. -/
  | failed (file : String) (category : ErrorCategory) (line : Nat)
  deriving Repr, DecidableEq

namespace Event

/-- The severity of an event. -/
def level : Event → LogLevel
  | .started .. => .info
  | .deliver .. => .trace
  | _ => .debug

/-- The operation that an event starts. -/
def operation? : Event → Option Operation
  | .started operation _ => some operation
  | _ => none

/-- The fields of an event, its message included. -/
def fields : Event → Fields
  | .started _ sourceLength =>
      [("source_len", .number sourceLength)]
  | .deliver line kind text =>
      [("line", .number line), ("kind", .text kind.name), ("text", .text text),
        ("message", .text "deliver")]
  | .indent line width =>
      [("line", .number line), ("width", .number width),
        ("message", .text "indent")]
  | .dedent line width closed =>
      [("line", .number line), ("width", .number width),
        ("closed", .number closed), ("message", .text "dedent")]
  | .closing line closed =>
      [("line", .number line), ("closed", .number closed),
        ("message", .text "closing open blocks at end of input")]
  | .complete tokens lines =>
      [("tokens", .number tokens), ("lines", .number lines),
        ("message", .text "session complete")]
  | .aborted category line tokens =>
      [("category", .text category.name), ("line", .number line),
        ("tokens", .number tokens), ("message", .text "session aborted")]
  | .failed file category line =>
      [("file", .text file), ("category", .text category.name),
        ("line", .number line), ("message", .text "session failed")]

/-- The events at a level or at a more severe one. -/
def atLevel (level : LogLevel) (log : List Event) : List Event :=
  log.filter fun event => event.level.rank ≤ level.rank

end Event

end LayoutLexer
