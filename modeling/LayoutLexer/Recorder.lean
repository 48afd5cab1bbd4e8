import LayoutLexer.Session

namespace LayoutLexer

/-!
# Collecting tokens

The recorder is the parser that takes any stream of tokens and keeps it. A
session with it yields the tokens of a source, the end of the input included.
-/

namespace Recorder

/-- Keep the token; only the end of the input completes a stream. -/
def push (tokens : Array Token) (token : Token) : Status String × Array Token :=
  if token.kind = .eof then
    (.accepted, tokens.push token)
  else
    (.needMore, tokens.push token)

/-- The parser that keeps every token. -/
def parser : Parser (Array Token) (List Token) where
  initial := #[]
  push := push
  release tokens := (tokens.toList, tokens)

end Recorder

/-- The session that collects the tokens of a source. -/
def collect (source : String) : Session.Outcome (Array Token) (List Token) :=
  Session.run Recorder.parser source

/-- The tokens of a source. -/
def lex (source : String) : Except SessionError (List Token) :=
  (collect source).result

/-- The log of collecting the tokens of a source. -/
def lexLog (source : String) : List Event :=
  (collect source).announced .lex source

end LayoutLexer
