import LayoutLexer.Token

namespace LayoutLexer

/-!
# Push parsers

A parser receives tokens one at a time and answers each: it needs more, it
accepts what it has seen, or it rejects. At the end it is released, once, and
gives its output. Tokens are handed over as they are found, so a parser that
does not need more stops the session.
-/

/-- The answer of a parser to one token. -/
inductive Status (ε : Type) where
  | needMore
  | accepted
  | rejected (reason : ε)
  deriving Repr, DecidableEq

/-- The same answer, with the reason of a rejection expressed otherwise. -/
def Status.mapReason (f : ε → δ) : Status ε → Status δ
  | .needMore => .needMore
  | .accepted => .accepted
  | .rejected reason => .rejected (f reason)

/--
A parser with states `σ` and output `ω`. Releasing a parser gives its output and
the state it is left in.
-/
structure Parser (σ ω : Type) where
  initial : σ
  push : σ → Token → Status String × σ
  release : σ → ω × σ

end LayoutLexer
