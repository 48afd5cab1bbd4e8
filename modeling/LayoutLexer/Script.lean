import LayoutLexer.Session

namespace LayoutLexer.Script

/-!
# Parsers that follow a script

A script fixes the answers of a parser by the number of the push, counted from
one. Where it says nothing the parser behaves like the recorder: it needs more
until the end of the input, which it accepts. Such a parser shows what a session
does with any pattern of answers.
-/

/-- The answer to give at one push. -/
structure Cue where
  push : Nat
  answer : Status String
  deriving Repr, DecidableEq

/-- What a scripted parser has lived through. -/
structure Record where
  seen : Array Token
  releases : Nat

/-- The answer to a token; the first cue for a push counts. -/
def answer (script : List Cue) (push : Nat) (token : Token) : Status String :=
  match script.find? fun cue => cue.push == push with
  | some cue =>
      cue.answer
  | none =>
      if token.kind = .eof then
        .accepted
      else
        .needMore

/-- The parser that follows a script; its output is the number of pushes. -/
def parser (script : List Cue) : Parser Record Nat where
  initial := ⟨#[], 0⟩
  push record token :=
    (answer script (record.seen.size + 1) token,
      { record with seen := record.seen.push token })
  release record :=
    (record.seen.size, { record with releases := record.releases + 1 })

end LayoutLexer.Script
