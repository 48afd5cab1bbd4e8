import LayoutLexer.Token

namespace LayoutLexer

/-!
# Why a session fails

A session ends at its first error. There are three causes: a character that
starts no token, a line whose width fits no open block, and a token that the
parser does not take. Every error knows its line and the bytes it is about; its
wording, code, help and label follow from the cause.
-/

/-- The class of an error. -/
inductive ErrorCategory where
  | lexical
  | indentation
  | parser
  deriving Repr, DecidableEq

/-- The name of a class of errors. -/
def ErrorCategory.name : ErrorCategory → String
  | .lexical => "lexical"
  | .indentation => "indentation"
  | .parser => "parser"

/-- The error that ends a session. -/
inductive SessionError where
  /-- No token starts with this character. -/
  | lexical (c : Char) (line : Nat) (span : Span)
  /-- The line closes blocks, but its width is none of the open `levels`. -/
  | indentation (line width : Nat) (span : Span) (levels : List Nat)
  /-- The parser did not take a token of this kind. -/
  | parser (line : Nat) (kind : TokenKind) (rejection : String) (span : Span)
  deriving Repr, DecidableEq

/-- List the open widths, outermost first, for the reader of an error. -/
def openLevelsHint (levels : List Nat) : String :=
  match levels.reverse with
  | [] =>
      "no blocks are open"
  | [only] =>
      "the only open block is indented " ++ toString only
  | innermost :: second :: others =>
      "open blocks are indented " ++
        ", ".intercalate ((second :: others).reverse.map toString) ++
        " or " ++ toString innermost

namespace SessionError

/-- The class of an error. -/
def category : SessionError → ErrorCategory
  | .lexical .. => .lexical
  | .indentation .. => .indentation
  | .parser .. => .parser

/-- The line an error is reported on. -/
def line : SessionError → Nat
  | .lexical _ line _ => line
  | .indentation line .. => line
  | .parser line .. => line

/-- The bytes of the source an error is about. -/
def span : SessionError → Span
  | .lexical _ _ span => span
  | .indentation _ _ span _ => span
  | .parser _ _ _ span => span

/-- The wording of an error. -/
def message : SessionError → String
  | .lexical c line _ =>
      "lexical error on line " ++ toString line ++
        ": unexpected character " ++ Text.quotedChar c
  | .indentation line width _ _ =>
      "indentation error on line " ++ toString line ++
        ": unindent to width " ++ toString width ++
        " does not match any outer block"
  | .parser line _ rejection _ =>
      "parser error on line " ++ toString line ++ ": " ++ rejection

/-- The code of an error, by its class. -/
def code (error : SessionError) : String :=
  "offside::" ++ error.category.name

/-- Advice on an error, where there is any. -/
def help? : SessionError → Option String
  | .lexical .. =>
      some "tokens are keywords, identifiers, numbers, operators, `(`, `)`, `,` and `:`"
  | .indentation _ _ _ levels =>
      some (openLevelsHint levels)
  | .parser .. =>
      none

/-- What is wrong with the bytes an error is about. -/
def label : SessionError → String
  | .lexical .. => "no token starts with this character"
  | .indentation .. => "indentation ends here"
  | .parser .. => "rejected here"

/-- The error of a parser that does not take a token. -/
def refusal (token : Token) (rejection : String) : SessionError :=
  .parser token.line token.kind rejection token.span

end SessionError

end LayoutLexer
