import LayoutLexer.Text.Quoted
import LayoutLexer.Vocabulary.Keyword
import LayoutLexer.Vocabulary.Operator
import LayoutLexer.Vocabulary.Punctuation

namespace LayoutLexer

/-!
# Tokens

A token is a kind together with the source text it stands for, the line it is
on and the bytes it covers. Lexical kinds are spelled in the source. The four
layout kinds come from the shape of the source instead: the text of an indent
or dedent is the leading blank run of its line, the text of a line end is the
terminator, and the end of the input has the empty text.
-/

/-- A half-open range of byte offsets into the source. -/
structure Span where
  start : Nat
  stop : Nat
  deriving Repr, DecidableEq

namespace Span

/-- The number of bytes in a span. -/
def length (span : Span) : Nat :=
  span.stop - span.start

/-- Whether a span covers no byte. -/
def isEmpty (span : Span) : Bool :=
  span.start == span.stop

end Span

/-- What a token is. -/
inductive TokenKind where
  | keyword (word : Keyword)
  | operator (symbol : Operator)
  | punctuation (mark : Punctuation)
  | identifier
  | number
  | float
  | newline
  | indent
  | dedent
  | eof
  deriving Repr, DecidableEq

/-- The effect of a token on the nesting of parentheses. -/
inductive Nesting where
  | opening
  | closing
  | neutral
  deriving Repr, DecidableEq

namespace TokenKind

/-- The upper-case name of a kind, as listings and messages show it. -/
def name : TokenKind → String
  | .keyword word => word.name
  | .operator symbol => symbol.name
  | .punctuation mark => mark.name
  | .identifier => "IDENTIFIER"
  | .number => "NUMBER"
  | .float => "FLOAT"
  | .newline => "NEWLINE"
  | .indent => "INDENT"
  | .dedent => "DEDENT"
  | .eof => "EOF"

/-- Every kind of token. -/
def all : List TokenKind :=
  Keyword.all.map .keyword ++
    Operator.all.map .operator ++
    Punctuation.all.map .punctuation ++
    [.identifier, .number, .float, .newline, .indent, .dedent, .eof]

/-- The kind with exactly this name. -/
def ofName? (name : String) : Option TokenKind :=
  all.find? fun kind => kind.name == name

/-- The role of a punctuation mark; other kinds have none. -/
def role? : TokenKind → Option PunctuationRole
  | .punctuation mark => some mark.role
  | _ => none

/-- Whether a line that ends in this kind announces an indented block. -/
def opensBlock (kind : TokenKind) : Bool :=
  kind.role? == some .blockHeader

/-- The effect of a kind on the nesting of parentheses. -/
def nesting (kind : TokenKind) : Nesting :=
  match kind.role? with
  | some .openGroup =>
      .opening
  | some .closeGroup =>
      .closing
  | _ =>
      .neutral

/-- Whether a kind comes from the layout of the source. -/
def isLayout : TokenKind → Bool
  | .newline | .indent | .dedent | .eof => true
  | _ => false

end TokenKind

/-- One token, with the text it stands for and the place it was found at. -/
structure Token where
  kind : TokenKind
  text : String
  line : Nat
  span : Span
  deriving Repr, DecidableEq

namespace Token

/-- One entry of a token listing: line, kind and quoted text. -/
def display (token : Token) : String :=
  toString token.line ++ " " ++ token.kind.name ++ " " ++
    Text.quoted token.text

end Token

end LayoutLexer
