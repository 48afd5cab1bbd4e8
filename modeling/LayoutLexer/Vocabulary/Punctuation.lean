namespace LayoutLexer

/-!
# Punctuation marks

Four marks structure a line. Their role is what a block checker looks at:
parentheses change the nesting of a line, and a colon at the end of a line
announces an indented block.
-/

/-- What a punctuation mark does in a line. -/
inductive PunctuationRole where
  | openGroup
  | closeGroup
  | separator
  | blockHeader
  deriving Repr, DecidableEq

/-- One punctuation mark. -/
inductive Punctuation where
  | comma
  | colon
  | openParen
  | closeParen
  deriving Repr, DecidableEq

namespace Punctuation

/-- Every punctuation mark, in the order of the language's vocabulary. -/
def all : List Punctuation :=
  [.comma, .colon, .openParen, .closeParen]

/-- The only spelling of a punctuation mark. -/
def spelling : Punctuation → String
  | .comma => ","
  | .colon => ":"
  | .openParen => "("
  | .closeParen => ")"

/-- The name of a punctuation mark in token listings and messages. -/
def name : Punctuation → String
  | .comma => "COMMA"
  | .colon => "COLON"
  | .openParen => "LPAREN"
  | .closeParen => "RPAREN"

/-- The role of a punctuation mark. -/
def role : Punctuation → PunctuationRole
  | .comma => .separator
  | .colon => .blockHeader
  | .openParen => .openGroup
  | .closeParen => .closeGroup

/-- The punctuation mark with exactly this spelling. -/
def ofSpelling? (text : String) : Option Punctuation :=
  all.find? fun mark => mark.spelling == text

/-- The list of punctuation marks misses none. -/
theorem mem_all (mark : Punctuation) : mark ∈ all := by
  cases mark <;> decide

end Punctuation

end LayoutLexer
