namespace LayoutLexer

/-!
# Symbolic operators

Operators are spelled with one or two symbols. Several one-symbol spellings
begin a two-symbol one (`<` and `<=`, `=` and `==`), so recognition has to take
the longest spelling that fits.
-/

/-- What an operator computes. -/
inductive OperatorCategory where
  | arithmetic
  | comparison
  | assignment
  deriving Repr, DecidableEq

/-- One symbolic operator. -/
inductive Operator where
  | plus
  | minus
  | star
  | slash
  | equal
  | notEqual
  | greater
  | greaterEqual
  | less
  | lessEqual
  | assign
  deriving Repr, DecidableEq

namespace Operator

/-- Every operator, in the order of the language's vocabulary. -/
def all : List Operator :=
  [.plus, .minus, .star, .slash, .equal, .notEqual, .greater, .greaterEqual,
    .less, .lessEqual, .assign]

/-- The only spelling of an operator. -/
def spelling : Operator → String
  | .plus => "+"
  | .minus => "-"
  | .star => "*"
  | .slash => "/"
  | .equal => "=="
  | .notEqual => "!="
  | .greater => ">"
  | .greaterEqual => ">="
  | .less => "<"
  | .lessEqual => "<="
  | .assign => "="

/-- The name of an operator in token listings and messages. -/
def name : Operator → String
  | .plus => "PLUS"
  | .minus => "MINUS"
  | .star => "STAR"
  | .slash => "SLASH"
  | .equal => "EQ"
  | .notEqual => "NE"
  | .greater => "GT"
  | .greaterEqual => "GE"
  | .less => "LT"
  | .lessEqual => "LE"
  | .assign => "ASSIGN"

/-- The category of an operator. -/
def category : Operator → OperatorCategory
  | .plus | .minus | .star | .slash =>
      .arithmetic
  | .equal | .notEqual | .greater | .greaterEqual | .less | .lessEqual =>
      .comparison
  | .assign =>
      .assignment

/-- The operator with exactly this spelling. -/
def ofSpelling? (text : String) : Option Operator :=
  all.find? fun operator => operator.spelling == text

/-- The list of operators misses none. -/
theorem mem_all (operator : Operator) : operator ∈ all := by
  cases operator <;> decide

end Operator

end LayoutLexer
