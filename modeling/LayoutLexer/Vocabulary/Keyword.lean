namespace LayoutLexer

/-!
# Reserved words

The language reserves twelve words. Each has one spelling, which is
case-sensitive, an upper-case name for token listings, and a category. The
words `and`, `or` and `not` are operators by category and keywords by form.
-/

/-- What a reserved word is used for. -/
inductive KeywordCategory where
  | controlFlow
  | definition
  | literal
  | operator
  deriving Repr, DecidableEq

/-- One reserved word. -/
inductive Keyword where
  | ifKw
  | elifKw
  | elseKw
  | whileKw
  | breakKw
  | returnKw
  | defKw
  | trueKw
  | falseKw
  | andKw
  | orKw
  | notKw
  deriving Repr, DecidableEq

namespace Keyword

/-- Every reserved word, in the order of the language's vocabulary. -/
def all : List Keyword :=
  [.ifKw, .elifKw, .elseKw, .whileKw, .breakKw, .returnKw, .defKw, .trueKw,
    .falseKw, .andKw, .orKw, .notKw]

/-- The only spelling of a reserved word. -/
def spelling : Keyword → String
  | .ifKw => "if"
  | .elifKw => "elif"
  | .elseKw => "else"
  | .whileKw => "while"
  | .breakKw => "break"
  | .returnKw => "return"
  | .defKw => "def"
  | .trueKw => "True"
  | .falseKw => "False"
  | .andKw => "and"
  | .orKw => "or"
  | .notKw => "not"

/-- The name of a reserved word in token listings and messages. -/
def name : Keyword → String
  | .ifKw => "IF"
  | .elifKw => "ELIF"
  | .elseKw => "ELSE"
  | .whileKw => "WHILE"
  | .breakKw => "BREAK"
  | .returnKw => "RETURN"
  | .defKw => "DEF"
  | .trueKw => "TRUE"
  | .falseKw => "FALSE"
  | .andKw => "AND"
  | .orKw => "OR"
  | .notKw => "NOT"

/-- The category of a reserved word. -/
def category : Keyword → KeywordCategory
  | .ifKw | .elifKw | .elseKw | .whileKw | .breakKw | .returnKw =>
      .controlFlow
  | .defKw =>
      .definition
  | .trueKw | .falseKw =>
      .literal
  | .andKw | .orKw | .notKw =>
      .operator

/-- The reserved word with exactly this spelling. -/
def ofSpelling? (text : String) : Option Keyword :=
  all.find? fun keyword => keyword.spelling == text

/-- The list of reserved words misses none. -/
theorem mem_all (keyword : Keyword) : keyword ∈ all := by
  cases keyword <;> decide

end Keyword

end LayoutLexer
