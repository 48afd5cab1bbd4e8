import LayoutLexer.Session

namespace LayoutLexer

/-!
# Checking block structure

The block checker knows nothing of expressions. It asks that a line ending in a
colon is followed by an indented block and that no other line is, that
parentheses balance within each line, that no line is empty, and that all blocks
are closed at the end. It counts the statements and the deepest nesting.
-/

namespace Blocks

/-- What the checker reports about a program. -/
structure Summary where
  /-- The number of lines that hold a statement or a block header. -/
  statements : Nat
  /-- The deepest nesting of blocks. -/
  maxDepth : Nat
  deriving Repr, DecidableEq

/-- Why the checker rejects a token. -/
inductive Fault where
  | unexpectedIndent
  | missingBlock
  | missingBlockBefore (kind : TokenKind)
  | unopenedBlock
  | emptyStatement
  | unmatchedParen
  | unclosedParen (line : Nat)
  | unclosedBlocks (count : Nat)
  deriving Repr, DecidableEq

/-- The wording of a rejection. -/
def Fault.message : Fault → String
  | .unexpectedIndent =>
      "unexpected indent"
  | .missingBlock =>
      "expected an indented block after ':'"
  | .missingBlockBefore kind =>
      "expected an indented block after ':', found " ++ kind.name
  | .unopenedBlock =>
      "dedent without an open block"
  | .emptyStatement =>
      "empty statement"
  | .unmatchedParen =>
      "unmatched ')'"
  | .unclosedParen line =>
      "unclosed '(' at end of line " ++ toString line
  | .unclosedBlocks count =>
      toString count ++ " block(s) still open at end of input"

/-- What the checker remembers of the tokens it has seen. -/
structure Checker where
  /-- The number of open blocks. -/
  depth : Nat
  /-- The number of open parentheses on the current line. -/
  parenDepth : Nat
  /-- The number of tokens on the current line. -/
  lineTokens : Nat
  /-- The last token of the current line. -/
  lastKind : Option TokenKind
  /-- Whether the line before announced a block that is not yet open. -/
  expectIndent : Bool
  summary : Summary
  deriving Repr, DecidableEq

namespace Checker

/-- Nothing has been seen. -/
def start : Checker where
  depth := 0
  parenDepth := 0
  lineTokens := 0
  lastKind := none
  expectIndent := false
  summary := ⟨0, 0⟩

/-- Whether the current line announces a block. -/
def announcesBlock (checker : Checker) : Bool :=
  checker.lastKind.any TokenKind.opensBlock

/-- End the current line, which has to have its parentheses closed. -/
def endLine (checker : Checker) (line : Nat) : Except Fault Checker :=
  if 0 < checker.parenDepth then
    .error (.unclosedParen line)
  else
    .ok {
      checker with
      lineTokens := 0
      lastKind := none
      expectIndent := checker.announcesBlock
      summary := {
        checker.summary with
        statements := checker.summary.statements + 1
      }
    }

/-- Open the block that the line before announced. -/
def indent (checker : Checker) : Status Fault × Checker :=
  if checker.expectIndent then
    (.needMore, {
      checker with
      depth := checker.depth + 1
      expectIndent := false
      summary := {
        checker.summary with
        maxDepth := max checker.summary.maxDepth (checker.depth + 1)
      }
    })
  else
    (.rejected .unexpectedIndent, checker)

/-- Close the innermost block. -/
def dedent (checker : Checker) : Status Fault × Checker :=
  if checker.expectIndent then
    (.rejected .missingBlock, checker)
  else
    match checker.depth with
    | 0 =>
        (.rejected .unopenedBlock, checker)
    | depth + 1 =>
        (.needMore, { checker with depth := depth })

/-- End a line that has a terminator. -/
def newline (checker : Checker) (line : Nat) : Status Fault × Checker :=
  if checker.lineTokens = 0 then
    (.rejected .emptyStatement, checker)
  else
    match checker.endLine line with
    | .error fault =>
        (.rejected fault, checker)
    | .ok ended =>
        (.needMore, ended)

/-- Judge the program once its last line has ended. -/
def conclude (checker : Checker) : Status Fault × Checker :=
  if checker.expectIndent then
    (.rejected .missingBlock, checker)
  else if 0 < checker.depth then
    (.rejected (.unclosedBlocks checker.depth), checker)
  else
    (.accepted, checker)

/-- End the program; its last line may lack a terminator. -/
def eof (checker : Checker) (line : Nat) : Status Fault × Checker :=
  if 0 < checker.lineTokens then
    match checker.endLine line with
    | .error fault =>
        (.rejected fault, checker)
    | .ok ended =>
        ended.conclude
  else
    checker.conclude

/-- Add a token to the current line, at a nesting of parentheses. -/
def append
    (checker : Checker)
    (kind : TokenKind)
    (parenDepth : Nat) :
    Checker :=
  { checker with
    parenDepth := parenDepth
    lineTokens := checker.lineTokens + 1
    lastKind := some kind }

/-- Take a token that is spelled in the source. -/
def lexical (checker : Checker) (kind : TokenKind) : Status Fault × Checker :=
  if checker.expectIndent then
    (.rejected (.missingBlockBefore kind), checker)
  else
    match kind.nesting with
    | .opening =>
        (.needMore, checker.append kind (checker.parenDepth + 1))
    | .neutral =>
        (.needMore, checker.append kind checker.parenDepth)
    | .closing =>
        match checker.parenDepth with
        | 0 =>
            (.rejected .unmatchedParen, checker)
        | parenDepth + 1 =>
            (.needMore, checker.append kind parenDepth)

/-- Take one token. -/
def step (checker : Checker) (token : Token) : Status Fault × Checker :=
  match token.kind with
  | .indent =>
      checker.indent
  | .dedent =>
      checker.dedent
  | .newline =>
      checker.newline token.line
  | .eof =>
      checker.eof token.line
  | kind =>
      checker.lexical kind

end Checker

/-- The parser that checks block structure. -/
def parser : Parser Checker Summary where
  initial := .start
  push checker token :=
    let answer := checker.step token
    (answer.1.mapReason Fault.message, answer.2)
  release checker := (checker.summary, checker)

end Blocks

/-- The session that checks the block structure of a source. -/
def inspect (source : String) : Session.Outcome Blocks.Checker Blocks.Summary :=
  Session.run Blocks.parser source

/-- The block structure of a source. -/
def check (source : String) : Except SessionError Blocks.Summary :=
  (inspect source).result

/-- The log of checking the block structure of a source. -/
def checkLog (source : String) : List Event :=
  (inspect source).announced .run source

end LayoutLexer
