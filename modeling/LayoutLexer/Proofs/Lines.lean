import LayoutLexer.Proofs.Course
import LayoutLexer.Proofs.Matching

namespace LayoutLexer

/-!
# Lexing line by line

The layout of a source can be read off its lines. The source is cut behind every
line feed; a line has a content and a terminator, which may be missing on the
last one. Lines whose content holds nothing but blanks and a comment are left
out. Each of the others resolves its width against the open blocks, then its
content is cut into tokens, then comes its terminator. The first line that fails
ends the course; otherwise the blocks that are still open are closed at the end.

Nothing here looks beyond the line at hand. That a session, which never cuts
its source into lines, follows the same course is shown in
`LayoutLexer.Proofs.LineByLine`.
-/

/-! ### Physical lines -/

/-- Cut a text behind every line feed. -/
def cutLines : List Char → List (List Char)
  | [] =>
      []
  | c :: rest =>
      if c = '\n' then
        [c] :: cutLines rest
      else
        match cutLines rest with
        | [] =>
            [[c]]
        | first :: others =>
            (c :: first) :: others

/-- The terminator at the end of a piece of text that was cut off. -/
def terminatorOf (text : List Char) : List Char :=
  if ['\r', '\n'].isSuffixOf text then
    ['\r', '\n']
  else if ['\n'].isSuffixOf text then
    ['\n']
  else
    []

/-- One line of a source, and where it stands. -/
structure Line where
  number : Nat
  /-- The bytes of the source before the line. -/
  offset : Nat
  content : List Char
  terminator : List Char
  deriving Repr, DecidableEq

namespace Line

/-- The line that a piece of text forms. -/
def ofText (number offset : Nat) (text : List Char) : Line where
  number := number
  offset := offset
  content := text.take (text.length - (terminatorOf text).length)
  terminator := terminatorOf text

/-- The content of a line, at its place in the source. -/
def start (line : Line) : Cursor :=
  ⟨line.content, line.offset, line.number⟩

/-- The terminator of a line, at its place in the source. -/
def ending (line : Line) : Cursor :=
  ⟨line.terminator, line.offset + byteLength line.content, line.number⟩

/-- The length of the blank run that a line starts with. -/
def width (line : Line) : Nat :=
  blankRun line.content

/-- Whether a line holds more than blanks and a comment. -/
def isLogical (line : Line) : Bool :=
  match line.content.dropWhile isBlank with
  | [] => false
  | c :: _ => c != '#'

end Line

/-- Number pieces of text and find the bytes before each of them. -/
def locateLines : Nat → Nat → List (List Char) → List Line
  | _, _, [] =>
      []
  | number, offset, text :: others =>
      .ofText number offset text ::
        locateLines (number + 1) (offset + byteLength text) others

/-- The lines of a source. -/
def physicalLines (source : String) : List Line :=
  locateLines 1 0 (cutLines source.toList)

/-- The lines of a source that hold more than blanks and a comment. -/
def logicalLines (source : String) : List Line :=
  (physicalLines source).filter Line.isLogical

/-! ### The tokens of a line -/

/-- The tokens of a text, up to a character that starts none. -/
structure Lexed where
  tokens : List Token
  error? : Option SessionError
  deriving Repr, DecidableEq

/-- A text that has one more token in front. -/
def Lexed.cons (token : Token) (lexed : Lexed) : Lexed :=
  { lexed with tokens := token :: lexed.tokens }

/-- What lies behind a longest match is shorter. -/
theorem length_drop_firstLongest_lt
    {text : List Char}
    {kind : TokenKind}
    {length : Nat}
    (found : firstLongest Rule.all text = some (kind, length)) :
    (text.drop length).length < text.length := by
  rw [← longestMatch_eq_firstLongest] at found
  have within := length_le_of_longestMatch found
  have positive := longestMatch_nonempty _ _ kind length found
  rw [List.length_drop]
  omega

set_option linter.unusedVariables false in
/--
Cut a text into tokens from left to right by longest match. Blanks are dropped,
and so is everything from a comment mark on.
-/
def lexemes (cursor : Cursor) : Lexed :=
  match ahead : cursor.rest with
  | [] =>
      ⟨[], none⟩
  | c :: _ =>
      if isBlank c then
        lexemes (cursor.advance 1)
      else if c = '#' then
        ⟨[], none⟩
      else
        match found : firstLongest Rule.all cursor.rest with
        | some (kind, length) =>
            (lexemes (cursor.advance length)).cons (cursor.token kind length)
        | none =>
            ⟨[], some (.lexical c cursor.line (cursor.spanOf 1))⟩
termination_by cursor.rest.length
decreasing_by
  · simp [Cursor.advance, ahead]
  · exact length_drop_firstLongest_lt found

namespace Line

/-- The tokens of a line between its leading run and its terminator. -/
def lexed (line : Line) : Lexed :=
  lexemes line.start

/-- What a line contributes when its width does this to the open blocks. -/
def layout (line : Line) : IndentChange → List Emission
  | .unchanged =>
      []
  | .indent =>
      [.note (.indent line.number line.width),
        .push (line.start.token .indent line.width)]
  | .dedent closed =>
      .note (.dedent line.number line.width closed) ::
        List.replicate closed (.push (line.start.token .dedent line.width))

/-- What the terminator of a line contributes, if there is one. -/
def newline (line : Line) : List Emission :=
  match line.terminator with
  | [] =>
      []
  | _ :: _ =>
      [.push (line.ending.token .newline line.terminator.length)]

/-- The error of a line whose width fits no open block. -/
def misfit (line : Line) (mismatch : IndentMismatch) : SessionError :=
  .indentation line.number line.width (line.start.spanOf line.width)
    mismatch.levels

/-- The course of a line whose width is resolved to some open blocks. -/
def statement (line : Line) (resolved : Indentation) : Course Indentation :=
  match line.lexed.error? with
  | some error =>
      ⟨line.lexed.tokens.map .push, .error error⟩
  | none =>
      ⟨line.lexed.tokens.map .push ++ line.newline, .ok resolved⟩

/-- The course of one logical line, from some open blocks to others. -/
def course (line : Line) (indentation : Indentation) : Course Indentation :=
  match indentation.resolve line.width with
  | .error mismatch =>
      ⟨[], .error (line.misfit mismatch)⟩
  | .ok (change, resolved) =>
      (line.statement resolved).after (line.layout change)

end Line

/-! ### The course of a source -/

/-- The course of logical lines, one after the other. -/
def layOut : List Line → Indentation → Course Indentation
  | [], indentation =>
      ⟨[], .ok indentation⟩
  | line :: others, indentation =>
      (line.course indentation).andThen (layOut others)

/-- The place behind the last character of a source. -/
def sourceEnd (source : String) : Cursor :=
  ⟨[], byteLength source.toList, 1 + source.toList.count '\n'⟩

/-- Close the open blocks; what is left is to push the end of the input. -/
def closeBlocks (source : String) (indentation : Indentation) : Course Token where
  emissions :=
    if indentation.depth = 0 then
      []
    else
      .note (.closing (sourceEnd source).line indentation.depth) ::
        List.replicate indentation.depth
          (.push ((sourceEnd source).token .dedent 0))
  result :=
    .ok ((sourceEnd source).token .eof 0)

/-- The course of a source, up to the end of the input. -/
def courseOf (source : String) : Course Token :=
  (layOut (logicalLines source) .topLevel).andThen (closeBlocks source)

/-- The tokens of a source, found line by line. -/
def lexByLines (source : String) : Except SessionError (List Token) :=
  match (courseOf source).result with
  | .error error =>
      .error error
  | .ok eof =>
      .ok ((courseOf source).tokens ++ [eof])

end LayoutLexer
