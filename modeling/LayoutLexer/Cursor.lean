import LayoutLexer.Scan

namespace LayoutLexer

/-!
# Places in the source

A cursor is the text that is still to be read together with the position of its
first character. Positions count bytes of the UTF-8 form of the source, lines
count from one. Reading is by a number of characters, so a cursor never stands
inside a character.
-/

/-- The number of bytes in the UTF-8 form of a text. -/
def byteLength (text : List Char) : Nat :=
  text.foldr (fun c length => c.utf8Size + length) 0

/-- The unread text, and where it starts. -/
structure Cursor where
  rest : List Char
  offset : Nat
  line : Nat
  deriving Repr, DecidableEq

namespace Cursor

/-- The beginning of a source text, collected from its last character on. -/
def start (source : String) : Cursor where
  rest := source.foldr List.cons []
  offset := 0
  line := 1

/-- At the beginning, all characters of the source are unread. -/
theorem start_eq (source : String) :
    start source = ⟨source.toList, 0, 1⟩ := by
  simp [start, String.foldr_eq_foldr_toList]

/-- The bytes of the next characters. -/
def spanOf (cursor : Cursor) (length : Nat) : Span where
  start := cursor.offset
  stop := cursor.offset + byteLength (cursor.rest.take length)

/-- The token that the next characters form. -/
def token (cursor : Cursor) (kind : TokenKind) (length : Nat) : Token where
  kind := kind
  text := String.ofList (cursor.rest.take length)
  line := cursor.line
  span := cursor.spanOf length

/-- The place behind the next characters, on the same line. -/
def advance (cursor : Cursor) (length : Nat) : Cursor where
  rest := cursor.rest.drop length
  offset := cursor.offset + byteLength (cursor.rest.take length)
  line := cursor.line

/-- The same place, counted to the next line. -/
def nextLine (cursor : Cursor) : Cursor :=
  { cursor with line := cursor.line + 1 }

/-- The place behind the next line feed, or the end of the source. -/
def skipLine (cursor : Cursor) : Cursor :=
  match fromLineFeed cursor.rest with
  | [] =>
      cursor.advance (beforeLineFeed cursor.rest).length
  | _ :: _ =>
      (cursor.advance ((beforeLineFeed cursor.rest).length + 1)).nextLine

/-- Reading never lengthens the unread text. -/
theorem length_rest_advance_le
    (cursor : Cursor)
    (length : Nat) :
    (cursor.advance length).rest.length ≤ cursor.rest.length := by
  simp [advance]

/-- Skipping a line shortens an unread text that is not empty. -/
theorem length_rest_skipLine_lt
    {cursor : Cursor}
    (unread : cursor.rest ≠ []) :
    cursor.skipLine.rest.length < cursor.rest.length := by
  have present : 0 < cursor.rest.length :=
    List.length_pos_iff.mpr unread
  have split :
      (beforeLineFeed cursor.rest).length +
          (fromLineFeed cursor.rest).length =
        cursor.rest.length := by
    rw [← List.length_append]
    simp [beforeLineFeed, fromLineFeed]
  unfold skipLine
  cases behind : fromLineFeed cursor.rest with
  | nil =>
      simp only [behind, List.length_nil] at split
      simp only [advance, List.length_drop]
      omega
  | cons feed others =>
      simp only [advance, nextLine, List.length_drop]
      omega

end Cursor

end LayoutLexer
