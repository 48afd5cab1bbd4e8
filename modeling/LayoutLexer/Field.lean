namespace LayoutLexer

/-!
# Named values

Log events and report records are lists of named values, each a number or a
text, in the order in which they are shown.
-/

/-- A number or a text. -/
inductive FieldValue where
  | number (value : Nat)
  | text (value : String)
  deriving Repr, DecidableEq

/-- Values with their names. -/
abbrev Fields := List (String × FieldValue)

end LayoutLexer
