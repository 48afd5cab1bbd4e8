namespace LayoutLexer

/-!
# Open blocks

Blocks are delimited by the width of the leading blank run of each line. A
wider line opens a block, a line as wide as the innermost block continues it,
and a narrower line closes blocks until its width is that of an open one. The
top level has width zero and is always open.
-/

/-- What the width of a line does to the open blocks. -/
inductive IndentChange where
  /-- The line continues the innermost block. -/
  | unchanged
  /-- The line opens one block. -/
  | indent
  /-- The line closes this many blocks. -/
  | dedent (closed : Nat)
  deriving Repr, DecidableEq

/-- A line that is narrower than the innermost block and fits no open one. -/
structure IndentMismatch where
  width : Nat
  /-- The open widths, outermost first. -/
  levels : List Nat
  deriving Repr, DecidableEq

/--
The open blocks above the top level, by their widths, innermost first.
-/
structure Indentation where
  opened : List Nat
  deriving Repr, DecidableEq

namespace Indentation

/-- Only the top level is open. -/
def topLevel : Indentation :=
  ⟨[]⟩

/-- The open widths, outermost first, with the top level at the bottom. -/
def levels (indentation : Indentation) : List Nat :=
  0 :: indentation.opened.reverse

/-- The width of the innermost open block. -/
def top (indentation : Indentation) : Nat :=
  indentation.opened.headD 0

/-- The number of blocks open above the top level. -/
def depth (indentation : Indentation) : Nat :=
  indentation.opened.length

/--
Apply the width of a line. The blocks to close are those inside the innermost
block of that width; when there is no such block the line is a mismatch, and
none is closed.
-/
def resolve
    (indentation : Indentation)
    (width : Nat) :
    Except IndentMismatch (IndentChange × Indentation) :=
  if indentation.top < width then
    .ok (.indent, ⟨width :: indentation.opened⟩)
  else if width = indentation.top then
    .ok (.unchanged, indentation)
  else
    match (indentation.opened ++ [0]).idxOf? width with
    | some closed =>
        .ok (.dedent closed, ⟨indentation.opened.drop closed⟩)
    | none =>
        .error ⟨width, indentation.levels⟩

/-- Close every block, and count them. -/
def drain (indentation : Indentation) : Nat × Indentation :=
  (indentation.depth, topLevel)

end Indentation

end LayoutLexer
