import LayoutLexer.Input

namespace LayoutLexer

/-!
# A working directory

A path is a list of names, cut at the slashes. It is followed name by name, and
every name is looked up in what was reached so far, which therefore has to be a
directory. An empty name and a single dot stay where they are, two dots lead one
directory up. Above the working directory nothing is known but the directories
that lead to it.

Names and paths have a greatest length. A path that exceeds it is refused as a
whole; a name that exceeds it is refused by the directory it is looked up in, so
only once the names before it have led to a directory.

A working directory is described by the paths of what it holds. Such a path may
take detours too; the directories it leads through are there as well.
-/

/-- What a working directory holds, by the names that lead to it directly. -/
structure Directory where
  entries : List (List String × Node)

/-- Where the names of a path lead. -/
inductive Place where
  /-- A place within the working directory, its innermost name first. -/
  | within (path : List String)
  /-- A directory above the working directory. -/
  | above

namespace Place

/-- The place that one name leads to, from a directory. -/
def enter : Place → String → Option Place
  | place, "" | place, "." =>
      some place
  | .within [], ".." =>
      some .above
  | .within (_ :: outer), ".." =>
      some (.within outer)
  | .within path, name =>
      some (.within (name :: path))
  | .above, ".." =>
      some .above
  | .above, _ =>
      none

/-- The places that names lead through, the first and the last included. -/
def passed (place : Place) : List String → List Place
  | [] =>
      [place]
  | name :: others =>
      match place.enter name with
      | some next =>
          place :: next.passed others
      | none =>
          [place]

/-- The entry of a working directory that puts a node at a place within it. -/
def entry? (node : Node) : Place → Option (List String × Node)
  | .within path => some (path.reverse, node)
  | .above => none

end Place

namespace Directory

/-- The greatest length of one name, in bytes. -/
def nameLimit : Nat :=
  255

/-- The greatest length of a path, in bytes. -/
def pathLimit : Nat :=
  4095

/-- The names of a path. -/
def names (path : String) : List String :=
  path.splitOn "/"

/-- The entries that a path to a node makes. -/
def entriesOf (path : String) (node : Node) : List (List String × Node) :=
  match (Place.passed (.within []) (names path)).reverse with
  | [] =>
      []
  | last :: earlier =>
      (last.entry? node).toList ++ earlier.filterMap (Place.entry? .directory)

/-- The working directory that holds a node at each of some paths. -/
def ofPaths (nodes : List (String × Node)) : Directory :=
  ⟨nodes.flatMap fun node => entriesOf node.1 node.2⟩

/-- What stands at a place; the working directory itself is always there. -/
def node? (directory : Directory) : Place → Option Node
  | .above | .within [] =>
      some .directory
  | .within (name :: outer) =>
      (directory.entries.find? fun entry =>
        entry.1 == (name :: outer).reverse).map Prod.snd

/-- Follow the names of a path. -/
def follow
    (directory : Directory)
    (place : Place) :
    List String → Except AccessFault Node
  | [] =>
      match directory.node? place with
      | some node =>
          .ok node
      | none =>
          .error .missing
  | name :: others =>
      match directory.node? place with
      | none =>
          .error .missing
      | some (.file _) =>
          .error .notDirectory
      | some .directory =>
          if nameLimit < name.utf8ByteSize then
            .error .nameTooLong
          else
            match place.enter name with
            | some next =>
                directory.follow next others
            | none =>
                .error .missing

/-- What a path names, seen from the working directory. -/
def find (directory : Directory) (path : String) : Except AccessFault Node :=
  if pathLimit < path.utf8ByteSize then
    .error .nameTooLong
  else
    match names path with
    | [""] =>
        .error .missing
    | "" :: below =>
        directory.follow .above below
    | relative =>
        directory.follow (.within []) relative

end Directory

end LayoutLexer
