import LayoutLexer.Text.Utf8

namespace LayoutLexer

/-!
# Reading a source

A source is read from a path or, for the path `-`, from standard input. It has a
greatest size, which is checked before its bytes are decoded: standard input is
read up to one byte beyond it, a file is asked for its size first.
-/

/-- Why a path names nothing. -/
inductive AccessFault where
  | missing
  | notDirectory
  | nameTooLong
  deriving Repr, DecidableEq

/-- The wording of a path that names nothing. -/
def AccessFault.message : AccessFault → String
  | .missing => "No such file or directory (os error 2)"
  | .notDirectory => "Not a directory (os error 20)"
  | .nameTooLong => "File name too long (os error 36)"

/-- Why contents cannot be used as a source. -/
inductive ReadFault where
  | isDirectory
  | notUtf8
  | malformed (fault : Text.Utf8.Fault)
  deriving Repr, DecidableEq

/-- The wording of contents that cannot be used. -/
def ReadFault.message : ReadFault → String
  | .isDirectory => "Is a directory (os error 21)"
  | .notUtf8 => "stream did not contain valid UTF-8"
  | .malformed fault => fault.message

/-- Why there is no source text. -/
inductive InputError where
  | access (name : String) (fault : AccessFault)
  | tooLarge (name : String) (size max : Nat)
  | read (name : String) (fault : ReadFault)
  deriving Repr, DecidableEq

/-- The wording of an input error. -/
def InputError.message : InputError → String
  | .access name fault =>
      "Cannot access file '" ++ name ++ "': " ++ fault.message
  | .tooLarge name size max =>
      "Source file '" ++ name ++ "' is too large (" ++ toString size ++
        " bytes, max " ++ toString max ++ " bytes)"
  | .read name fault =>
      "Error reading '" ++ name ++ "': " ++ fault.message

/-- A source text, and the name to report it by. -/
structure Input where
  name : String
  source : String
  deriving Repr, DecidableEq

/-- A file, with contents that are produced when it is read. -/
structure File where
  size : Nat
  contents : Thunk ByteArray

/-- What a path can name. -/
inductive Node where
  | file (found : File)
  | directory

/-- What a program can read. -/
structure Surroundings where
  stdin : ByteArray
  find : String → Except AccessFault Node

/-- The greatest size of a source, in bytes. -/
def sourceLimit : UInt64 :=
  104857600

/-- At most so many bytes from the start. -/
def firstBytes (bytes : ByteArray) (count : Nat) : ByteArray :=
  bytes.extract 0 (min count bytes.size)

/--
Read a stream of bytes, refusing more than `max`. One byte beyond the maximum is
enough to tell; the bound is a 64-bit number, and so is its successor.
-/
def readCapped
    (name : String)
    (bytes : ByteArray)
    (max : UInt64) :
    Except InputError String :=
  let taken := firstBytes bytes (max + 1).toNat
  if max.toNat < taken.size then
    .error (.tooLarge name taken.size max.toNat)
  else
    match String.fromUTF8? taken with
    | some source =>
        .ok source
    | none =>
        .error (.read name (.malformed (Text.Utf8.firstFault 0 taken.toList)))

/-- Read what a path names. -/
def Node.read (node : Node) (path : String) : Except InputError Input :=
  match node with
  | .directory =>
      .error (.read path .isDirectory)
  | .file found =>
      if sourceLimit.toNat < found.size then
        .error (.tooLarge path found.size sourceLimit.toNat)
      else
        match String.fromUTF8? found.contents.get with
        | some source =>
            .ok ⟨path, source⟩
        | none =>
            .error (.read path .notUtf8)

/-- The name of standard input in reports. -/
def stdinName : String :=
  "<stdin>"

/-- Read the source at a path, or standard input for the path `-`. -/
def Surroundings.readInput
    (surroundings : Surroundings)
    (path : String) :
    Except InputError Input :=
  if path = "-" then
    match readCapped stdinName surroundings.stdin sourceLimit with
    | .ok source =>
        .ok ⟨stdinName, source⟩
    | .error error =>
        .error error
  else
    match surroundings.find path with
    | .error fault =>
        .error (.access path fault)
    | .ok node =>
        node.read path

end LayoutLexer
