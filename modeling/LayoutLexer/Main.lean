import LayoutLexer.CommandLine.Response

/-!
# The program

The outer layer reads the file or the standard input that the command line asks
for, and prints the answer. Everything else is decided by
`LayoutLexer.CommandLine`.
-/

namespace LayoutLexer.Main

/-- Read a stream to its end. -/
partial def readAll (stream : IO.FS.Stream) (bytes : ByteArray) : IO ByteArray := do
  let chunk ← stream.read 65536
  if chunk.isEmpty then
    return bytes
  else
    readAll stream (bytes ++ chunk)

/--
What a failed attempt to read a path says about it. The number of the fault comes
with either sign.
-/
def ofError : IO.Error → Except AccessFault Node
  | .inappropriateType _ code _ =>
      if code = 21 ∨ -code = 21 then
        .ok .directory
      else
        .error .notDirectory
  | .invalidArgument _ code _ =>
      if code = 36 ∨ -code = 36 then
        .error .nameTooLong
      else
        .error .missing
  | _ =>
      .error .missing

/-- What a path names. -/
def locate (path : String) : IO (Except AccessFault Node) := do
  try
    let bytes ← IO.FS.readBinFile path
    return .ok (.file ⟨bytes.size, Thunk.pure bytes⟩)
  catch error =>
    return ofError error

/-- The part of the surroundings that a task looks at. -/
def surroundings (path : String) : IO Surroundings := do
  if path = "-" then
    let bytes ← readAll (← IO.getStdin) .empty
    return { stdin := bytes, find := fun _ => .error .missing }
  else
    let found ← locate path
    return { stdin := .empty, find := fun _ => found }

/-- The answer to a command line. -/
def answer (arguments : List String) : IO CommandLine.Response := do
  match CommandLine.parse arguments with
  | .error stop =>
      return .ofStop stop
  | .ok parsed =>
      let path := (parsed.task?.map CommandLine.Task.path).getD ""
      return CommandLine.execute (← surroundings path) parsed

end LayoutLexer.Main

/-- Carry out the command line and exit with its status. -/
def main (arguments : List String) : IO UInt32 := do
  let response ← LayoutLexer.Main.answer arguments
  (← IO.getStdout).putStr response.stdout
  (← IO.getStderr).putStr response.complaint.render
  return response.status.code.toUInt32
