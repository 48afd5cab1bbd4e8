import LayoutLexer.Text.Resemblance

namespace LayoutLexer.CommandLine

/-!
# The command line

The program takes a file, a command, or both. The commands `tokens` and `check`
take a file of their own; `help` shows how to use the program or one of its
commands. Arguments are read from left to right and the first one that cannot be
taken ends the reading, as does a request for help or for the version. An
argument after `--` is always a file.

An empty file name is noticed late: when a known option follows it, or when all
arguments of its command are read.
-/

/-- What the program is asked to do. -/
inductive Command where
  | tokens (file : String) (json : Bool)
  | check (file : String)
  deriving Repr, DecidableEq

/-- A command line that can be carried out. -/
structure Arguments where
  command : Option Command
  /-- The file given besides a command, or in place of one. -/
  file : Option String
  deriving Repr, DecidableEq

/-- A command by its name. -/
inductive Subcommand where
  | tokens
  | check
  | help
  deriving Repr, DecidableEq

namespace Subcommand

/-- Every command. -/
def all : List Subcommand :=
  [.tokens, .check, .help]

/-- The name of a command. -/
def name : Subcommand → String
  | .tokens => "tokens"
  | .check => "check"
  | .help => "help"

/-- The command with exactly this name. -/
def ofName? (text : String) : Option Subcommand :=
  all.find? fun command => command.name == text

end Subcommand

/-- What there is help on. -/
inductive Topic where
  | program
  | command (command : Subcommand)
  deriving Repr, DecidableEq

/-- Why a command line cannot be carried out. -/
inductive UsageError where
  | invalidSubcommand
  | missingFile
  | emptyFile
  | repeatedFlag
  | unexpectedValue
  | unknownArgument
  deriving Repr, DecidableEq

/-- Why the reading of a command line ends without arguments. -/
inductive Stop where
  | help (topic : Topic)
  | version
  | usage (error : UsageError)
  deriving Repr, DecidableEq

/-- Whose arguments are being read. -/
inductive Level where
  | program
  | tokens
  | check
  deriving Repr, DecidableEq

/-- The help that a level offers. -/
def Level.topic : Level → Topic
  | .program => .program
  | .tokens => .command .tokens
  | .check => .command .check

/-- An option without a value. -/
inductive Flag where
  | help
  | version
  | json
  deriving Repr, DecidableEq

namespace Flag

/-- The flag with a long name at a level. -/
def ofName? : Level → String → Option Flag
  | _, "help" => some .help
  | .program, "version" => some .version
  | .tokens, "json" => some .json
  | _, _ => none

/-- The flag with a one-letter name at a level. -/
def ofLetter? : Level → Char → Option Flag
  | _, 'h' => some .help
  | .program, 'V' => some .version
  | _, _ => none

end Flag

/-- The form of an argument. -/
inductive Form where
  /-- The mark `--`, after which every argument is a file. -/
  | separator
  /-- A long option, with the text after its equals sign. -/
  | long (name : String) (value : Option String)
  /-- One-letter options behind one hyphen. -/
  | letters (letters : List Char)
  /-- Anything else, a single hyphen included. -/
  | word
  deriving Repr, DecidableEq

/-- The form of an argument, by its hyphens. -/
def Form.of (argument : String) : Form :=
  match argument.toList with
  | ['-', '-'] =>
      .separator
  | '-' :: '-' :: body =>
      let name := String.ofList (body.takeWhile (· != '='))
      match body.dropWhile (· != '=') with
      | [] =>
          .long name none
      | _ :: value =>
          .long name (some (String.ofList value))
  | '-' :: first :: others =>
      .letters (first :: others)
  | _ =>
      .word

/-- What the arguments read so far have settled. -/
structure Reading where
  file : Option String
  json : Bool
  deriving Repr, DecidableEq

namespace Reading

/-- Nothing is read. -/
def start : Reading where
  file := none
  json := false

/-- Refuse an empty file name. -/
def settle (reading : Reading) : Except Stop Reading :=
  if reading.file = some "" then
    .error (.usage .emptyFile)
  else
    .ok reading

/-- Take a known flag. -/
def take
    (level : Level)
    (reading : Reading)
    (flag : Flag) :
    Except Stop Reading := do
  let reading ← reading.settle
  match flag with
  | .help =>
      .error (.help level.topic)
  | .version =>
      .error .version
  | .json =>
      if reading.json then
        .error (.usage .repeatedFlag)
      else
        .ok { reading with json := true }

/-- Take a long option; none has a value. -/
def takeLong
    (level : Level)
    (reading : Reading)
    (name : String)
    (value : Option String) :
    Except Stop Reading :=
  match Flag.ofName? level name, value with
  | none, _ =>
      .error (.usage .unknownArgument)
  | some _, some _ =>
      .error (.usage .unexpectedValue)
  | some flag, none =>
      reading.take level flag

/-- Take one-letter options in turn. -/
def takeLetters
    (level : Level)
    (reading : Reading) :
    List Char → Except Stop Reading
  | [] =>
      .ok reading
  | letter :: letters =>
      match Flag.ofLetter? level letter with
      | none =>
          .error (.usage .unknownArgument)
      | some flag => do
          let reading ← reading.take level flag
          takeLetters level reading letters

end Reading

/--
The error of a file too many. Where a command could stand, an argument that
resembles one is taken for a misspelled command, unless it is a command kept
from its place by the separator.
-/
def excessFile
    (level : Level)
    (separated : Bool)
    (argument : String) :
    UsageError :=
  if level = .program &&
      !(separated && (Subcommand.ofName? argument).isSome) &&
      Subcommand.all.any fun command =>
        Text.resembles argument command.name then
    .invalidSubcommand
  else
    .unknownArgument

/-- Take a file; one is enough. -/
def Reading.takeFile
    (level : Level)
    (separated : Bool)
    (reading : Reading)
    (argument : String) :
    Except Stop Reading :=
  match reading.file with
  | none =>
      .ok { reading with file := some argument }
  | some _ =>
      .error (.usage (excessFile level separated argument))

/-- How the help command is answered. -/
def helpStop : List String → Stop
  | [] =>
      .help .program
  | [name] =>
      match Subcommand.ofName? name with
      | some command =>
          .help (.command command)
      | none =>
          .usage .invalidSubcommand
  | _ :: _ :: _ =>
      .usage .invalidSubcommand

/-- The command that an argument names; only the program itself has any. -/
def Level.command? (level : Level) (argument : String) : Option Subcommand :=
  match level with
  | .program => Subcommand.ofName? argument
  | .tokens | .check => none

/-- The arguments of one level, and the command they end with, if any. -/
structure Read where
  reading : Reading
  command : Option (Level × List String)
  deriving Repr, DecidableEq

/-- Read files only, after the separator. -/
def readSeparated
    (level : Level)
    (reading : Reading) :
    List String → Except Stop Reading
  | [] =>
      .ok reading
  | argument :: rest => do
      let reading ← reading.takeFile level true argument
      readSeparated level reading rest

/-- Read the arguments of a level, up to the first command. -/
def read (level : Level) (reading : Reading) : List String → Except Stop Read
  | [] =>
      .ok ⟨reading, none⟩
  | argument :: rest =>
      match level.command? argument with
      | some .tokens =>
          .ok ⟨reading, some (.tokens, rest)⟩
      | some .check =>
          .ok ⟨reading, some (.check, rest)⟩
      | some .help =>
          .error (helpStop rest)
      | none =>
          match Form.of argument with
          | .separator => do
              let reading ← readSeparated level reading rest
              .ok ⟨reading, none⟩
          | .long name value => do
              let reading ← reading.takeLong level name value
              read level reading rest
          | .letters letters => do
              let reading ← reading.takeLetters level letters
              read level reading rest
          | .word => do
              let reading ← reading.takeFile level false argument
              read level reading rest

/-- Read the arguments of a command, which has to have a file. -/
def readCommand
    (level : Level)
    (arguments : List String) :
    Except Stop Command := do
  let inner ← read level .start arguments
  let reading ← inner.reading.settle
  match reading.file, level with
  | none, _ =>
      .error (.usage .missingFile)
  | some file, .tokens =>
      .ok (.tokens file reading.json)
  | some file, _ =>
      .ok (.check file)

/-- Read a command line, without the name of the program. -/
def parse (arguments : List String) : Except Stop Arguments := do
  let outer ← read .program .start arguments
  match outer.command with
  | none =>
      let reading ← outer.reading.settle
      .ok ⟨none, reading.file⟩
  | some (level, rest) =>
      let command ← readCommand level rest
      let reading ← outer.reading.settle
      .ok ⟨some command, reading.file⟩

end LayoutLexer.CommandLine
