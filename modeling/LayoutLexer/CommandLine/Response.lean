import LayoutLexer.CommandLine.Help
import LayoutLexer.Input
import LayoutLexer.Report

namespace LayoutLexer.CommandLine

/-!
# Carrying out a command line

The answer of the program is an exit status, a text on standard output and what
it has to say on standard error. A file alone is checked; a file besides a
command plays no part.
-/

/-- How the program ends. -/
inductive ExitStatus where
  | success
  /-- There was input, and it could not be read or was refused. -/
  | failure
  /-- There was nothing to work on. -/
  | usage
  deriving Repr, DecidableEq

/-- The number of an exit status. -/
def ExitStatus.code : ExitStatus → Nat
  | .success => 0
  | .failure => 1
  | .usage => 2

/-- What is said on standard error. -/
inductive Complaint where
  | nothing
  /-- A line of text. -/
  | line (text : String)
  /-- The error of a session. -/
  | session (failure : Failure)
  /-- A command line that cannot be carried out. -/
  | arguments (error : UsageError)
  deriving Repr, DecidableEq

/-- The wording of a command line that cannot be carried out. -/
def UsageError.message : UsageError → String
  | .invalidSubcommand => "unrecognized subcommand"
  | .missingFile => "a required FILE is missing"
  | .emptyFile => "a FILE has an empty name"
  | .repeatedFlag => "an option is given twice"
  | .unexpectedValue => "an option has a value that it does not take"
  | .unknownArgument => "unexpected argument"

/-- What is said on standard error, as text. -/
def Complaint.render : Complaint → String
  | .nothing =>
      ""
  | .line text =>
      text ++ "\n"
  | .session failure =>
      failure.error.code ++ "\n" ++ failure.name ++ ": " ++
        failure.error.message ++ "\n" ++
        match failure.error.help? with
        | some help =>
            "help: " ++ help ++ "\n"
        | none =>
            ""
  | .arguments error =>
      "error: " ++ error.message ++ "\n"

/-- The answer of the program. -/
structure Response where
  status : ExitStatus
  stdout : String
  complaint : Complaint
  deriving Repr, DecidableEq

/-- What is to be reported, and the path of the source. -/
structure Task where
  format : ReportFormat
  path : String
  deriving Repr, DecidableEq

/-- The task that a command line sets. -/
def Arguments.task? (arguments : Arguments) : Option Task :=
  match arguments.command, arguments.file with
  | some (.tokens file json), _ =>
      some ⟨if json then .json else .listing, file⟩
  | some (.check file), _ =>
      some ⟨.check, file⟩
  | none, some file =>
      some ⟨.check, file⟩
  | none, none =>
      none

namespace Response

/-- The answer to a command line that sets no task. -/
def noInput : Response where
  status := .usage
  stdout := ""
  complaint := .line "no input file (try `offside --help`)"

/-- The answer that only prints a text. -/
def printed (text : String) : Response where
  status := .success
  stdout := text
  complaint := .nothing

/-- The answer that only complains. -/
def failed (complaint : Complaint) : Response where
  status := .failure
  stdout := ""
  complaint := complaint

/-- The answer to a task, once its input is read. -/
def ofInput (format : ReportFormat) (input : Except InputError Input) : Response :=
  match input with
  | .error error =>
      failed (.line error.message)
  | .ok input =>
      match (Report.make format input.name input.source).result with
      | .error failure =>
          failed (.session failure)
      | .ok report =>
          printed (report ++ "\n")

/-- The answer to a command line that was not read to its end. -/
def ofStop : Stop → Response
  | .help topic =>
      printed (helpText topic)
  | .version =>
      printed versionText
  | .usage error =>
      {
        status := .usage
        stdout := ""
        complaint := .arguments error
      }

end Response

/-- Carry out a command line. -/
def execute (surroundings : Surroundings) (arguments : Arguments) : Response :=
  match arguments.task? with
  | none =>
      .noInput
  | some task =>
      .ofInput task.format (surroundings.readInput task.path)

/-- Read a command line and carry it out. -/
def invoke (surroundings : Surroundings) (arguments : List String) : Response :=
  match parse arguments with
  | .error stop =>
      .ofStop stop
  | .ok parsed =>
      execute surroundings parsed

end LayoutLexer.CommandLine
