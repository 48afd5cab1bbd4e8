import LayoutLexer.CommandLine.Arguments

namespace LayoutLexer.CommandLine

/-!
# Help texts

What the program says about itself: its version, and how to use it and each of
its commands.
-/

/-- Lines, each with its line feed. -/
def unlines (lines : List String) : String :=
  "".intercalate (lines.map (· ++ "\n"))

/-- The name and the version of the program. -/
def versionText : String :=
  unlines ["offside 0.1.0"]

/-- The help on a topic. -/
def helpText : Topic → String
  | .program =>
      unlines [
        "Indentation-aware lexer for the offside scripting language",
        "",
        "Usage: offside [FILE] [COMMAND]",
        "",
        "Commands:",
        "  tokens  Print the token stream of a file",
        "  check   Check the block structure of a file",
        "  help    Print this message or the help of the given subcommand(s)",
        "",
        "Arguments:",
        "  [FILE]  File to check (default action when no subcommand given)",
        "",
        "Options:",
        "  -h, --help     Print help",
        "  -V, --version  Print version"]
  | .command .tokens =>
      unlines [
        "Print the token stream of a file",
        "",
        "Usage: offside tokens [OPTIONS] <FILE>",
        "",
        "Arguments:",
        "  <FILE>  Source file (`-` for stdin)",
        "",
        "Options:",
        "      --json  Print tokens as a JSON array",
        "  -h, --help  Print help"]
  | .command .check =>
      unlines [
        "Check the block structure of a file",
        "",
        "Usage: offside check <FILE>",
        "",
        "Arguments:",
        "  <FILE>  Source file (`-` for stdin)",
        "",
        "Options:",
        "  -h, --help  Print help"]
  | .command .help =>
      unlines [
        "Print this message or the help of the given subcommand(s)",
        "",
        "Usage: offside help [COMMAND]...",
        "",
        "Arguments:",
        "  [COMMAND]...  Print help for the subcommand(s)"]

end LayoutLexer.CommandLine
