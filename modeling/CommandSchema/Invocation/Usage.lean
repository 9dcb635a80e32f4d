/-
The texts that the command line shows of itself.
-/
import CommandSchema.Text.Line

namespace CommandSchema
namespace Usage

def program : String := "argspec-gen"

def version : String := program ++ " 0.1.0\n"

def table (rows : List (String × String)) : List String :=
  let width := rows.foldl (fun w row => max w row.1.length) 0
  rows.map fun row => "  " ++ Text.padRight width row.1 ++ "  " ++ row.2

def verboseRow : String × String :=
  ("-v, --verbose...", "Increase log verbosity (-v info, -vv debug). RUST_LOG takes precedence")

def helpRow : String × String := ("-h, --help", "Print help")

def inputRows : List (String × String) := [
  ("    --input <INPUT>", "Primary JSON schema whose commands are generated"),
  ("    --aux <AUXILIARY>",
    "Auxiliary JSON schema whose command names are already taken (repeatable)"),
  ("    --config <CONFIG>", "Optional YAML generator configuration")]

/-- The help of a command: what it does, how it is called, and its options. -/
def commandHelp (about call : String) (rows : List (String × String)) : String :=
  Text.unlines ([about, "", "Usage: " ++ program ++ " " ++ call, "", "Options:"] ++ table rows)

def mainHelp : String := Text.unlines (
  ["Generate CFGArg command-line parsers from JSON schemas", "",
    "Usage: " ++ program ++ " [OPTIONS] <COMMAND>", "", "Commands:"] ++
  table [
    ("generate", "Compile a schema and write the header and source files"),
    ("check", "Validate a schema without writing anything"),
    ("print", "Print one generated file to stdout"),
    ("help", "Print this message or the help of the given subcommand(s)")] ++
  ["", "Options:"] ++ table [verboseRow, helpRow, ("-V, --version", "Print version")])

def help : Option String → String
  | some "generate" =>
    commandHelp "Compile a schema and write the header and source files"
      "generate [OPTIONS] --input <INPUT> --header <HEADER> --source <SOURCE>"
      (inputRows.take 1 ++ [verboseRow] ++ inputRows.drop 1 ++ [
        ("    --header <HEADER>", "Output header path"),
        ("    --source <SOURCE>", "Output source path"), helpRow])
  | some "check" =>
    commandHelp "Validate a schema without writing anything" "check [OPTIONS] --input <INPUT>"
      (inputRows.take 1 ++ [verboseRow] ++ inputRows.drop 1 ++ [helpRow])
  | some "print" =>
    commandHelp "Print one generated file to stdout" "print [OPTIONS] --input <INPUT>"
      (inputRows.take 1 ++ [verboseRow] ++ inputRows.drop 1 ++ [
        ("    --part <PART>",
          "Which generated file to print [default: header] [possible values: header, source]"),
        ("    --header-name <HEADER_NAME>",
          "Header name included by the source (default: <input stem>_auto.h)"), helpRow])
  | _ => mainHelp

/-- What is said about a command line that cannot be understood. -/
def invalid : String :=
  Text.unlines ["error: the arguments are not valid", "",
    "For more information, try '--help'."]

end Usage
end CommandSchema
