/-
What the program says about its own use.
-/
import Concordance.CommandLine.Usage

namespace Concordance.CommandLine

def usageLines : List String :=
  ["Full-text search over scanned-document corpora",
   "",
   "Usage: folio [OPTIONS] <COMMAND>",
   "",
   "Commands:",
   "  build   Build the full-text index from the extracted corpus",
   "  search  Search the corpus and print matching documents",
   "  shell   Interactive search prompt",
   "  stats   Print document and page totals",
   "  help    Print this message",
   "",
   "Options:",
   "      --data-dir <DIR>     Directory holding the corpus files and the index",
   "      --index <FILE>       Index file; relative paths resolve against the data directory",
   "      --log-level <LEVEL>  Log level",
   "      --log-json           Emit logs as JSON lines",
   "  -h, --help               Print help",
   "  -V, --version            Print version"]

def versionLine : String := "folio 0.1.0"

namespace UsageError

/-- What is printed instead of an answer. -/
def lines : UsageError → List String
  | displayHelp => usageLines
  | displayVersion => [versionLine]
  | helpOnMissing => usageLines
  | missingSubcommand => ["error: a subcommand is needed"]
  | invalidSubcommand => ["error: there is no such subcommand"]
  | unknownArgument => ["error: an argument was not expected"]
  | invalidValue => ["error: a value is missing or not one of those possible"]
  | valueValidation => ["error: a value is not valid"]
  | argumentConflict => ["error: an option is given twice"]
  | tooManyValues => ["error: a flag takes no value"]
  | missingRequired => ["error: a required argument is missing"]

/-- Help and version that were asked for are an answer; everything else is an error. -/
def exitCode : UsageError → UInt8
  | displayHelp => 0
  | displayVersion => 0
  | _ => 2

end UsageError

end Concordance.CommandLine
