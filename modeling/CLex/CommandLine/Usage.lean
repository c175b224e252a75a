import CLex.CommandLine.Argument

/-!
# Usage and Help

The texts that the command line shows about itself.
-/

namespace CLex.CommandLine

/-- How the command is used. -/
def usage : String :=
  "usage: cscan [-h] [--stats] [--json] [--show-clean] [--diagnostics] [--strict]\n" ++
  "             [-v]\n" ++
  "             src\n"

/-- The help. -/
def help : String :=
  usage ++
  "\n" ++
  "Lex a C source file into classified tokens.\n" ++
  "\n" ++
  "positional arguments:\n" ++
  "  src\n" ++
  "\n" ++
  "options:\n" ++
  "  -h, --help     show this help message and exit\n" ++
  "  --stats        append per-kind token counts\n" ++
  "  --json         print a JSON document instead of the transcript\n" ++
  "  --show-clean   print the comment-free, normalized source\n" ++
  "  --diagnostics  report dropped characters and tokens on stderr\n" ++
  "  --strict       treat the first diagnostic as fatal\n" ++
  "  -v, --verbose\n"

/-- The report of a mistake in the arguments. -/
def UsageError.report (error : UsageError) : String :=
  usage ++ "cscan: error: " ++ error.message ++ "\n"

end CLex.CommandLine
