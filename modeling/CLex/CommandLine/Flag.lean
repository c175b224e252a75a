/-!
# Flags of the Command Line

The options of the command line take no values; each is switched on by any of its spellings.
-/

namespace CLex.CommandLine

/-- The options. -/
inductive Flag where
  /-- Show the help and stop. -/
  | help
  /-- Append the statistics. -/
  | stats
  /-- Print the document instead of the transcript. -/
  | json
  /-- Show the code in normal spacing. -/
  | showClean
  /-- Report the problems. -/
  | diagnostics
  /-- Give up at the first problem. -/
  | strict
  /-- Report the sizes of the stages. -/
  | verbose
deriving DecidableEq, Repr, Inhabited

namespace Flag

/-- All flags, in the order of their declaration. -/
def all : List Flag :=
  [help, stats, json, showClean, diagnostics, strict, verbose]

theorem mem_all (flag : Flag) : flag ∈ all := by
  cases flag <;> decide

/-- The spellings of a flag, a short one first. -/
def spellings : Flag → List String
  | help => ["-h", "--help"]
  | stats => ["--stats"]
  | json => ["--json"]
  | showClean => ["--show-clean"]
  | diagnostics => ["--diagnostics"]
  | strict => ["--strict"]
  | verbose => ["-v", "--verbose"]

/-- How a flag is named in messages. -/
def displayName (flag : Flag) : String :=
  "/".intercalate flag.spellings

/-- The flag with a spelling. -/
def ofSpelling? (spelling : String) : Option Flag :=
  all.find? fun flag => spelling ∈ flag.spellings

/-- All spellings with their flags, in the order of their declaration. -/
def spelled : List (String × Flag) :=
  all.flatMap fun flag => flag.spellings.map (·, flag)

/-- A spelling determines its flag. -/
theorem ofSpelling?_of_mem {flag : Flag} {spelling : String} (h : spelling ∈ flag.spellings) :
    ofSpelling? spelling = some flag := by
  have : ∀ f ∈ all, ∀ s ∈ f.spellings, ofSpelling? s = some f := by decide
  exact this flag flag.mem_all spelling h

end Flag

end CLex.CommandLine
