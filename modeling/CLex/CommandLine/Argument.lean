import CLex.CommandLine.Flag
import CLex.Text.DecimalDigit
import CLex.Text.Quoted

/-!
# Arguments of the Command Line

An argument is an option, an operand, or the separator after which there are operands only.
An argument that starts with a dash is an option if it is a spelling, the only spelling that
it abbreviates, or a short spelling with more characters attached. If it is none of these, it
is an operand all the same when it looks like a negative number or contains a space.

## Main definitions

* `Argument`: what an argument is taken for.
* `UsageError`: what can be wrong with arguments; `UsageError.message` words it.
* `interpret`: what one argument is taken for.
* `interpretAll`: what all arguments are taken for.
-/

namespace CLex.CommandLine

/-! ### Mistakes -/

/-- What is wrong with the arguments. -/
inductive UsageError where
  /-- An abbreviation stands for several spellings. -/
  | ambiguous (argument : String) (spellings : List String)
  /-- A flag is given a value. -/
  | ignoredValue (flag : Flag) (value : String)
  /-- There is no operand. -/
  | missingSource
  /-- There are unknown options or further operands. -/
  | unrecognized (arguments : List String)
deriving DecidableEq, Repr

/-- What is wrong, in words. -/
def UsageError.message : UsageError → String
  | ambiguous argument spellings =>
    "ambiguous option: " ++ argument ++ " could match " ++ ", ".intercalate spellings
  | ignoredValue flag value =>
    "argument " ++ flag.displayName ++ ": ignored explicit argument " ++
      Text.Quoted.quote value
  | missingSource => "the following arguments are required: src"
  | unrecognized arguments => "unrecognized arguments: " ++ " ".intercalate arguments

/-! ### Single arguments -/

/-- What an argument is taken for. -/
inductive Argument where
  /-- An operand. -/
  | operand (text : String)
  /-- The separator before operands. -/
  | separator
  /-- An option, with a short or a long spelling, and the characters attached to it. -/
  | option (flag : Flag) (short : Bool) (attached : Option String)
  /-- An option that does not exist. -/
  | unknown (text : String)
deriving DecidableEq, Repr

/-- The part of an argument before the first equals sign, and the part after it. -/
def splitValue (argument : List Char) : List Char × Option (List Char) :=
  match argument.dropWhile (· != '=') with
  | [] => (argument, none)
  | _ :: value => (argument.takeWhile (· != '='), some value)

/-- Whether an argument starts with two dashes. -/
def isLong (argument : List Char) : Bool :=
  ['-', '-'].isPrefixOf argument

/-- The options that a long argument may stand for: every spelling that starts with the part
before the equals sign. -/
def expansions (argument : List Char) : List (String × Argument) :=
  let (head, value) := splitValue argument
  (Flag.spelled.filter fun (spelling, _) => head.isPrefixOf spelling.toList).map
    fun (spelling, flag) =>
      (spelling, .option flag (!isLong spelling.toList) (value.map String.ofList))

/-- The option that an argument with one dash may stand for: its first two characters are the
spelling, and the others are attached. -/
def attachments (argument : List Char) : List (String × Argument) :=
  let spelling := String.ofList (argument.take 2)
  match Flag.ofSpelling? spelling with
  | some flag => [(spelling, .option flag true (some (String.ofList (argument.drop 2))))]
  | none => []

/-- Whether the characters after a dash are digits, or a point between digits with at least
one after it. A line feed may follow. -/
def isNegativeNumber : List Char → Bool
  | '-' :: digits =>
    let digits := if digits.getLast? = some '\n' then digits.dropLast else digits
    match digits.dropWhile Text.isDecimalDigit with
    | [] => !digits.isEmpty
    | point :: fraction =>
      point == '.' && !fraction.isEmpty && fraction.all Text.isDecimalDigit
  | _ => false

/-- What an argument that starts with a dash and is no spelling is taken for. -/
def interpretDashed (argument : String) : Except UsageError Argument :=
  let chars := argument.toList
  match if isLong chars then expansions chars else attachments chars with
  | [(_, option)] => .ok option
  | [] =>
    if isNegativeNumber chars || chars.contains ' ' then .ok (.operand argument)
    else .ok (.unknown argument)
  | several => .error (.ambiguous argument (several.map (·.1)))

/-- The option that an argument spells in full, perhaps with a value after an equals sign. -/
def exactOption? (argument : String) : Option Argument :=
  let option (spelling : String) (value : Option String) : Option Argument :=
    (Flag.ofSpelling? spelling).map fun flag => .option flag (!isLong spelling.toList) value
  (option argument none).or <|
    match splitValue argument.toList with
    | (head, some value) => option (String.ofList head) (some (String.ofList value))
    | (_, none) => none

/-- What an argument before the separator is taken for. A single dash is an operand. -/
def interpret (argument : String) : Except UsageError Argument :=
  if argument.toList.head? ≠ some '-' ∨ argument = "-" then .ok (.operand argument)
  else match exactOption? argument with
    | some option => .ok option
    | none => interpretDashed argument

/-! ### All arguments -/

/-- What the arguments are taken for. After two dashes alone there are operands only. -/
def interpretAll (arguments : List String) : Except UsageError (List Argument) := do
  let before := arguments.takeWhile (· != "--")
  let interpreted ← before.mapM interpret
  match arguments.dropWhile (· != "--") with
  | [] => return interpreted
  | _ :: operands => return interpreted ++ .separator :: operands.map .operand

end CLex.CommandLine
