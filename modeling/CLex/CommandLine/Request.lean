import CLex.CommandLine.Argument

/-!
# Requests

The arguments of the command line ask for the help or for the analysis of one source. They
are read from left to right, so that the help is shown unless a mistake was met before it.
What is left over at the end is a mistake too.

## Main definitions

* `Request`: a path and the flags that are given.
* `flagsOf`: the flags of an option and of the characters attached to it.
* `Reading`: what has been read so far.
* `parse`: what the arguments ask for.
-/

namespace CLex.CommandLine

/-- The analysis of one source. -/
structure Request where
  /-- The path of the source. -/
  path : String
  /-- The flags that are given. -/
  flags : List Flag
deriving DecidableEq, Repr

/-- Whether a request has a flag. -/
def Request.has (request : Request) (flag : Flag) : Bool :=
  request.flags.contains flag

/-- What arguments ask for. -/
inductive Command where
  /-- To show the help. -/
  | help
  /-- To analyse a source. -/
  | analyse (request : Request)
deriving DecidableEq, Repr

/-! ### Flags that are written together -/

/-- The flags after a short one, each a single character. -/
def attachedFlags (flag : Flag) : List Char → Except UsageError (List Flag)
  | [] => .ok []
  | c :: cs =>
    match Flag.ofSpelling? (String.ofList ['-', c]) with
    | some next => do return next :: (← attachedFlags next cs)
    | none => .error (.ignoredValue flag (String.ofList (c :: cs)))

/-- The flags of an option. What is attached to a long spelling, and the empty text, is a
value, which no flag takes. -/
def flagsOf (flag : Flag) (short : Bool) (attached : Option String) :
    Except UsageError (List Flag) :=
  match attached with
  | none => .ok [flag]
  | some value =>
    if short && value != "" then do return flag :: (← attachedFlags flag value.toList)
    else .error (.ignoredValue flag value)

/-! ### Reading from left to right -/

/-- What has been read so far. -/
structure Reading where
  /-- The first operand. -/
  path? : Option String := none
  /-- The flags. -/
  flags : List Flag := []
  /-- What no use has been found for, the last first. -/
  leftOver : List String := []
deriving DecidableEq, Repr

namespace Reading

/-- The reading with its first operand. -/
def withPath (reading : Reading) (path : String) : Reading :=
  { reading with path? := some path }

/-- The reading with more flags. -/
def withFlags (reading : Reading) (flags : List Flag) : Reading :=
  { reading with flags := reading.flags ++ flags }

/-- The reading with an argument left over. -/
def leave (reading : Reading) (argument : String) : Reading :=
  { reading with leftOver := argument :: reading.leftOver }

/-- The request that has been read, or the mistake that is left. -/
def finish (reading : Reading) : Except UsageError Command :=
  match reading.path?, reading.leftOver with
  | none, _ => .error .missingSource
  | some path, [] => .ok (.analyse { path, flags := reading.flags })
  | some _, leftOver => .error (.unrecognized leftOver.reverse)

/-- What the arguments from here on ask for. The separator is used up only next to the first
operand. -/
def read (reading : Reading) : List Argument → Except UsageError Command
  | [] => reading.finish
  | .option flag short attached :: rest => do
    let flags ← flagsOf flag short attached
    if flags.contains .help then return .help
    else (reading.withFlags flags).read rest
  | .unknown text :: rest => (reading.leave text).read rest
  | .operand text :: rest =>
    match reading.path?, rest with
    | some _, rest => (reading.leave text).read rest
    | none, .separator :: rest => (reading.withPath text).read rest
    | none, rest => (reading.withPath text).read rest
  | .separator :: rest =>
    match reading.path?, rest with
    | none, .operand text :: rest => (reading.withPath text).read rest
    | _, rest => (reading.leave "--").read rest

end Reading

/-- What the arguments ask for. -/
def parse (arguments : List String) : Except UsageError Command := do
  ({} : Reading).read (← interpretAll arguments)

end CLex.CommandLine
