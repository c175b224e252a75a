import CLex.CommandLine.Run

/-!
# The Program

The command line on the files of the system. Everything but reading the file and writing the
streams is decided in `CLex.CommandLine`.
-/

namespace CLex.CommandLine

/-- The path of the file that the arguments ask for. -/
def wantedPath? (arguments : List String) : Option String :=
  match parse arguments with
  | .ok (.analyse request) => some request.path
  | _ => none

/-- The bytes of a file, if it can be read. -/
def readFile? (path : String) : IO (Option ByteArray) := do
  try
    return some (← IO.FS.readBinFile path)
  catch _ => return none

end CLex.CommandLine

/-- Reads the file that the arguments ask for, and writes what is to be said about it. -/
def main (arguments : List String) : IO UInt32 := do
  let bytes ← match CLex.CommandLine.wantedPath? arguments with
    | some path => CLex.CommandLine.readFile? path
    | none => pure none
  match CLex.CommandLine.run (fun _ => bytes) arguments with
  | .error .nullCharacter =>
    (← IO.getStderr).putStr "the path holds a null character\n"
    return 1
  | .ok result =>
    (← IO.getStderr).putStr result.stderr
    (← IO.getStdout).putStr result.stdout
    return UInt32.ofNat result.exit
