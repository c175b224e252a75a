import CLex.CommandLine.Request
import CLex.CommandLine.SourceFile
import CLex.CommandLine.Usage
import CLex.Report.Document
import CLex.Report.Transcript

/-!
# Running the Command Line

A run ends with an exit status and what it writes to the two output streams. It reads at most
one file, and the outcome depends on the arguments and on the bytes of that file alone.

## Main definitions

* `RunResult`: how a run ends.
* `stageLog`: the sizes of the stages.
* `Request.answer`: the outcome of a request, given the bytes of the file.
* `run`: the outcome of a run, given how files are read.
-/

namespace CLex.CommandLine

/-- How a run ends. -/
structure RunResult where
  /-- The exit status. -/
  exit : Nat := 0
  /-- What is written to standard output. -/
  stdout : String := ""
  /-- What is written to standard error. -/
  stderr : String := ""
deriving DecidableEq, Repr

/-- Lines of text, each with a line feed at its end. -/
def unlines (lines : List String) : String :=
  String.join (lines.map (· ++ "\n"))

/-- The sizes of the stages of a source: characters before and after stripping and collapsing,
tokens, and problems met in lexing. -/
def stageLog (stages : Stages) : List String :=
  let change (before after : Nat) : String :=
    toString before ++ " -> " ++ toString after ++ " chars"
  ["cscan.pipeline: strip: " ++ change stages.source.length stages.stripped.kept.length,
    "cscan.pipeline: normalize: " ++
      change stages.stripped.kept.length stages.normalized.length,
    "cscan.pipeline: lex: " ++ toString stages.lexed.tokens.length ++ " tokens, " ++
      toString stages.lexed.diagnostics.length ++ " diagnostics"]

namespace Request

/-- What is printed about a source: the document, or the transcript with or without the
statistics. -/
def output (request : Request) (analysis : Analysis) : List String :=
  if request.has .json then [Report.renderDocument request.path analysis]
  else
    Report.renderTranscript request.path analysis (request.has .showClean) ::
      if request.has .stats then ["", Report.renderStatistics analysis] else []

/-- The outcome for a source that has been read. -/
def answerSource (request : Request) (source : String) : RunResult :=
  let stages := Stages.ofSource source
  let log := if request.has .verbose then stageLog stages else []
  match stages.analysis, request.has .strict with
  | { diagnostics := first :: _, .. }, true =>
    { exit := 2, stderr := unlines (log ++ [first.error]) }
  | analysis, _ =>
    let warnings :=
      if request.has .diagnostics then analysis.diagnostics.map Diagnostic.warning else []
    { stdout := unlines (request.output analysis), stderr := unlines (log ++ warnings) }

/-- The outcome of a request, given the bytes of the file if it can be read. -/
def answer (request : Request) (bytes : Option ByteArray) : RunResult :=
  match bytes.bind decodeSource? with
  | some source => request.answerSource source
  | none => { exit := 1, stderr := unlines ["Error: Could not open file " ++ request.path] }

end Request

/-- A path with a character that no path may hold. -/
inductive PathError where
  /-- U+0000 ends a path for the system, and so cannot be part of it. -/
  | nullCharacter
deriving DecidableEq, Repr

/-- The outcome of a run, given how the bytes of a file are read. -/
def run (read? : String → Option ByteArray) (arguments : List String) :
    Except PathError RunResult :=
  match parse arguments with
  | .error mistake => .ok { exit := 2, stderr := mistake.report }
  | .ok .help => .ok { stdout := help }
  | .ok (.analyse request) =>
    if request.path.toList.contains '\x00' then .error .nullCharacter
    else .ok (request.answer (read? request.path))

end CLex.CommandLine
