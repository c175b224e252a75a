import CLex.Analysis

/-!
# Transcripts

A transcript lists the tokens of a source, one on a line, with an empty line wherever the
source ends a line. The statistics are a block of counts that follows it.

## Main definitions

* `Entry`, `entries`: the lines that list the tokens.
* `renderTranscript`: the transcript of an analysis.
* `renderStatistics`: its statistics.

## Main results

* `entriesFrom_cons`: the breaks that are due come before a token.
* `banner_without_clean`, `banner_with_clean`: the lines before the list.
* `renderStatistics_eq`: the lines of the statistics.
-/

namespace CLex.Report

/-! ### The list of tokens -/

/-- A line of the list: a token, or the end of a line of the source. -/
inductive Entry where
  /-- A token. -/
  | token (token : Token)
  /-- An empty line. -/
  | blank
deriving DecidableEq, Repr

/-- The text of a line. -/
def Entry.render : Entry → String
  | token t => t.kind.label ++ ": " ++ t.lexeme
  | blank => ""

/-- One step of the list. The state holds the lines so far, the number of tokens among them
and the breaks that are left; those that are due come before the token. -/
def addToken : Array Entry × Int × List Int → Token → Array Entry × Int × List Int
  | (lines, count, breaks), t =>
    ((lines ++ (breaks.takeWhile (· ≤ count)).map fun _ => Entry.blank).push (.token t),
      count + 1, breaks.dropWhile (· ≤ count))

/-- The lines that list tokens after a number of others. A break is due once that many tokens
have been listed; breaks are taken in order, and those that never become due follow the last
token. -/
def entriesFrom (count : Int) (tokens : List Token) (breaks : List Int) : List Entry :=
  let last := tokens.foldl addToken (#[], count, breaks)
  last.1.toList ++ last.2.2.map fun _ => .blank

/-- The lines that list the tokens of a source. -/
def entries (tokens : List Token) (breaks : List Int) : List Entry :=
  entriesFrom 0 tokens breaks

/-! ### The equations of the list -/

/-- The lines so far stay in front. -/
private theorem foldl_addToken (tokens : List Token) (lines : Array Entry) (count : Int)
    (breaks : List Int) :
    (tokens.foldl addToken (lines, count, breaks)).1.toList ++
        (tokens.foldl addToken (lines, count, breaks)).2.2.map (fun _ => Entry.blank) =
      lines.toList ++ entriesFrom count tokens breaks := by
  induction tokens generalizing lines count breaks with
  | nil => simp [entriesFrom]
  | cons t ts ih =>
    rw [entriesFrom, List.foldl_cons, List.foldl_cons, addToken, addToken, ih, ih]
    simp

theorem entriesFrom_nil (count : Int) (breaks : List Int) :
    entriesFrom count [] breaks = breaks.map fun _ => .blank := by
  simp [entriesFrom]

/-- The breaks that are due come before a token. -/
theorem entriesFrom_cons (count : Int) (t : Token) (ts : List Token) (breaks : List Int) :
    entriesFrom count (t :: ts) breaks =
      (breaks.takeWhile (· ≤ count)).map (fun _ => .blank) ++ .token t ::
        entriesFrom (count + 1) ts (breaks.dropWhile (· ≤ count)) := by
  rw [entriesFrom, List.foldl_cons, addToken, foldl_addToken]
  simp

/-! ### Blocks of text -/

/-- Lines separated by line feeds, without one at the end. -/
def joinLines (lines : List String) : String :=
  "\n".intercalate lines

/-- A heading with a rule below it. -/
def heading (title : String) : List String :=
  [title, String.ofList (List.replicate title.length '-')]

/-- The lines before the list of tokens: the path and, if asked for, the code in normal
spacing. -/
def banner (path : String) (analysis : Analysis) (showClean : Bool) : List String :=
  ["Processing file: " ++ path, ""] ++
    (if showClean then heading "Clean source:" ++ [analysis.normalized, ""] else []) ++
    heading "Tokens:"

/-- The lines before the list, if the code is not asked for. -/
theorem banner_without_clean (path : String) (analysis : Analysis) :
    banner path analysis false = ["Processing file: " ++ path, "", "Tokens:", "-------"] := rfl

/-- The lines before the list, if the code is asked for. -/
theorem banner_with_clean (path : String) (analysis : Analysis) :
    banner path analysis true =
      ["Processing file: " ++ path, "", "Clean source:", "-------------", analysis.normalized, "",
        "Tokens:", "-------"] := rfl

/-- The transcript of an analysis. -/
def renderTranscript (path : String) (analysis : Analysis) (showClean : Bool) : String :=
  joinLines <| banner path analysis showClean ++
    (entries analysis.tokens analysis.breaks).map Entry.render

/-- The counts of an analysis, and their sum. -/
def renderStatistics (analysis : Analysis) : String :=
  joinLines <| heading "Statistics:" ++
    Token.Kind.all.map (fun kind =>
      kind.label ++ ": " ++ toString (analysis.statistics.count kind)) ++
    ["Total: " ++ toString analysis.total]

/-- The lines of the statistics: a count for each kind, and the total. -/
theorem renderStatistics_eq (analysis : Analysis) :
    renderStatistics analysis = joinLines
      ["Statistics:", "-----------",
        "Keyword: " ++ toString (analysis.statistics.count .keyword),
        "Operator: " ++ toString (analysis.statistics.count .operator),
        "NumericConstant: " ++ toString (analysis.statistics.count .numericConstant),
        "Identifier: " ++ toString (analysis.statistics.count .identifier),
        "Total: " ++ toString analysis.total] := rfl

end CLex.Report
