import CLex.Diagnostic
import CLex.Segment
import CLex.Token

/-!
# Lexing

Every segment of a text amounts to something: a mark is an operator or a problem, a word is a
token of its kind or a problem, a line feed ends a line, and other whitespace only separates.
A `Lexing` collects the tokens, the problems, and for each line end the number of tokens
before it.

## Main definitions

* `Outcome`, `Segment.outcome`: what a segment amounts to.
* `Lexing`, `Lexing.ofOutcomes`: all outcomes of a text.
* `Lexing.ofCells`, `Text.lexing?`: the lexing of labelled characters and of texts.

## Main results

* `lineBreaks_token`, `lineBreaks_lineEnd`: counting tokens up to the line ends.
-/

namespace CLex

/-! ### Outcomes -/

/-- What a segment amounts to. -/
inductive Outcome where
  /-- A token. -/
  | token (token : Token)
  /-- Characters that form no token. -/
  | problem (diagnostic : Diagnostic)
  /-- The end of a line. -/
  | lineEnd
  /-- Whitespace within a line. -/
  | gap
deriving DecidableEq, Repr

namespace Outcome

/-- The token, if it is one. -/
def token? : Outcome → Option Token
  | token t => some t
  | _ => none

/-- The diagnostic, if there is one. -/
def problem? : Outcome → Option Diagnostic
  | problem d => some d
  | _ => none

end Outcome

/-- What a segment amounts to, given where it starts. -/
def Segment.outcome (lexicon : Lexicon) (lines : LineMap) : Segment Int → Outcome
  | space c => if c = '\n' then .lineEnd else .gap
  | mark chars offset =>
    let lexeme := String.ofList chars
    let position := lines.locate offset
    if lexicon.isOperator chars then .token { kind := .operator, lexeme, position }
    else .problem { cause := .unrecognized lexeme .operator, offset := some offset, position }
  | word chars offset =>
    let lexeme := String.ofList chars
    let position := lines.locate offset
    match Token.Kind.ofWord? lexicon.keywords lexeme with
    | some kind => .token { kind, lexeme, position }
    | none =>
      .problem { cause := .unrecognized lexeme .malformed, offset := some offset, position }

/-! ### Line breaks -/

/-- One step of the count: a token is counted, the end of a line notes the count. -/
def countBreak : Nat × Array Nat → Outcome → Nat × Array Nat
  | (count, breaks), .token _ => (count + 1, breaks)
  | (count, breaks), .lineEnd => (count, breaks.push count)
  | state, _ => state

/-- For each line end in order, the number of tokens before it. -/
def lineBreaks (outcomes : List Outcome) : List Nat :=
  (outcomes.foldl countBreak (0, #[])).2.toList

private theorem foldl_countBreak (outcomes : List Outcome) (count : Nat) (breaks : Array Nat) :
    (outcomes.foldl countBreak (count, breaks)).2.toList =
      breaks.toList ++ (lineBreaks outcomes).map (count + ·) := by
  induction outcomes generalizing count breaks with
  | nil => simp [lineBreaks]
  | cons o os ih =>
    rw [lineBreaks, List.foldl_cons, List.foldl_cons]
    cases o with
    | token t =>
      rw [countBreak, countBreak, ih, ih (0 + 1)]
      simp [Function.comp_def, Nat.add_assoc]
    | problem d => exact ih count breaks
    | lineEnd =>
      rw [countBreak, countBreak, ih, ih 0]
      simp
    | gap => exact ih count breaks

@[simp] theorem lineBreaks_nil : lineBreaks [] = [] := rfl

/-- A token comes before all line ends that follow it. -/
theorem lineBreaks_token (t : Token) (os : List Outcome) :
    lineBreaks (.token t :: os) = (lineBreaks os).map (1 + ·) := by
  rw [lineBreaks, List.foldl_cons, countBreak, foldl_countBreak]
  simp

/-- No token comes before the end of a line that is met first. -/
theorem lineBreaks_lineEnd (os : List Outcome) :
    lineBreaks (.lineEnd :: os) = 0 :: lineBreaks os := by
  rw [lineBreaks, List.foldl_cons, countBreak, foldl_countBreak]
  simp

theorem lineBreaks_problem (d : Diagnostic) (os : List Outcome) :
    lineBreaks (.problem d :: os) = lineBreaks os := rfl

theorem lineBreaks_gap (os : List Outcome) : lineBreaks (.gap :: os) = lineBreaks os := rfl

/-- The line ends of a second part follow all tokens of the first. -/
theorem lineBreaks_append (os ps : List Outcome) :
    lineBreaks (os ++ ps) =
      lineBreaks os ++ (lineBreaks ps).map ((os.filterMap Outcome.token?).length + ·) := by
  induction os with
  | nil => simp
  | cons o os ih =>
    cases o with
    | token t =>
      rw [List.cons_append, lineBreaks_token, lineBreaks_token, ih, List.map_append, List.map_map,
        List.filterMap_cons, Outcome.token?]
      simp [Function.comp_def, Nat.add_assoc, Nat.add_comm]
    | problem d => exact ih
    | lineEnd =>
      rw [List.cons_append, lineBreaks_lineEnd, lineBreaks_lineEnd, ih]
      rfl
    | gap => exact ih

/-! ### Lexing -/

/-- What the lexing of a text yields. -/
structure Lexing where
  /-- The tokens, in order. -/
  tokens : List Token := []
  /-- The problems, in order. -/
  diagnostics : List Diagnostic := []
  /-- For each line end in order, the number of tokens before it. -/
  breaks : List Nat := []
deriving DecidableEq, Repr

namespace Lexing

/-- The outcomes of a text, sorted by what they are. -/
def ofOutcomes (outcomes : List Outcome) : Lexing where
  tokens := outcomes.filterMap Outcome.token?
  diagnostics := outcomes.filterMap Outcome.problem?
  breaks := lineBreaks outcomes

/-- The lexing of segments that know where they start. -/
def ofSegments (lexicon : Lexicon) (lines : LineMap) (segments : List (Segment Int)) :
    Lexing :=
  .ofOutcomes (segments.map (·.outcome lexicon lines))

/-- The lexing of characters that are labelled with their offsets. -/
def ofCells (lexicon : Lexicon) (lines : LineMap) (cells : List (Cell Int)) : Lexing :=
  ofSegments lexicon lines (segments lexicon cells)

/-- The lexing of a source as it stands, comments and all. -/
def ofSource (source : String) : Lexing :=
  ofCells .standard (.ofString source) (numbered source.toList)

end Lexing

/-- The lexing of a text. This fails if the first character of a mark or a word has no
origin; other characters need none. -/
def Text.lexing? (lexicon : Lexicon) (lines : LineMap) (text : Text) : Option Lexing :=
  ((segments lexicon text.padded).mapM Segment.labelled?).map (.ofSegments lexicon lines)

end CLex
