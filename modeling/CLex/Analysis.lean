import CLex.Comment
import CLex.Lexing
import CLex.Spacing

/-!
# Analysis of a Source

A source is analysed in three stages: its comments are stripped, its spacing is collapsed, and
the rest is lexed. Labels carry the offsets of the source through all stages, so that every
position refers to the source itself.

## Main definitions

* `Tally`: a count for every kind of token.
* `Analysis`: everything there is to report about a source.
* `Stages`: what each stage yields; `Stages.analysis` puts it together.
* `Analysis.ofSource`: the analysis of a source.
* `Analysis.strict`: the analysis if there are no problems.
-/

namespace CLex

/-! ### Tallies -/

/-- A count for every kind of token. -/
structure Tally where
  /-- How many keywords. -/
  keyword : Int := 0
  /-- How many operators. -/
  operator : Int := 0
  /-- How many numeric constants. -/
  numericConstant : Int := 0
  /-- How many identifiers. -/
  identifier : Int := 0
deriving DecidableEq, Repr

namespace Tally

/-- The tally with given counts. -/
def ofCounts (count : Token.Kind → Int) : Tally where
  keyword := count .keyword
  operator := count .operator
  numericConstant := count .numericConstant
  identifier := count .identifier

/-- The count of a kind. -/
def count (tally : Tally) : Token.Kind → Int
  | .keyword => tally.keyword
  | .operator => tally.operator
  | .numericConstant => tally.numericConstant
  | .identifier => tally.identifier

/-- How many tokens there are of each kind. -/
def ofTokens (tokens : List Token) : Tally :=
  ofCounts fun kind => (tokens.countP (·.kind == kind) : Nat)

/-- The sum of all counts. -/
def total (tally : Tally) : Int :=
  Token.Kind.all.foldr (fun kind sum => tally.count kind + sum) 0

@[simp] theorem count_ofCounts (count : Token.Kind → Int) (kind : Token.Kind) :
    (ofCounts count).count kind = count kind := by
  cases kind <;> rfl

/-- Each token is counted once. -/
theorem total_ofTokens (tokens : List Token) : (ofTokens tokens).total = tokens.length := by
  simp only [total, Token.Kind.all, List.foldr_cons, List.foldr_nil, ofTokens, count_ofCounts]
  induction tokens with
  | nil => rfl
  | cons t ts ih =>
    simp only [List.countP_cons, List.length_cons]
    cases t.kind <;> simp <;> omega

end Tally

/-! ### Analyses -/

/-- Everything there is to report about a source. -/
structure Analysis where
  /-- The source. -/
  source : String
  /-- The source without comments. -/
  stripped : String
  /-- The source without comments, in normal spacing. -/
  normalized : String
  /-- The tokens, in order. -/
  tokens : List Token
  /-- The problems, in order. -/
  diagnostics : List Diagnostic
  /-- For each line end in order, the number of tokens before it. -/
  breaks : List Int
  /-- How many tokens there are of each kind. -/
  statistics : Tally
deriving DecidableEq, Repr

/-- The number of tokens that the statistics add up to. -/
def Analysis.total (analysis : Analysis) : Int :=
  analysis.statistics.total

/-! ### The three stages -/

/-- What each stage yields for a source. -/
structure Stages where
  /-- The source. -/
  source : String
  /-- The code, and the block comments. -/
  stripped : Comment.Stripped Int
  /-- The code in normal spacing. -/
  normalized : List (Cell Int)
  /-- The tokens and the problems of the code. -/
  lexed : Lexing

namespace Stages

/-- The three stages of a source. -/
def ofSource (source : String) : Stages :=
  let stripped := Comment.strip (numbered source.toList)
  let normalized := Spacing.collapse stripped.kept
  { source, stripped, normalized
    lexed := .ofCells .standard (.ofString source) normalized }

/-- The problems of all stages in the order of their offsets; those at one offset stay in
the order in which they were found. -/
def diagnostics (stages : Stages) : List Diagnostic :=
  let lines := LineMap.ofString stages.source
  (stages.lexed.diagnostics ++ stages.stripped.diagnostics.map (·.locate lines)).mergeSort
    fun d e => d.offset.getD 0 ≤ e.offset.getD 0

/-- What is to report. -/
def analysis (stages : Stages) : Analysis where
  source := stages.source
  stripped := String.ofList (charsOf stages.stripped.kept)
  normalized := String.ofList (charsOf stages.normalized)
  tokens := stages.lexed.tokens
  diagnostics := stages.diagnostics
  breaks := stages.lexed.breaks.map Int.ofNat
  statistics := .ofTokens stages.lexed.tokens

end Stages

namespace Analysis

/-- The analysis of a source. -/
def ofSource (source : String) : Analysis :=
  (Stages.ofSource source).analysis

/-- The analysis if there are no problems, or else the first problem. -/
def strict (analysis : Analysis) : Except Diagnostic Analysis :=
  match analysis.diagnostics with
  | [] => .ok analysis
  | first :: _ => .error first

end Analysis

end CLex
