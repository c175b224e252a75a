import CLex.Proofs.Analysis.Strict
import CLex.Proofs.Comment.Scan
import CLex.Proofs.Lexing.Scan
import CLex.Proofs.Spacing.Scan

/-!
# Analysing Character by Character

The stages of an analysis are each given by what they make of a text as a whole. Read character by
character instead, a source is analysed by three scans: one walks through the source and builds the
code, one passes over the code and builds it in normal spacing, and one walks through that and finds
the tokens. No scan goes back, and what it remembers is told by what it has read.

## Main results

* `Analysis.exists_scans_ofSource`: an analysis is put together from three scans.
-/

namespace CLex

namespace Analysis

/-- **A source is analysed by three scans.** None of them fails, and the analysis reports the text
that each of them leaves to the next, the tokens and the line ends that the last one finds, and its
problems before a comment that the first one left open. -/
theorem exists_scans_ofSource (source : String) :
    ∃ code report spaced lexing,
      ((Comment.Scan.walk (.ofString source)).run? { place := .ofString source }).map
          Comment.Scan.result = some (code, report) ∧
      (code.cells.foldl Spacing.Scan.step {}).built.text = spaced ∧
      ((Lexing.Scan.walk .standard (.ofString source) spaced).run?
          { place := .ofString spaced.content }).bind
          (Lexing.Scan.finish? .standard (.ofString source) spaced) = some lexing ∧
      ofSource source =
        { source
          stripped := code.content
          normalized := spaced.content
          tokens := lexing.tokens
          diagnostics := lexing.diagnostics ++ report.map (·.locate (.ofString source))
          breaks := lexing.breaks.map Int.ofNat
          statistics := .ofTokens lexing.tokens } := by
  have hsource : (Text.ofString source).content = source := String.ofList_toList
  have hcode := Comment.Scan.result_run?_start (.ofString source)
  rw [hsource, strip?_ofString, Option.map_some] at hcode
  refine ⟨_, _, _, (Stages.ofSource source).lexed, hcode, Spacing.Scan.text_foldl_step _, ?_,
    ofSource_eq source⟩
  rw [Lexing.Scan.finish?_run?_start, lexing?_collapse_ofSource]

end Analysis

end CLex
