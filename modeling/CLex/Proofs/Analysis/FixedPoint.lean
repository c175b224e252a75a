import CLex.Proofs.Analysis.Sighting
import CLex.Proofs.Analysis.Tally
import CLex.Proofs.Comment.Spacing
import CLex.Proofs.Lexing.Parts

/-!
# The Clean Source

What an analysis keeps of a source, stripped of comments and in normal spacing, is a source
itself. In it no comment opens and no blank is too many, so that its own analysis keeps all of
it. It has the same tokens and the same problems in the same order, at other positions.

## Main results

* `Stages.strip_normalized`, `Stages.charsOf_collapse_normalized`: nothing is left to do.
* `Analysis.ofSource_normalized`: the analysis of a clean source.
-/

namespace CLex

open Spacing

/-- In normal spacing the same characters are kept, whatever their labels. -/
theorem charsOf_collapse_congr {α β : Type} {xs : List (Cell α)} {ys : List (Cell β)}
    (h : charsOf xs = charsOf ys) : charsOf (collapse xs) = charsOf (collapse ys) := by
  rw [← charsOf_relabel (fun _ => ()) (collapse xs), ← collapse_relabel, relabel_const, h,
    ← relabel_const, collapse_relabel, charsOf_relabel]

namespace Stages

variable (source : String)

/-- No comment opens in a clean source. -/
theorem opensNowhere_normalized :
    Comment.OpensNowhere (charsOf (ofSource source).normalized) :=
  Comment.opensNowhere_collapseAfter.mpr (Comment.opensNowhere_kept _)

/-- There is nothing to strip from a clean source. -/
theorem strip_normalized :
    (ofSource (ofSource source).analysis.normalized).stripped =
      { kept := numbered (charsOf (ofSource source).normalized)
        opened := [], unclosed := none } := by
  have hchars : (ofSource source).analysis.normalized.toList =
      charsOf (ofSource source).normalized := String.toList_ofList
  have hopens := opensNowhere_normalized source
  rw [← charsOf_numbered (charsOf (ofSource source).normalized)] at hopens
  simp only [ofSource, Stages.analysis] at hchars ⊢
  rw [hchars]
  exact Comment.strip_of_opensNowhere hopens

/-- A clean source is in normal spacing. -/
theorem charsOf_collapse_normalized :
    charsOf (collapse (numbered (charsOf (ofSource source).normalized))) =
      charsOf (ofSource source).normalized := by
  rw [charsOf_collapse_congr (charsOf_numbered _)]
  exact congrArg charsOf (collapse_collapse _)

end Stages

/-- **A clean source stays as it is.** The analysis of what another one has cleaned keeps all
of it, and finds the same tokens, line ends and problems in the same order, but for a comment
that is not closed: that one has been stripped. -/
theorem Analysis.ofSource_normalized (source : String) :
    let clean := (ofSource source).normalized
    (ofSource clean).stripped = clean ∧ (ofSource clean).normalized = clean ∧
      (ofSource clean).tokens.map (fun t => (t.kind, t.lexeme)) =
        (ofSource source).tokens.map (fun t => (t.kind, t.lexeme)) ∧
      (ofSource clean).breaks = (ofSource source).breaks ∧
      (ofSource clean).statistics = (ofSource source).statistics ∧
      (ofSource clean).diagnostics.map (·.cause) =
        ((ofSource source).diagnostics.filter (·.cause ≠ .unterminatedComment)).map (·.cause) := by
  intro clean
  have hstrip : (Stages.ofSource clean).stripped =
      { kept := numbered (charsOf (Stages.ofSource source).normalized)
        opened := [], unclosed := none } := Stages.strip_normalized source
  have hnormalized : (Stages.ofSource clean).normalized =
      collapse (numbered (charsOf (Stages.ofSource source).normalized)) :=
    congrArg (fun stripped : Comment.Stripped Int => collapse stripped.kept) hstrip
  -- the same characters are lexed as before, only at other offsets
  have hchars : charsOf (Stages.ofSource clean).normalized =
      charsOf (Stages.ofSource source).normalized := by
    rw [hnormalized, Stages.charsOf_collapse_normalized]
  obtain ⟨htokens, hproblems, hbreaks⟩ :=
    Lexing.ofCells_congr hchars .standard (.ofString clean) (.ofString source)
  refine ⟨?_, congrArg String.ofList hchars, htokens, congrArg (List.map Int.ofNat) hbreaks, ?_, ?_⟩
  · have hkept : charsOf (Stages.ofSource clean).stripped.kept =
        charsOf (Stages.ofSource source).normalized := by
      rw [hstrip, charsOf_numbered]
    exact congrArg String.ofList hkept
  · have hkinds := congrArg (List.map Prod.fst) htokens
    rw [List.map_map, List.map_map] at hkinds
    exact Tally.ofTokens_congr hkinds
  · rw [filter_diagnostics_ofSource, diagnostics_ofSource, hstrip, Comment.Stripped.diagnostics,
      Option.toList_none, List.map_nil, List.map_nil, List.append_nil]
    exact hproblems

end CLex
