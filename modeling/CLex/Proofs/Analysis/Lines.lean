import CLex.Proofs.Analysis.Sighting
import CLex.Proofs.Analysis.Tally
import CLex.Proofs.Comment.Parts
import CLex.Proofs.Lexing.Parts
import CLex.Proofs.Position.Lines
import CLex.Proofs.Spacing.Context

/-!
# Sources Line by Line

Nothing is carried over the end of a line but an open block comment: a line comment ends
there, spacing starts anew, and no lexeme goes on. So if one source stands under another one
that leaves no comment open, they are analysed each by itself, and what is reported of the
lower one is as many lines further down.

## Main results

* `Stages.stripped_append_newline`, `Stages.normalized_append_newline`,
  `Stages.lexed_append_newline`: the three stages.
* `Analysis.ofSource_append_newline`: the analysis.
-/

namespace CLex

open Spacing

/-- Two sources with a line end between them. -/
private theorem toList_append_newline (upper lower : String) :
    (upper ++ "\n" ++ lower).toList = upper.toList ++ '\n' :: lower.toList := by
  simp [String.toList_append]

/-- The characters of two texts with a line end between them, the lower one from elsewhere. -/
private theorem ofList_append_newline (xs : List (Cell Int)) (offset : Int) (g : Int → Int)
    (ys : List (Cell Int)) :
    String.ofList (charsOf (xs ++ ('\n', offset) :: relabel g ys)) =
      String.ofList (charsOf xs) ++ "\n" ++ String.ofList (charsOf ys) := by
  rw [← String.toList_inj]
  simp [String.toList_append]

/-- Offsets of the upper source stand where they do without the lower one. -/
private theorem locate_upper (upper lower : String) {offset : Int} (h : offset ≤ upper.length) :
    (LineMap.ofString (upper ++ "\n" ++ lower)).locate offset =
      (LineMap.ofString upper).locate offset := by
  rw [← String.length_toList] at h
  rw [LineMap.ofString, toList_append_newline]
  exact LineMap.locate_append_left _ _ h

/-- Offsets of the lower source stand as many lines further down. -/
private theorem locate_lower (upper lower : String) {offset : Int} (h : 0 ≤ offset) :
    (LineMap.ofString (upper ++ "\n" ++ lower)).locate (offset + (upper.length + 1)) =
      ((LineMap.ofString lower).locate offset).down (upper.toList.count '\n' + 1) := by
  rw [LineMap.ofString, toList_append_newline, ← String.length_toList]
  exact LineMap.locate_append_newline _ _ h

/-! ### Stages -/

namespace Stages

/-- If no such comment is reported, no block comment is left open. -/
theorem unclosed_eq_none {source : String}
    (h : ∀ d ∈ (Analysis.ofSource source).diagnostics, d.cause ≠ .unterminatedComment) :
    (ofSource source).stripped.unclosed = none := by
  cases hunclosed : (ofSource source).stripped.unclosed with
  | none => rfl
  | some offset =>
      refine absurd rfl (h ((Diagnostic.unterminatedComment offset).locate (.ofString source)) ?_)
      rw [Analysis.diagnostics_ofSource, Comment.Stripped.diagnostics, hunclosed]
      exact List.mem_append_right _ (List.mem_singleton_self _)

variable {upper : String} (h : (ofSource upper).stripped.unclosed = none) (lower : String)

include h

/-- Comments are stripped from both sources, and the line end is code. -/
theorem stripped_append_newline :
    (ofSource (upper ++ "\n" ++ lower)).stripped =
      let below := (ofSource lower).stripped.relabel (· + (upper.length + 1 : Int))
      { kept := (ofSource upper).stripped.kept ++ ('\n', (upper.length : Int)) :: below.kept
        opened := (ofSource upper).stripped.opened ++ below.opened
        unclosed := below.unclosed } := by
  have h : (Comment.strip (numbered upper.toList)).unclosed = none := h
  simp only [ofSource, toList_append_newline, numbered_append_cons,
    Comment.strip_append_newline h, Comment.strip_relabel, String.length_toList]

/-- Both sources are in normal spacing, each by itself. -/
theorem normalized_append_newline :
    (ofSource (upper ++ "\n" ++ lower)).normalized =
      (ofSource upper).normalized ++ ('\n', (upper.length : Int)) ::
        relabel (· + (upper.length + 1 : Int)) (ofSource lower).normalized := by
  have hkept := congrArg Comment.Stripped.kept (stripped_append_newline h lower)
  have hnormalized := congrArg collapse hkept
  rw [collapse_append_newline, Comment.Stripped.relabel, collapse_relabel] at hnormalized
  exact hnormalized

/-- Both sources are lexed, the lower one further down. -/
theorem lexed_append_newline :
    (ofSource (upper ++ "\n" ++ lower)).lexed =
      (ofSource upper).lexed ++ (({ breaks := [0] } : Lexing) ++
        (ofSource lower).lexed.move (·.down (upper.toList.count '\n' + 1))
          (· + (upper.length + 1 : Int))) := by
  have hupper : Lexing.ofCells .standard (.ofString (upper ++ "\n" ++ lower))
      (ofSource upper).normalized = (ofSource upper).lexed := by
    refine Lexing.ofCells_congr_lines fun x hx => locate_upper upper lower ?_
    obtain ⟨n, hn, c, hc, -⟩ := exists_of_mem_normalized upper hx
    obtain ⟨hlt, -⟩ := List.getElem?_eq_some_iff.mp hc
    rw [String.length_toList] at hlt
    omega
  have hlower : Lexing.ofCells .standard (.ofString (upper ++ "\n" ++ lower))
      (relabel (· + (upper.length + 1 : Int)) (ofSource lower).normalized) =
        (ofSource lower).lexed.move (·.down (upper.toList.count '\n' + 1))
          (· + (upper.length + 1 : Int)) := by
    refine Lexing.ofCells_relabel fun x hx => locate_lower upper lower ?_
    obtain ⟨n, hn, -⟩ := exists_of_mem_normalized lower hx
    omega
  have hlexed : (ofSource (upper ++ "\n" ++ lower)).lexed =
      .ofCells .standard (.ofString (upper ++ "\n" ++ lower))
        (ofSource (upper ++ "\n" ++ lower)).normalized := rfl
  rw [hlexed, normalized_append_newline h, Lexing.ofCells_append_newline _ Lexicon.isSolid_standard,
    hupper, hlower]

/-- A block comment that the lower source leaves open is the one that both leave open. -/
theorem located_append_newline :
    (ofSource (upper ++ "\n" ++ lower)).stripped.diagnostics.map
        (·.locate (.ofString (upper ++ "\n" ++ lower))) =
      ((ofSource lower).stripped.diagnostics.map (·.locate (.ofString lower))).map
        (·.move (·.down (upper.toList.count '\n' + 1)) (· + (upper.length + 1 : Int))) := by
  rw [Comment.Stripped.diagnostics, stripped_append_newline h, Comment.Stripped.relabel,
    Comment.Stripped.diagnostics]
  cases hunclosed : (ofSource lower).stripped.unclosed with
  | none => rfl
  | some offset =>
      obtain ⟨n, rfl, -⟩ := exists_of_unclosed lower hunclosed
      have hposition := locate_lower upper lower (Int.natCast_nonneg n)
      simp [Diagnostic.unterminatedComment, Diagnostic.locate, Diagnostic.moveTo,
        Diagnostic.move, LineMap.locate?, hposition]

end Stages

/-! ### Analyses -/

namespace Analysis

section Parts

variable {upper : String} (h : (Stages.ofSource upper).stripped.unclosed = none) (lower : String)

include h

/-- What is left of both sources without comments. -/
theorem stripped_append_newline :
    (ofSource (upper ++ "\n" ++ lower)).stripped =
      (ofSource upper).stripped ++ "\n" ++ (ofSource lower).stripped := by
  have hkept := congrArg Comment.Stripped.kept (Stages.stripped_append_newline h lower)
  exact (congrArg (fun cells => String.ofList (charsOf cells)) hkept).trans
    (ofList_append_newline _ _ _ _)

/-- What is left of both sources in normal spacing. -/
theorem normalized_append_newline :
    (ofSource (upper ++ "\n" ++ lower)).normalized =
      (ofSource upper).normalized ++ "\n" ++ (ofSource lower).normalized :=
  (congrArg (fun cells => String.ofList (charsOf cells))
    (Stages.normalized_append_newline h lower)).trans (ofList_append_newline _ _ _ _)

/-- The tokens of the lower source are further down. -/
theorem tokens_append_newline :
    (ofSource (upper ++ "\n" ++ lower)).tokens =
      (ofSource upper).tokens ++
        (ofSource lower).tokens.map (·.move (·.down (upper.toList.count '\n' + 1))) :=
  congrArg Lexing.tokens (Stages.lexed_append_newline h lower)

/-- The problems of the lower source are further down and further on. -/
theorem diagnostics_append_newline :
    (ofSource (upper ++ "\n" ++ lower)).diagnostics =
      (ofSource upper).diagnostics ++
        (ofSource lower).diagnostics.map
          (·.move (·.down (upper.toList.count '\n' + 1)) (· + (upper.length + 1 : Int))) := by
  have hnone : (Stages.ofSource upper).stripped.diagnostics = [] := by
    rw [Comment.Stripped.diagnostics, h, Option.toList_none, List.map_nil]
  have hlexed := congrArg Lexing.diagnostics (Stages.lexed_append_newline h lower)
  rw [diagnostics_ofSource, diagnostics_ofSource, diagnostics_ofSource, hnone, hlexed,
    Stages.located_append_newline h, List.map_nil, List.append_nil, List.map_append,
    ← List.append_assoc]
  rfl

/-- All tokens of the upper source come before the line end between the two. -/
theorem breaks_append_newline :
    (ofSource (upper ++ "\n" ++ lower)).breaks =
      (ofSource upper).breaks ++ ((ofSource upper).tokens.length : Int) ::
        (ofSource lower).breaks.map (· + ((ofSource upper).tokens.length : Int)) := by
  have hbreaks := congrArg (fun lexing => lexing.breaks.map Int.ofNat)
    (Stages.lexed_append_newline h lower)
  refine hbreaks.trans ?_
  simp [ofSource, Stages.analysis, Lexing.move, Function.comp_def, Int.add_comm]

/-- The counts of both sources add up. -/
theorem statistics_append_newline :
    (ofSource (upper ++ "\n" ++ lower)).statistics =
      (ofSource upper).statistics + (ofSource lower).statistics := by
  have hmove : ∀ (f : Position → Position) (tokens : List Token),
      Tally.ofTokens (tokens.map (·.move f)) = Tally.ofTokens tokens := by
    intro f tokens
    refine Tally.ofTokens_congr ?_
    rw [List.map_map]
    rfl
  have htokens := congrArg Tally.ofTokens (tokens_append_newline h lower)
  rw [Tally.ofTokens_append, hmove] at htokens
  exact htokens

end Parts

/-- **Sources are analysed line by line.** If a source leaves no block comment open, what is
reported of it together with another one under it is what is reported of each, for the lower
one further down: by one line more than there are line ends in the upper one, and by one more
than its length. -/
theorem ofSource_append_newline (upper lower : String)
    (h : ∀ d ∈ (ofSource upper).diagnostics, d.cause ≠ .unterminatedComment) :
    let lines := upper.toList.count '\n' + 1
    ofSource (upper ++ "\n" ++ lower) =
      { source := upper ++ "\n" ++ lower
        stripped := (ofSource upper).stripped ++ "\n" ++ (ofSource lower).stripped
        normalized := (ofSource upper).normalized ++ "\n" ++ (ofSource lower).normalized
        tokens := (ofSource upper).tokens ++ (ofSource lower).tokens.map (·.move (·.down lines))
        diagnostics := (ofSource upper).diagnostics ++
          (ofSource lower).diagnostics.map (·.move (·.down lines) (· + (upper.length + 1)))
        breaks := (ofSource upper).breaks ++ ((ofSource upper).tokens.length : Int) ::
          (ofSource lower).breaks.map (· + ((ofSource upper).tokens.length : Int))
        statistics := (ofSource upper).statistics + (ofSource lower).statistics } := by
  intro lines
  have hclosed := Stages.unclosed_eq_none h
  rw [← stripped_append_newline hclosed, ← normalized_append_newline hclosed,
    ← tokens_append_newline hclosed, ← diagnostics_append_newline hclosed,
    ← breaks_append_newline hclosed, ← statistics_append_newline hclosed]
  rfl

/-- A slash at the end of a line and a star on the next one open no comment, and the slash and
star that do are found on the fourth line. -/
theorem ofSource_append_newline_of_slash :
    (∀ d ∈ (ofSource "a /* b\n */ c // d\n1 /").diagnostics, d.cause ≠ .unterminatedComment) ∧
      (ofSource ("a /* b\n */ c // d\n1 /" ++ "\n" ++ "* e /*")).diagnostics =
        [{ cause := .unterminatedComment, offset := some 26, position := ⟨4, 5⟩ }] ∧
      (ofSource ("a /* b\n */ c // d\n1 /" ++ "\n" ++ "* e /*")).breaks = [2, 4] := by
  have hnone : (ofSource "a /* b\n */ c // d\n1 /").diagnostics = [] := by decide +kernel
  have h : ∀ d ∈ (ofSource "a /* b\n */ c // d\n1 /").diagnostics,
      d.cause ≠ .unterminatedComment := by simp [hnone]
  refine ⟨h, ?_, ?_⟩
  · rw [ofSource_append_newline _ _ h]
    decide +kernel
  · rw [ofSource_append_newline _ _ h]
    decide +kernel

end Analysis

end CLex
