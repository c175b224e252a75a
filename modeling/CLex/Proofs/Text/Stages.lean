import Mathlib.Data.List.Basic
import CLex.Proofs.Comment.Spacing
import CLex.Proofs.Segment.Spacing
import CLex.Proofs.Text.Origins

/-!
# Stages in Any Order

A text may be stripped of its comments and collapsed to normal spacing again and again, in
any order. What comes of it is settled soon: once it was stripped no comment opens in it any
more, and up to spacing it is then the code of the first text; once it was collapsed after
that, it is this code in normal spacing. Only the first stripping finds a comment that is not
closed.

## Main definitions

* `Text.Stage`, `Text.afterStages?`: stages one after the other.
* `Text.Settled`: what holds of a text from the first stripping on.

## Main results

* `Text.Settled.afterStages?`: what stages make of a settled text.
* `Text.exists_afterStages`: what stages make of any text with enough origins.
-/

open scoped List

namespace CLex

namespace Text

open Spacing

/-! ### Stages -/

/-- The stages that make a text of a text. -/
inductive Stage where
  /-- Comments are stripped. -/
  | strip
  /-- Spacing is collapsed. -/
  | collapse
deriving DecidableEq, Repr

/-- What a stage makes of a text, and what it reports. This fails if an origin is missing. -/
def Stage.step? : Stage → Text → Option (Text × List Diagnostic)
  | strip, text => text.strip?.map fun stripped => (stripped.text, stripped.diagnostics)
  | collapse, text => some (text.collapse, [])

/-- What stages make of a text one after the other, and what each of them reports. -/
def afterStages? : List Stage → Text → Option (Text × List (List Diagnostic))
  | [], text => some (text, [])
  | stage :: stages, text =>
    (stage.step? text).bind fun next =>
      (afterStages? stages next.1).map fun rest => (rest.1, next.2 :: rest.2)

/-- The first stage succeeds, and then the others do. -/
theorem afterStages?_cons {stage : Stage} {stages : List Stage} {text next final : Text}
    {report : List Diagnostic} {reports : List (List Diagnostic)}
    (h : stage.step? text = some (next, report))
    (hrest : afterStages? stages next = some (final, reports)) :
    afterStages? (stage :: stages) text = some (final, report :: reports) := by
  rw [afterStages?, h, Option.bind_some, hrest]
  rfl

/-! ### Settled texts -/

/-- Whether a text is settled to be some code: no comment opens in it, and up to spacing it is
that code. -/
structure Settled (code cells : List (Cell Int)) : Prop where
  /-- No comment opens. -/
  opens : Comment.OpensNowhere (charsOf cells)
  /-- In normal spacing it is the code in normal spacing. -/
  collapse_eq : Spacing.collapse cells = Spacing.collapse code

namespace Settled

variable {code cells : List (Cell Int)}

/-- In normal spacing a text is still settled. -/
theorem collapse (h : Settled code cells) : Settled code (Spacing.collapse code) where
  opens := by
    rw [← h.collapse_eq]
    exact Comment.opensNowhere_collapseAfter.mpr h.opens
  collapse_eq := collapse_collapse code

/-- Stripping leaves a settled text alone and reports nothing. -/
theorem step?_strip (h : Settled code cells) :
    Stage.strip.step? (ofCells cells) = some (ofCells cells, []) := by
  rw [Stage.step?, strip?_ofCells, Comment.strip_of_opensNowhere h.opens]
  rfl

/-- Collapsing brings a settled text into its final form. -/
theorem step?_collapse (h : Settled code cells) :
    Stage.collapse.step? (ofCells cells) = some (ofCells (Spacing.collapse code), []) := by
  rw [Stage.step?, collapse_ofCells, h.collapse_eq]

/-- Lexing does not see which settled text it is. -/
theorem lexing? (h : Settled code cells) {lexicon : Lexicon} (hsolid : lexicon.IsSolid)
    (lines : LineMap) :
    (ofCells cells).lexing? lexicon lines =
      some (.ofCells lexicon lines (Spacing.collapse code)) := by
  rw [lexing?_ofCells, ← Lexing.ofCells_collapse hsolid lines cells, h.collapse_eq]

/-- Whatever the stages are, a settled text stays settled, and nothing is reported. Once
collapsed, and if it was so before, it has its final form. -/
theorem afterStages? (stages : List Stage) (h : Settled code cells) :
    ∃ final, Text.afterStages? stages (ofCells cells) =
        some (ofCells final, List.replicate stages.length []) ∧
      Settled code final ∧
      (.collapse ∈ stages ∨ cells = Spacing.collapse code → final = Spacing.collapse code) := by
  induction stages generalizing cells with
  | nil => exact ⟨cells, rfl, h, fun hfinal => hfinal.resolve_left List.not_mem_nil⟩
  | cons stage stages ih =>
      cases stage with
      | strip =>
          obtain ⟨final, hrest, hsettled, hfinal⟩ := ih h
          refine ⟨final, afterStages?_cons h.step?_strip hrest, hsettled, ?_⟩
          rintro (hmem | hcells)
          · exact hfinal (.inl (by simpa using hmem))
          · exact hfinal (.inr hcells)
      | collapse =>
          obtain ⟨final, hrest, hsettled, hfinal⟩ := ih h.collapse
          exact ⟨final, afterStages?_cons h.step?_collapse hrest, hsettled,
            fun _ => hfinal (.inr rfl)⟩

end Settled

/-! ### Texts that are not settled yet -/

/-- Stripping settles a text, and it does not matter how it was spaced. -/
theorem settled_kept {cells cells' : List (Cell Int)}
    (h : Spacing.collapse cells' = Spacing.collapse cells) :
    Settled (Comment.strip cells).kept (Comment.strip cells').kept where
  opens := Comment.opensNowhere_kept cells'
  collapse_eq := by
    rw [← Comment.collapse_kept_collapse, h, Comment.collapse_kept_collapse]

/-- The same comment is not closed, however a text is spaced. -/
theorem unclosed_eq_of_collapse_eq {cells cells' : List (Cell Int)}
    (h : Spacing.collapse cells' = Spacing.collapse cells) :
    (Comment.strip cells').unclosed = (Comment.strip cells).unclosed := by
  rw [← Comment.unclosed_collapse, h, Comment.unclosed_collapse]

/-- What stages make of a text that is, up to spacing, the one with the given cells: the first
stripping settles it and makes the only report. -/
theorem exists_afterStages_of_collapse_eq {cells : List (Cell Int)} (stages : List Stage)
    {text : Text} (h : text.chars.length ≤ text.origins.length)
    (hcells : Spacing.collapse text.cells = Spacing.collapse cells) :
    ∃ final reports, afterStages? stages text = some (final, reports) ∧
      ([.strip, .collapse] <+ stages →
        final = ofCells (Spacing.collapse (Comment.strip cells).kept)) ∧
      (.strip ∈ stages → ∃ settled, final = ofCells settled ∧
        Settled (Comment.strip cells).kept settled) ∧
      ∀ before after, stages = before ++ .strip :: after → .strip ∉ before →
        reports = List.replicate before.length [] ++
          (Comment.strip cells).diagnostics :: List.replicate after.length [] := by
  induction stages generalizing text with
  | nil => exact ⟨text, [], rfl, by simp, by simp, by simp⟩
  | cons stage stages ih =>
      cases stage with
      | strip =>
          have hstep : Stage.strip.step? text = some
              (ofCells (Comment.strip text.cells).kept, (Comment.strip cells).diagnostics) := by
            rw [Stage.step?, strip?_of_length_le h, Option.map_some,
              Comment.Stripped.diagnostics, unclosed_eq_of_collapse_eq hcells]
            rfl
          obtain ⟨final, hrest, hsettled, hfinal⟩ := (settled_kept hcells).afterStages? stages
          refine ⟨ofCells final, _, afterStages?_cons hstep hrest, fun hsub => ?_,
            fun _ => ⟨final, rfl, hsettled⟩, fun before after heq hnot => ?_⟩
          · have hmem : .collapse ∈ stages := by
              rcases List.cons_sublist_cons'.mp hsub with hsub | ⟨-, hsub⟩
              · exact hsub.subset (by simp)
              · exact hsub.subset (List.mem_singleton_self _)
            rw [hfinal (.inl hmem)]
          · cases before with
            | nil =>
                obtain ⟨-, rfl⟩ := List.cons.inj heq
                rfl
            | cons first before =>
                obtain ⟨rfl, -⟩ := List.cons.inj heq
                exact absurd (List.mem_cons_self ..) hnot
      | collapse =>
          have hnext : Spacing.collapse (text.collapse).cells = Spacing.collapse cells := by
            rw [Text.collapse, cells_ofCells, collapse_collapse, hcells]
          obtain ⟨final, reports, hrest, hfinal, hsettled, hreports⟩ :=
            ih (Nat.le_of_eq (length_ofCells _)) hnext
          refine ⟨final, [] :: reports, afterStages?_cons rfl hrest, fun hsub => hfinal ?_,
            fun hmem => hsettled (by simpa using hmem), fun before after heq hnot => ?_⟩
          · rcases List.cons_sublist_cons'.mp hsub with hsub | ⟨habs, -⟩
            · exact hsub
            · exact absurd habs (by decide)
          · cases before with
            | nil => exact absurd (List.cons.inj heq).1 (by decide)
            | cons first before =>
                obtain ⟨rfl, rfl⟩ := List.cons.inj heq
                rw [hreports before after rfl fun hmem => hnot (List.mem_cons_of_mem _ hmem)]
                rfl

/-! ### Confluence -/

/-- **Stages are confluent.** In a text with an origin for each character, and perhaps more,
any sequence of stages succeeds. If it was collapsed after it was stripped, it comes out as if
it had been just stripped and then collapsed. If it was stripped at all, the first stripping
reports what stripping alone would report and no other stage reports anything, and lexing
yields the same as after just stripping and collapsing. -/
theorem exists_afterStages (text : Text) (h : text.chars.length ≤ text.origins.length) :
    ∃ stripped, text.strip? = some stripped ∧
      ∀ stages, ∃ final reports, afterStages? stages text = some (final, reports) ∧
        ([.strip, .collapse] <+ stages → final = stripped.text.collapse) ∧
        (.strip ∈ stages → reports.flatten = stripped.diagnostics) ∧
        (∀ before after, stages = before ++ .strip :: after → .strip ∉ before →
          reports = List.replicate before.length [] ++
            stripped.diagnostics :: List.replicate after.length []) ∧
        (.strip ∈ stages → ∀ lines, ∃ lexing,
          final.lexing? .standard lines = some lexing ∧
            stripped.text.collapse.lexing? .standard lines = some lexing) := by
  refine ⟨Comment.strip text.cells, strip?_of_length_le h, fun stages => ?_⟩
  have hcollapse : (Comment.strip text.cells).text.collapse =
      ofCells (Spacing.collapse (Comment.strip text.cells).kept) := collapse_ofCells _
  obtain ⟨final, reports, hstages, hfinal, hsettled, hreports⟩ :=
    @exists_afterStages_of_collapse_eq text.cells stages text h rfl
  rw [hcollapse]
  refine ⟨final, reports, hstages, hfinal, fun hmem => ?_, hreports, fun hmem lines => ?_⟩
  · obtain ⟨before, after, heq, hnot⟩ := List.eq_append_cons_of_mem hmem
    rw [hreports before after heq hnot]
    simp
  · obtain ⟨cells, rfl, hcells⟩ := hsettled hmem
    exact ⟨_, hcells.lexing? Lexicon.isSolid_standard lines, lexing?_ofCells ..⟩

/-- A text with an origin to spare, whose spacing is collapsed before its comments are stripped
and in between. -/
theorem exists_afterStages_of_open_comment :
    ∃ text stripped final reports,
      text = ⟨"a /* */  / c;/*".toList, (List.range 16).map Int.ofNat⟩ ∧
      text.chars.length ≤ text.origins.length ∧ text.strip? = some stripped ∧
      afterStages? [.collapse, .strip, .strip, .collapse, .strip] text = some (final, reports) ∧
      final = stripped.text.collapse ∧ reports = [[], stripped.diagnostics, [], [], []] ∧
      ∀ lines, final.lexing? .standard lines = stripped.text.collapse.lexing? .standard lines := by
  obtain ⟨stripped, hstrip, hstages⟩ :=
    exists_afterStages ⟨"a /* */  / c;/*".toList, (List.range 16).map Int.ofNat⟩ (by decide)
  obtain ⟨final, reports, hafter, hfinal, -, hreports, -⟩ :=
    hstages [.collapse, .strip, .strip, .collapse, .strip]
  have hfinal := hfinal (by decide)
  refine ⟨_, stripped, final, reports, rfl, by decide, hstrip, hafter, hfinal, ?_, fun lines => ?_⟩
  · exact hreports [.collapse] [.strip, .collapse, .strip] rfl (by decide)
  · rw [hfinal]

end Text

end CLex
