import CLex.Proofs.Analysis.Sighting
import CLex.Proofs.Position.Starts

/-!
# The First Problem

The problems of a source come in the order of their offsets: first those of the code, from left
to right, and then at most one block comment that is not closed. The strict analysis gives up
with the first of them, which is the one with the least offset. Without problems it is no
different from the other one, which never fails.

## Main definitions

* `Diagnostic.InOrder`: diagnostics in the order of their offsets.

## Main results

* `Analysis.strict_eq_error_iff`, `Analysis.strict_eq_ok_iff`: when the strict analysis fails.
* `Analysis.inOrder_diagnostics`: the order of the problems of a source.
* `Analysis.exists_stages_ofSource`: what is reported of a source, and what comes first.
-/

namespace CLex

/-! ### Diagnostics in order -/

/-- Whether all diagnostics have an offset, and each has a greater one than those before it. -/
def Diagnostic.InOrder (diagnostics : List Diagnostic) : Prop :=
  ∃ offsets : List Int, diagnostics.map (·.offset) = offsets.map some ∧
    offsets.Pairwise (· < ·)

/-- The first of several diagnostics in order has the least offset. -/
theorem Diagnostic.InOrder.le_of_head? {diagnostics : List Diagnostic}
    (h : InOrder diagnostics) {first : Diagnostic} (hfirst : diagnostics.head? = some first) :
    ∃ n, first.offset = some n ∧ ∀ d ∈ diagnostics, ∃ m, d.offset = some m ∧ n ≤ m := by
  obtain ⟨offsets, hoffsets, hordered⟩ := h
  cases diagnostics with
  | nil => simp at hfirst
  | cons d rest =>
      obtain rfl : d = first := by simpa using hfirst
      cases offsets with
      | nil => simp at hoffsets
      | cons n offsets =>
          rw [List.map_cons, List.map_cons, List.cons.injEq] at hoffsets
          obtain ⟨hd, hrest⟩ := hoffsets
          refine ⟨n, hd, List.forall_mem_cons.mpr ⟨⟨n, hd, Int.le_refl n⟩, fun e he => ?_⟩⟩
          have hmem : e.offset ∈ offsets.map some := hrest ▸ List.mem_map_of_mem he
          obtain ⟨m, hm, he⟩ := List.mem_map.mp hmem
          exact ⟨m, he.symm, Int.le_of_lt (List.rel_of_pairwise_cons hordered hm)⟩

/-- At most one comment is not closed. -/
theorem Comment.Stripped.diagnostics_eq_nil_or (stripped : Comment.Stripped Int) :
    stripped.diagnostics = [] ∨
      ∃ offset, stripped.diagnostics = [.unterminatedComment offset] := by
  rw [diagnostics]
  cases stripped.unclosed with
  | none => exact .inl rfl
  | some offset => exact .inr ⟨offset, rfl⟩

namespace Analysis

/-! ### The strict analysis -/

/-- The strict analysis fails with the first problem. -/
theorem strict_eq_error_iff {analysis : Analysis} {d : Diagnostic} :
    analysis.strict = .error d ↔ analysis.diagnostics.head? = some d := by
  rw [strict]
  cases analysis.diagnostics with
  | nil => simp
  | cons first rest => simp

/-- The strict analysis changes nothing where there are no problems. -/
theorem strict_eq_ok_iff {analysis a : Analysis} :
    analysis.strict = .ok a ↔ analysis.diagnostics = [] ∧ a = analysis := by
  rw [strict]
  cases analysis.diagnostics with
  | nil => simp [eq_comm]
  | cons first rest => simp

/-! ### The problems of a source -/

/-- Every problem of a source has an offset. -/
theorem exists_offset {source : String} {d : Diagnostic}
    (hd : d ∈ (ofSource source).diagnostics) : ∃ n : Nat, d.offset = some (n : Int) := by
  obtain ⟨found, hfound⟩ := exists_sighted source
  rw [diagnostics_ofSource, List.mem_append] at hd
  rcases hd with hd | hd
  · obtain ⟨n, hn, -⟩ := hfound.exists_offset hd
    exact ⟨n, hn⟩
  · have hmem : d ∈ (ofSource source).diagnostics := by
      rw [diagnostics_ofSource]
      exact List.mem_append_right _ hd
    obtain ⟨n, hn, -⟩ := exists_of_unterminatedComment hmem (Stages.cause_of_mem_located hd)
    exact ⟨n, hn⟩

/-- The problems of a source come in the order of their offsets. -/
theorem inOrder_diagnostics (source : String) :
    Diagnostic.InOrder (ofSource source).diagnostics := by
  refine ⟨(ofSource source).diagnostics.map (·.offset.getD 0), ?_, ?_⟩
  · rw [List.map_map]
    refine List.map_congr_left fun d hd => ?_
    obtain ⟨n, hn⟩ := exists_offset hd
    rw [Function.comp_apply, hn, Option.getD_some]
  · rw [diagnostics_ofSource]
    exact List.pairwise_map.mpr (Stages.pairwise_offset source)

/-! ### What is reported -/

/-- An analysis is put together from its stages: the texts between them, what lexing yields, and
the problems of the code before a comment that is not closed. -/
theorem ofSource_eq (source : String) :
    ofSource source =
      { source
        stripped := (Stages.ofSource source).stripped.text.content
        normalized := (Stages.ofSource source).stripped.text.collapse.content
        tokens := (Stages.ofSource source).lexed.tokens
        diagnostics := (Stages.ofSource source).lexed.diagnostics ++
          (Stages.ofSource source).stripped.diagnostics.map (·.locate (.ofString source))
        breaks := (Stages.ofSource source).lexed.breaks.map Int.ofNat
        statistics := .ofTokens (Stages.ofSource source).lexed.tokens } := by
  rw [← diagnostics_ofSource, Comment.Stripped.text, Text.collapse_ofCells]
  rfl

/-- A source can be stripped of its comments. -/
theorem strip?_ofString (source : String) :
    (Text.ofString source).strip? = some (Stages.ofSource source).stripped := by
  rw [Text.ofString_eq_ofCells, Text.strip?_ofCells]
  rfl

/-- What is left of a source can be lexed. -/
theorem lexing?_collapse_ofSource (source : String) :
    (Stages.ofSource source).stripped.text.collapse.lexing? .standard (.ofString source) =
      some (Stages.ofSource source).lexed := by
  rw [Comment.Stripped.text, Text.collapse_ofCells, Text.lexing?_ofCells]
  rfl

/-- **Problems are reported in order, and the strict analysis reports the first one.** Every
stage succeeds on a source, and so does the look-up of every position. The analysis reports what
the stages yield: the problems of the code in their order, and after them a block comment that is
not closed, if there is one. All of them have offsets, which increase, so that sorting them
changes nothing. The strict analysis fails just if there is a problem, and then with the first
one, whose offset is the least; otherwise it is the same analysis. -/
theorem exists_stages_ofSource (source : String) :
    ∃ stripped lexing,
      (Text.ofString source).strip? = some stripped ∧
      stripped.text.collapse.lexing? .standard (.ofString source) = some lexing ∧
      (∀ offset, ∃ line start : Nat, (LineMap.ofString source).starts[line]? = some start ∧
        start ≤ (LineMap.ofString source).clamp offset ∧
        (LineMap.ofString source).locate offset =
          { line := line + 1, column := (LineMap.ofString source).clamp offset - start + 1 }) ∧
      ofSource source =
        { source
          stripped := stripped.text.content
          normalized := stripped.text.collapse.content
          tokens := lexing.tokens
          diagnostics := lexing.diagnostics ++
            stripped.diagnostics.map (·.locate (.ofString source))
          breaks := lexing.breaks.map Int.ofNat
          statistics := .ofTokens lexing.tokens } ∧
      (∀ d ∈ lexing.diagnostics, d.cause.isUnrecognized = true) ∧
      (stripped.diagnostics = [] ∨
        ∃ offset, stripped.diagnostics = [.unterminatedComment offset]) ∧
      Diagnostic.InOrder (ofSource source).diagnostics ∧
      (∀ first, (ofSource source).strict = .error first ↔
        (ofSource source).diagnostics.head? = some first) ∧
      (∀ first, (ofSource source).strict = .error first →
        ∃ n, first.offset = some n ∧
          ∀ d ∈ (ofSource source).diagnostics, ∃ m, d.offset = some m ∧ n ≤ m) ∧
      ∀ a, (ofSource source).strict = .ok a ↔
        (ofSource source).diagnostics = [] ∧ a = ofSource source := by
  obtain ⟨found, hfound⟩ := exists_sighted source
  have hordered := inOrder_diagnostics source
  exact ⟨(Stages.ofSource source).stripped, (Stages.ofSource source).lexed,
    strip?_ofString source, lexing?_collapse_ofSource source,
    LineMap.exists_start source.toList, ofSource_eq source,
    fun d hd => hfound.isUnrecognized_of_mem hd, Comment.Stripped.diagnostics_eq_nil_or _,
    hordered, fun first => strict_eq_error_iff,
    fun first hfirst => hordered.le_of_head? (strict_eq_error_iff.mp hfirst),
    fun a => strict_eq_ok_iff⟩

end Analysis

end CLex
