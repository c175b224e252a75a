import CLex.Analysis
import CLex.Proofs.Comment.Grammar
import CLex.Proofs.Spacing.Origins

/-!
# Origins Through the Stages

The cells that an analysis works on come from the source: the code is a part of the numbered
source, and in normal spacing it is still that, but for spaces that stand for blanks. So the
origins increase at every stage, and none of them lies outside the source. A block comment
that is not closed starts after all code.

## Main results

* `Stages.kept_sublist`: the code is part of the numbered source.
* `Stages.traces_stripped`, `Stages.traces_normalized`: each character at its origin.
* `Stages.exists_of_unclosed`: where a block comment that is not closed starts.
-/

open scoped List

namespace CLex

/-! ### Traced texts -/

/-- Whether every character of a text can be traced to a source: it has an origin within the
source, later characters have later origins, and the character of the source is the same, or
a blank for which a space stands. -/
structure Text.Traces (source : String) (text : Text) : Prop where
  /-- There is one origin for each character. -/
  length_eq : text.origins.length = text.chars.length
  /-- Origins increase. -/
  increasing : text.origins.Pairwise (· < ·)
  /-- The source has this character at the origin, or a blank if this is a space. -/
  traced : ∀ x ∈ text.cells, ∃ n : Nat, x.2 = n ∧ ∃ c, source.toList[n]? = some c ∧
    (x.1 = c ∨ x.1 = ' ' ∧ isBlank c = true)

/-- Offsets increase in any part of a numbered text. -/
theorem pairwise_of_sublist_numbered {chars : List Char} {cells : List (Cell Int)}
    (h : cells <+ numbered chars) : cells.Pairwise (fun x y => x.2 < y.2) :=
  (pairwise_numbered chars).sublist h

namespace Stages

variable (source : String)

/-! ### The code -/

/-- The code is part of the numbered source. -/
theorem kept_sublist : (ofSource source).stripped.kept <+ numbered source.toList :=
  (Comment.composed_pieces (numbered source.toList)).code_sublist

/-- A character of code stands in the source at its offset. -/
theorem getElem?_of_mem_kept {x : Cell Int} (h : x ∈ (ofSource source).stripped.kept) :
    ∃ n : Nat, x.2 = n ∧ source.toList[n]? = some x.1 :=
  mem_numbered_iff.mp ((kept_sublist source).subset h)

/-- The code can be traced to the source. -/
theorem traces_stripped : (ofSource source).stripped.text.Traces source where
  length_eq := by simp [Comment.Stripped.text, Text.ofCells, charsOf]
  increasing := List.pairwise_map.mpr (pairwise_of_sublist_numbered (kept_sublist source))
  traced := by
    intro x hx
    rw [Comment.Stripped.text, Text.cells_ofCells] at hx
    obtain ⟨n, hn, hc⟩ := getElem?_of_mem_kept source hx
    exact ⟨n, hn, x.1, hc, .inl rfl⟩

/-! ### Normal spacing -/

/-- Offsets increase in the code in normal spacing. -/
theorem pairwise_normalized : (ofSource source).normalized.Pairwise (fun x y => x.2 < y.2) := by
  have hkept := List.pairwise_map.mpr (pairwise_of_sublist_numbered (kept_sublist source))
  exact List.pairwise_map.mp (hkept.sublist (Spacing.map_snd_collapseAfter_sublist none _))

/-- What is not whitespace in the code in normal spacing is code as it stands. -/
theorem filter_normalized :
    (ofSource source).normalized.filter (fun x => !isWhitespace x.1) =
      (ofSource source).stripped.kept.filter (fun x => !isWhitespace x.1) :=
  Spacing.filter_collapseAfter none _

/-- A cell that does not hold whitespace is a cell of the code. -/
theorem mem_kept_of_mem_normalized {x : Cell Int} (h : x ∈ (ofSource source).normalized)
    (hx : isWhitespace x.1 = false) : x ∈ (ofSource source).stripped.kept := by
  have hmem : x ∈ (ofSource source).normalized.filter (fun x => !isWhitespace x.1) :=
    List.mem_filter.mpr ⟨h, by simp [hx]⟩
  rw [filter_normalized] at hmem
  exact (List.mem_filter.mp hmem).1

/-- The characters that are not whitespace are those of the code. -/
theorem filter_charsOf_normalized :
    (charsOf (ofSource source).normalized).filter (fun c => !isWhitespace c) =
      (charsOf (ofSource source).stripped.kept).filter (fun c => !isWhitespace c) := by
  rw [charsOf, charsOf, List.filter_map, List.filter_map]
  exact congrArg (List.map (·.1)) (filter_normalized source)

/-- A cell of the code in normal spacing comes from one of the code. -/
theorem exists_of_mem_normalized {x : Cell Int} (h : x ∈ (ofSource source).normalized) :
    ∃ n : Nat, x.2 = n ∧ ∃ c, source.toList[n]? = some c ∧
      (x.1 = c ∨ x.1 = ' ' ∧ isBlank c = true) := by
  obtain ⟨y, hy, hlabel, hchar⟩ := Spacing.exists_of_mem_collapseAfter h
  obtain ⟨n, hn, hc⟩ := getElem?_of_mem_kept source hy
  exact ⟨n, hlabel.trans hn, y.1, hc, hchar⟩

/-- Offsets increase as natural numbers, too, since none is negative. -/
theorem pairwise_toNat_normalized :
    (ofSource source).normalized.Pairwise (fun x y => x.2.toNat < y.2.toNat) := by
  refine (pairwise_normalized source).imp_of_mem fun {x y} hx _ hxy => ?_
  obtain ⟨m, hm, -⟩ := exists_of_mem_normalized source hx
  omega

/-- The code in normal spacing can be traced to the source. -/
theorem traces_normalized : (ofSource source).stripped.text.collapse.Traces source := by
  rw [Comment.Stripped.text, Text.collapse_ofCells]
  refine ⟨by simp [Text.ofCells, charsOf], ?_, fun x hx => ?_⟩
  · exact List.pairwise_map.mpr (pairwise_normalized source)
  · rw [Text.cells_ofCells] at hx
    exact exists_of_mem_normalized source hx

/-! ### A block comment that is not closed -/

/-- A block comment that is not closed starts with a slash and a star in the source, and after
all code. -/
theorem exists_of_unclosed {offset : Int}
    (h : (ofSource source).stripped.unclosed = some offset) :
    ∃ n : Nat, offset = n ∧ (source.toList.drop n).take 2 = ['/', '*'] ∧
      ∀ x ∈ (ofSource source).stripped.kept, x.2 < offset := by
  have hcomposed := Comment.composed_pieces (numbered source.toList)
  obtain ⟨inner, hmem⟩ := hcomposed.findSome?_unclosed?_eq_some_iff.mp h
  obtain ⟨before, b, body, hcells, hcode⟩ := hcomposed.exists_of_unclosed hmem
  obtain ⟨hoffset, hchars⟩ := eq_of_numbered_eq_append hcells
  refine ⟨before.length, hoffset, ?_, fun x hx => ?_⟩
  · rw [hchars, List.drop_left' (by simp [charsOf])]
    rfl
  · have hpairwise := pairwise_numbered source.toList
    rw [hcells, List.pairwise_append] at hpairwise
    exact hpairwise.2.2 x (hcode.subset hx) _ (List.mem_cons_self ..)

end Stages

end CLex
