import Mathlib.Data.Prod.Lex
import CLex.Position

/-!
# The Order of Positions

Positions are ordered by line and then by column. In a source this is the order of the
offsets: what comes later is on a later line, or further on in the same line. So positions
can be compared instead of offsets, and different offsets have different positions.

## Main results

* `Position.lt_iff`: the order in terms of line and column.
* `Position.after_lt_after_append`: more text ends at a later position.
* `LineMap.locate_lt_locate`: later offsets have later positions.
-/

namespace CLex

/-! ### The order -/

namespace Position

/-- Line and column as a pair in lexicographic order. -/
def key (p : Position) : Int ×ₗ Int :=
  toLex (p.line, p.column)

theorem key_injective : Function.Injective key := by
  rintro ⟨l₁, c₁⟩ ⟨l₂, c₂⟩ h
  obtain ⟨rfl, rfl⟩ := Prod.mk.inj (toLex.injective h)
  rfl

/-- Positions are ordered by line, and within a line by column. -/
instance : LinearOrder Position :=
  LinearOrder.lift' key key_injective

theorem lt_iff {p q : Position} :
    p < q ↔ p.line < q.line ∨ p.line = q.line ∧ p.column < q.column :=
  Prod.Lex.toLex_lt_toLex

/-! ### Where texts end -/

/-- The last line of a text that goes on without a line feed. -/
private theorem lastLineLength_append {text more : List Char} (h : '\n' ∉ more) :
    lastLineLength (text ++ more) = more.length + lastLineLength text := by
  have hall : ∀ c ∈ more.reverse, (c != '\n') = true := by
    intro c hc
    rw [bne_iff_ne]
    rintro rfl
    exact h (List.mem_reverse.mp hc)
  rw [lastLineLength, List.reverse_append, List.takeWhile_append_of_pos hall, List.length_append,
    List.length_reverse]
  rfl

/-- More text ends at a later position. -/
theorem after_lt_after_append {text more : List Char} (h : more ≠ []) :
    after text < after (text ++ more) := by
  rw [lt_iff]
  simp only [after, List.count_append]
  by_cases hnl : '\n' ∈ more
  · have := List.count_pos_iff.mpr hnl
    exact .inl (by omega)
  · have hcount : more.count '\n' = 0 := List.count_eq_zero.mpr hnl
    have hlen := List.length_pos_iff.mpr h
    rw [lastLineLength_append hnl, hcount]
    exact .inr ⟨rfl, by omega⟩

end Position

/-! ### Where offsets stand -/

namespace LineMap

/-- Later offsets have later positions. -/
theorem locate_lt_locate {source : List Char} {i j : Int} (hi : 0 ≤ i) (hij : i < j)
    (hj : j ≤ source.length) : (ofList source).locate i < (ofList source).locate j := by
  obtain ⟨m, rfl⟩ := Int.eq_ofNat_of_zero_le hi
  obtain ⟨k, rfl⟩ : ∃ k : Nat, j = (m + (k + 1) : Nat) := ⟨(j - m).toNat - 1, by omega⟩
  have hm : (ofList source).clamp (m : Int) = m := by
    simp only [clamp, ofList]
    omega
  have hn : (ofList source).clamp ((m + (k + 1) : Nat) : Int) = m + (k + 1) := by
    simp only [clamp, ofList]
    omega
  have hmore : (source.drop m).take (k + 1) ≠ [] := by
    intro hnil
    have := congrArg List.length hnil
    simp only [List.length_take, List.length_drop, List.length_nil] at this
    omega
  rw [locate_ofList, locate_ofList, hm, hn, List.take_add]
  exact Position.after_lt_after_append hmore

end LineMap

end CLex
