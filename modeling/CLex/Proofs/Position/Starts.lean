import CLex.Position

/-!
# The Line of an Offset

The position of an offset is looked up in the list of line starts, at an index that a search
has found. The list starts with zero, so that the search always finds something and the look-up
never fails: there is a start at that index, no later than the offset.

## Main results

* `LineMap.exists_start`: the line start that is looked up.
-/

namespace CLex

namespace LineMap

/-- The first line starts no later than any offset, so that the search passes it. -/
theorem one_le_upperBound_starts (source : List Char) (n : Nat) :
    1 ≤ upperBound (ofList source).starts n := by
  rw [upperBound_starts]
  exact Nat.le_add_left 1 _

/-- **Every look-up succeeds.** The position of an offset is that of a line start which is in
the list, and which comes no later than the offset. -/
theorem exists_start (source : List Char) (offset : Int) :
    ∃ line start : Nat, (ofList source).starts[line]? = some start ∧
      start ≤ (ofList source).clamp offset ∧
      (ofList source).locate offset =
        { line := line + 1, column := (ofList source).clamp offset - start + 1 } := by
  have hsorted := (pairwise_starts source).imp Nat.le_of_lt
  have hpos := one_le_upperBound_starts source ((ofList source).clamp offset)
  obtain ⟨hle, hbelow, -⟩ := upperBoundIn_splits (x := (ofList source).clamp offset) hsorted
    (Nat.le_refl _) (Nat.zero_le _) (fun _ _ h => absurd h (Nat.not_lt_zero _))
    (fun i h h' => absurd h' (Nat.not_le_of_lt h))
  rw [← upperBound] at hle hbelow
  generalize hline : upperBound (ofList source).starts ((ofList source).clamp offset) = found
    at hpos hle hbelow
  have hlt : found - 1 < (ofList source).starts.size := by omega
  refine ⟨found - 1, (ofList source).starts[found - 1], Array.getElem?_eq_getElem hlt,
    hbelow _ hlt (by omega), ?_⟩
  rw [locate, locateWithin, hline, Array.getD_eq_getD_getElem?, Array.getElem?_eq_getElem hlt,
    Option.getD_some, Position.mk.injEq]
  exact ⟨by omega, rfl⟩

end LineMap

end CLex
