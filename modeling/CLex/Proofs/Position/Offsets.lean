import Mathlib
import CLex.Proofs.Position.Order
import CLex.Proofs.Position.Starts

/-!
# Offsets and Positions

The position of an offset says how many line feeds come before it, and how many characters come
after the last of these. Both can be turned back: the line tells where the line starts, and the
column how far to go from there. Offsets outside of a source have the position of its nearest
end. Within the source, positions are in the order of their offsets, so that no two offsets have
the same position.

## Main definitions

* `LineMap.offsetAt?`: the offset of a position.

## Main results

* `LineMap.offsetAt?_locate`: a position gives its offset back.
* `LineMap.strictMonoOn_locate`: positions are in the order of their offsets.
* `LineMap.locate_exact`: line and column of an offset.
-/

namespace CLex

namespace LineMap

/-- The offset of a position: as far after the start of its line as its column says. There is
none if there are not as many lines. -/
def offsetAt? (lines : LineMap) (p : Position) : Option Int :=
  lines.starts[(p.line - 1).toNat]?.map fun (start : Nat) => start + p.column - 1

/-- The nearest offset within a source, in terms of its length. -/
theorem coe_clamp (source : List Char) (offset : Int) :
    ((ofList source).clamp offset : Int) = min (max offset 0) source.length := by
  simp only [clamp, ofList]
  omega

/-- The line of an offset is one of the lines of the source, and its column is not to the left
of it. -/
theorem locate_bounds (source : List Char) (offset : Int) :
    1 ≤ ((ofList source).locate offset).line ∧
      ((ofList source).locate offset).line ≤ (ofList source).starts.size ∧
      1 ≤ ((ofList source).locate offset).column := by
  obtain ⟨line, start, hstart, hle, hlocate⟩ := exists_start source offset
  obtain ⟨hline, -⟩ := Array.getElem?_eq_some_iff.mp hstart
  rw [hlocate]
  refine ⟨?_, ?_, ?_⟩
  · change 1 ≤ (line : Int) + 1
    omega
  · change (line : Int) + 1 ≤ (ofList source).starts.size
    omega
  · change 1 ≤ ((ofList source).clamp offset : Int) - start + 1
    omega

/-- A position gives back its offset, or the end of the source that is nearest to it. -/
theorem offsetAt?_locate (source : List Char) (offset : Int) :
    (ofList source).offsetAt? ((ofList source).locate offset) =
      some ((ofList source).clamp offset : Int) := by
  obtain ⟨line, start, hstart, -, hlocate⟩ := exists_start source offset
  have hindex : ((line : Int) + 1 - 1).toNat = line := by omega
  have hsum : (start : Int) + ((ofList source).clamp offset - start + 1) - 1 =
      (ofList source).clamp offset := by omega
  rw [offsetAt?, hlocate, hindex, hstart, Option.map_some, hsum]

/-- Within a source, positions are in the order of their offsets. -/
theorem strictMonoOn_locate (source : List Char) :
    StrictMonoOn (ofList source).locate (Set.Icc 0 (source.length : Int)) := by
  intro i hi j hj hij
  exact locate_lt_locate hi.1 hij hj.2

/-- **Positions are exact.** The position of any offset, moved to the nearest end of the source
if it is outside of it, tells the number of line feeds before it and the number of characters
after the last of these, both plus one. Its line is a line of the source, its column is positive,
and the two give the offset back. Within the source, later offsets have later positions, and
different offsets have different ones. -/
theorem locate_exact (source : String) :
    (∀ offset : Int, ∃ n : Nat, (n : Int) = min (max offset 0) source.length ∧
      ((ofString source).locate offset).line = (source.toList.take n).count '\n' + 1 ∧
      ((ofString source).locate offset).column =
        ((source.toList.take n).reverse.takeWhile (· != '\n')).length + 1 ∧
      1 ≤ ((ofString source).locate offset).line ∧
      ((ofString source).locate offset).line ≤ (ofString source).starts.size ∧
      1 ≤ ((ofString source).locate offset).column ∧
      (ofString source).offsetAt? ((ofString source).locate offset) = some (n : Int)) ∧
    StrictMonoOn (ofString source).locate (Set.Icc 0 (source.length : Int)) ∧
    Set.InjOn (ofString source).locate (Set.Icc 0 (source.length : Int)) := by
  have hmono := strictMonoOn_locate source.toList
  rw [String.length_toList] at hmono
  refine ⟨fun offset => ?_, hmono, hmono.injOn⟩
  have hclamp := coe_clamp source.toList offset
  have hafter := locate_ofList source.toList offset
  obtain ⟨hfirst, hlast, hcolumn⟩ := locate_bounds source.toList offset
  rw [String.length_toList] at hclamp
  refine ⟨_, hclamp, ?_, ?_, hfirst, hlast, hcolumn, offsetAt?_locate source.toList offset⟩
  · rw [ofString, hafter, Position.after]
  · rw [ofString, hafter, Position.after, Position.lastLineLength]

end LineMap

end CLex
