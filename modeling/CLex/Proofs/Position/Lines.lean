import CLex.Position

/-!
# Positions on Later Lines

Where a text stands under another one, on the lines after it, all its positions are as many
lines further down, and the columns are the same.

## Main results

* `Position.after_append_newline`: where the lower text ends.
* `LineMap.locate_append_left`, `LineMap.locate_append_newline`: the positions of offsets in the
  upper and in the lower text.
-/

namespace CLex

/-- The position in the same column some lines further down. -/
def Position.down (lines : Nat) (p : Position) : Position :=
  { p with line := p.line + lines }

/-- A text that ends with a line of its own ends in the column where this line does. -/
theorem Position.lastLineLength_append_newline (upper lower : List Char) :
    lastLineLength (upper ++ '\n' :: lower) = lastLineLength lower := by
  have hreverse : (upper ++ '\n' :: lower).reverse = lower.reverse ++ '\n' :: upper.reverse := by
    simp
  rw [lastLineLength, hreverse, List.takeWhile_append]
  by_cases hall : (lower.reverse.takeWhile (· != '\n')).length = lower.reverse.length
  · rw [if_pos hall, List.takeWhile_cons_of_neg (by simp), List.append_nil, lastLineLength, hall]
  · rw [if_neg hall, lastLineLength]

/-- Under another text a text ends as many lines further down. -/
theorem Position.after_append_newline (upper lower : List Char) :
    after (upper ++ '\n' :: lower) = (after lower).down (upper.count '\n' + 1) := by
  simp only [after, down, lastLineLength_append_newline, List.count_append, List.count_cons_self,
    Position.mk.injEq, and_true]
  omega

namespace LineMap

/-- The position of what follows a text is where the text ends. -/
theorem locate_length_append (before rest : List Char) :
    (ofList (before ++ rest)).locate before.length = Position.after before := by
  have hclamp : (ofList (before ++ rest)).clamp before.length = before.length := by
    simp only [clamp, ofList, List.length_append]
    omega
  rw [locate_ofList, hclamp, List.take_left]

/-- What follows a text does not change the positions in it. -/
theorem locate_append_left (upper rest : List Char) {offset : Int} (h : offset ≤ upper.length) :
    (ofList (upper ++ rest)).locate offset = (ofList upper).locate offset := by
  have hclamp : (ofList (upper ++ rest)).clamp offset = (ofList upper).clamp offset := by
    simp only [clamp, ofList, List.length_append]
    omega
  have hle : (ofList upper).clamp offset ≤ upper.length := Nat.min_le_right ..
  rw [locate_ofList, locate_ofList, hclamp, List.take_append_of_le_length hle]

/-- Under another text all positions in a text are as many lines further down. -/
theorem locate_append_newline (upper lower : List Char) {offset : Int} (h : 0 ≤ offset) :
    (ofList (upper ++ '\n' :: lower)).locate (offset + (upper.length + 1)) =
      ((ofList lower).locate offset).down (upper.count '\n' + 1) := by
  have hclamp : (ofList (upper ++ '\n' :: lower)).clamp (offset + (upper.length + 1)) =
      upper.length + ((ofList lower).clamp offset + 1) := by
    simp only [clamp, ofList, List.length_append, List.length_cons]
    omega
  rw [locate_ofList, locate_ofList, hclamp, List.take_length_add_append, List.take_succ_cons,
    Position.after_append_newline]

end LineMap

end CLex
