/-!
# Places in a Text

A place is a signed index into a text: `0` is the first character, and `-1` the last one. A
place is moved by signed distances and may leave the text at either end, where there is
nothing to be found.

## Main definitions

* `Place`: a text and an index, with `isAtEnd`, `look`, `nextTwo` and `move`.
* `Finding`: what is found at an index.
* `clampBound`: where a slice of a text starts or stops.
* `Place.IsBefore`: whether a place stands before the rest of its text.

## Main results

* `Place.IsBefore.isAtEnd_iff`, `Place.IsBefore.look_eq`, `Place.IsBefore.nextTwo_eq`: what is
  found from such a place on.
-/

namespace CLex.Text

/-- A place in a text. -/
structure Place where
  /-- The text. -/
  chars : List Char
  /-- The signed index. -/
  index : Int := 0
deriving DecidableEq, Repr

/-- What is found at a signed index. -/
inductive Finding where
  /-- A character of the text. -/
  | char (c : Char)
  /-- The index is at the end of the text or beyond. -/
  | pastEnd
  /-- The index counts back beyond the start of the text. -/
  | beforeStart
deriving DecidableEq, Repr

/-- What is found at a signed index of a text. -/
def findAt (chars : List Char) (index : Int) : Finding :=
  let index := if index < 0 ∧ -index ≤ chars.length then index + chars.length else index
  if index < 0 then .beforeStart
  else match chars[index.toNat]? with
    | some c => .char c
    | none => .pastEnd

/-- Where a slice of a text of the given length starts or stops: a negative bound counts from
the end, and a bound outside of the text is moved to its nearest end. -/
def clampBound (length : Nat) (bound : Int) : Nat :=
  min (if bound < 0 then bound + length else bound).toNat length

namespace Place

/-- The start of a source. -/
def ofString (source : String) : Place where
  chars := source.toList

/-- Whether the place is at the end of the text or beyond. -/
def isAtEnd (place : Place) : Bool :=
  place.chars.length ≤ place.index

/-- What is found at a distance from the place. -/
def look (place : Place) (distance : Int) : Finding :=
  findAt place.chars (place.index + distance)

/-- The slice of two characters from the place on. Each bound is taken for itself, so that
the slice is empty where the index counts back to the last character. -/
def nextTwo (place : Place) : String :=
  let start := clampBound place.chars.length place.index
  let stop := clampBound place.chars.length (place.index + 2)
  String.ofList ((place.chars.drop start).take (stop - start))

/-- The place moved by a distance. -/
def move (place : Place) (distance : Int) : Place :=
  { place with index := place.index + distance }

/-! ### Places within a text -/

/-- Whether a place stands before the given characters, which are the rest of its text. -/
def IsBefore (place : Place) (rest : List Char) : Prop :=
  ∃ passed, place.chars = passed ++ rest ∧ place.index = passed.length

namespace IsBefore

variable {place : Place} {rest : List Char} (h : place.IsBefore rest)

include h

/-- At the end there is no rest. -/
theorem isAtEnd_iff : place.isAtEnd = true ↔ rest = [] := by
  obtain ⟨passed, hchars, hindex⟩ := h
  rw [isAtEnd, decide_eq_true_iff, hchars, hindex, List.length_append, ← List.length_eq_zero_iff]
  omega

/-- The rest is found character by character, and nothing after it. -/
theorem look_eq (n : Nat) :
    place.look n = match rest[n]? with
      | some c => .char c
      | none => .pastEnd := by
  obtain ⟨passed, hchars, hindex⟩ := h
  have hpos : ¬ (((passed.length + n : Nat) : Int) < 0) := by omega
  have hfound : (passed ++ rest)[passed.length + n]? = rest[n]? := by
    rw [List.getElem?_append_right (Nat.le_add_right _ _), Nat.add_sub_cancel_left]
  rw [look, hchars, hindex, ← Int.natCast_add, findAt]
  simp only [hpos, false_and, if_false, Int.toNat_natCast, hfound]

/-- The slice holds the next two characters, or as many as there are. -/
theorem nextTwo_eq : place.nextTwo = String.ofList (rest.take 2) := by
  obtain ⟨passed, hchars, hindex⟩ := h
  have hstart : clampBound place.chars.length place.index = passed.length := by
    simp only [clampBound, hchars, hindex, List.length_append]
    omega
  have hstop : clampBound place.chars.length (place.index + 2) - passed.length =
      min 2 rest.length := by
    simp only [clampBound, hchars, hindex, List.length_append]
    omega
  rw [nextTwo, hstart, hstop, hchars, List.drop_left, ← List.take_eq_take_min]

end IsBefore

end Place

end CLex.Text
