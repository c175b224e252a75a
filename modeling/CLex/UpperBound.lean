/-!
# Binary Search in a Sorted Array

How many entries of a sorted array do not exceed a bound, by halving the range in question.

## Main results

* `upperBound_eq_countP`: on a sorted array the search counts the entries that are at most
  the bound.
-/

namespace CLex

/-- The search for the first entry beyond `x` among those from `lo` up to `hi`: halve the
range until it is empty. -/
def upperBoundIn (a : Array Nat) (x lo hi : Nat) (h : hi ≤ a.size) : Nat :=
  if hlt : lo < hi then
    have hmid : (lo + hi) / 2 < a.size := by omega
    if x < a[(lo + hi) / 2] then upperBoundIn a x lo ((lo + hi) / 2) (by omega)
    else upperBoundIn a x ((lo + hi) / 2 + 1) hi h
  else lo
termination_by hi - lo

/-- The number of entries of a sorted array that are at most `x`. -/
def upperBound (a : Array Nat) (x : Nat) : Nat :=
  upperBoundIn a x 0 a.size (Nat.le_refl _)

/-! ### What the search finds -/

/-- The entries of a sorted array do not decrease with the index. -/
private theorem getElem_le_getElem {a : Array Nat} (hs : a.toList.Pairwise (· ≤ ·)) {i j : Nat}
    (hij : i ≤ j) (hj : j < a.size) : a[i] ≤ a[j] := by
  rcases Nat.lt_or_eq_of_le hij with hlt | rfl
  · have := List.pairwise_iff_getElem.1 hs i j (by simp; omega) (by simpa using hj) hlt
    rwa [Array.getElem_toList, Array.getElem_toList] at this
  · exact Nat.le_refl _

/-- The entries below the answer are at most `x`, the others beyond it, if that holds below
`lo` and from `hi` on before the search. -/
theorem upperBoundIn_splits {a : Array Nat} {x : Nat}
    (hs : a.toList.Pairwise (· ≤ ·)) {lo hi : Nat} (h : hi ≤ a.size) (hle : lo ≤ hi)
    (below : ∀ i (hi : i < a.size), i < lo → a[i] ≤ x)
    (above : ∀ i (hi' : i < a.size), hi ≤ i → x < a[i]) :
    upperBoundIn a x lo hi h ≤ a.size ∧
      (∀ i (hi' : i < a.size), i < upperBoundIn a x lo hi h → a[i] ≤ x) ∧
      (∀ i (hi' : i < a.size), upperBoundIn a x lo hi h ≤ i → x < a[i]) := by
  fun_induction upperBoundIn a x lo hi h with
  | case1 lo hi h hlt hmid hx ih =>
    refine ih (by omega) below fun i hi' hle' => ?_
    exact Nat.lt_of_lt_of_le hx (getElem_le_getElem hs hle' hi')
  | case2 lo hi h hlt hmid hx ih =>
    refine ih (by omega) (fun i hi' hlt' => ?_) above
    exact Nat.le_trans (getElem_le_getElem hs (by omega) (by omega)) (Nat.le_of_not_lt hx)
  | case3 lo hi h hlt =>
    have : lo = hi := by omega
    subst this
    exact ⟨h, below, above⟩

/-- A list whose first `n` entries have a property, and no other entry has it, counts `n`. -/
private theorem countP_eq_of_splits {p : Nat → Bool} {l : List Nat} {n : Nat}
    (hn : n ≤ l.length) (below : ∀ i (hi : i < l.length), i < n → p l[i] = true)
    (above : ∀ i (hi : i < l.length), n ≤ i → p l[i] = false) : l.countP p = n := by
  rw [← List.take_append_drop n l, List.countP_append]
  have htake : (l.take n).countP p = n := by
    rw [List.countP_eq_length.2, List.length_take, Nat.min_eq_left hn]
    intro y hy
    obtain ⟨i, hi, rfl⟩ := List.mem_iff_getElem.1 hy
    rw [List.length_take] at hi
    rw [List.getElem_take]
    exact below i (by omega) (by omega)
  have hdrop : (l.drop n).countP p = 0 := by
    rw [List.countP_eq_zero]
    intro y hy
    obtain ⟨i, hi, rfl⟩ := List.mem_iff_getElem.1 hy
    rw [List.length_drop] at hi
    rw [List.getElem_drop, above (n + i) (by omega) (by omega)]
    simp
  rw [htake, hdrop, Nat.add_zero]

/-- On a sorted array the search counts the entries that are at most the bound. -/
theorem upperBound_eq_countP {a : Array Nat} (hs : a.toList.Pairwise (· ≤ ·)) (x : Nat) :
    upperBound a x = a.toList.countP (decide <| · ≤ x) := by
  obtain ⟨hle, below, above⟩ := upperBoundIn_splits hs (x := x) (Nat.le_refl a.size)
    (Nat.zero_le _) (fun _ _ h => absurd h (Nat.not_lt_zero _)) (fun i h h' => by omega)
  refine (countP_eq_of_splits (l := a.toList) hle (fun i hi h => ?_) fun i hi h => ?_).symm
  · simpa using below i (by simpa using hi) h
  · simpa using above i (by simpa using hi) h

end CLex
