/-!
# Longest Runs and Pairs

A **longest run** at the start of a list consists of elements with a property and is followed
by the end of the list or by an element without it. There is one such run, which is what
`List.takeWhile` takes and `List.dropWhile` leaves.

A **pair** of elements stands in a list where the second comes directly after the first.
Whether it does can be told from each element and the head of what follows it.
-/

open scoped List

namespace CLex

variable {α β : Type}

/-- Whether `run` is the longest run of elements with a property at the start of
`run ++ rest`. -/
def IsLongestRun (p : α → Bool) (run rest : List α) : Prop :=
  (∀ x ∈ run, p x = true) ∧ ∀ x ∈ rest.head?, p x = false

namespace IsLongestRun

variable {p : α → Bool} {run rest : List α}

/-- Every list starts with a longest run. -/
theorem takeWhile_dropWhile (p : α → Bool) (l : List α) :
    IsLongestRun p (l.takeWhile p) (l.dropWhile p) := by
  refine ⟨List.all_eq_true.mp List.all_takeWhile, fun x hx => ?_⟩
  have := List.head?_dropWhile_not p l
  rwa [Option.mem_def.mp hx] at this

/-- The longest run is what is taken. -/
theorem takeWhile_eq (h : IsLongestRun p run rest) : (run ++ rest).takeWhile p = run := by
  rw [List.takeWhile_append_of_pos h.1]
  cases rest with
  | nil => simp
  | cons x xs => simp [h.2 x rfl]

/-- What follows the longest run is left. -/
theorem dropWhile_eq (h : IsLongestRun p run rest) : (run ++ rest).dropWhile p = rest := by
  rw [List.dropWhile_append_of_pos h.1]
  cases rest with
  | nil => rfl
  | cons x xs => simp [h.2 x rfl]

/-- A run stays the longest one when what is added would not have continued it. -/
theorem append (h : IsLongestRun p run rest) {more : List α}
    (hmore : ∀ x ∈ more.head?, p x = false) : IsLongestRun p run (rest ++ more) := by
  refine ⟨h.1, fun x hx => ?_⟩
  cases rest with
  | nil => exact hmore x hx
  | cons y ys => exact h.2 x hx

/-- What comes before the first of certain elements. -/
theorem of_notMem [BEq α] [LawfulBEq α] {x : α} (h : x ∉ run) :
    IsLongestRun (· != x) run (x :: rest) :=
  ⟨fun _ hy => bne_iff_ne.mpr fun heq => h (heq ▸ hy), by simp⟩

end IsLongestRun

/-- The longest run of a mapped list. -/
theorem isLongestRun_map {p : β → Bool} {f : α → β} {run rest : List α} :
    IsLongestRun p (run.map f) (rest.map f) ↔ IsLongestRun (fun x => p (f x)) run rest := by
  simp [IsLongestRun]

/-! ### Pairs -/

/-- Two elements stand at the start of a list if they are its first two. -/
theorem pair_prefix_cons_iff {a b x : α} {l : List α} :
    [a, b] <+: x :: l ↔ x = a ∧ l.head? = some b := by
  rw [List.cons_prefix_cons]
  refine and_congr eq_comm ?_
  cases l with
  | nil => simp
  | cons y ys => simp [List.cons_prefix_cons, eq_comm]

/-- Two elements stand together in a list at its start or further on. -/
theorem pair_infix_cons_iff {a b x : α} {l : List α} :
    [a, b] <:+: x :: l ↔ (x = a ∧ l.head? = some b) ∨ [a, b] <:+: l := by
  rw [List.infix_cons_iff, pair_prefix_cons_iff]

/-- Two elements stand together in one of two parts of a list, or at the seam. -/
theorem pair_infix_append {a b : α} {xs ys : List α} (h : [a, b] <:+: xs ++ ys) :
    [a, b] <:+: xs ∨ [a, b] <:+: ys ∨ ys.head? = some b := by
  induction xs with
  | nil => exact .inr (.inl h)
  | cons x xs ih =>
      rw [List.cons_append, pair_infix_cons_iff] at h
      rw [pair_infix_cons_iff]
      rcases h with ⟨rfl, hhead⟩ | h
      · cases xs with
        | nil => exact .inr (.inr hhead)
        | cons y ys => exact .inl (.inl ⟨rfl, hhead⟩)
      · rcases ih h with h | h
        · exact .inl (.inr h)
        · exact .inr h

end CLex
