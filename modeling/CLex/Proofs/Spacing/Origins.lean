import CLex.Spacing

/-!
# What Collapsing Keeps

Collapsing drops blanks and turns others into spaces, and does nothing else: the labels that
are left stand in their order, a cell that is left is as it was or a space that stands for a
blank, and all cells that hold no whitespace are left as they are.

## Main results

* `Spacing.map_snd_collapseAfter_sublist`: the labels that are left.
* `Spacing.exists_of_mem_collapseAfter`: where a cell comes from.
* `Spacing.filter_collapseAfter`: what is not whitespace stays.
-/

open scoped List

namespace CLex

namespace Spacing

variable {α : Type}

/-- What is not a blank stays. -/
theorem keep?_of_not_isBlank {previous : Option Char} {x : Cell α} (h : isBlank x.1 = false) :
    keep? previous x = some x := by
  rw [keep?, if_neg (by simp [h])]

/-- A blank goes, or becomes a space with its label. -/
theorem keep?_of_isBlank (previous : Option Char) {x : Cell α} (h : isBlank x.1 = true) :
    keep? previous x = none ∨ keep? previous x = some (' ', x.2) := by
  rw [keep?, if_pos h]
  by_cases hp : previous.any (!isWhitespace ·) = true
  · exact .inr (if_pos hp)
  · exact .inl (if_neg hp)

/-- The labels that are left stand in their order. -/
theorem map_snd_collapseAfter_sublist (previous : Option Char) (cells : List (Cell α)) :
    (collapseAfter previous cells).map (·.2) <+ cells.map (·.2) := by
  induction cells generalizing previous with
  | nil => exact .slnil
  | cons x xs ih =>
      rw [collapseAfter_cons, List.map_append, List.map_cons]
      cases hb : isBlank x.1 with
      | false =>
          rw [keep?_of_not_isBlank hb]
          exact (ih _).cons_cons _
      | true =>
          rcases keep?_of_isBlank previous hb with hk | hk
          · rw [hk]
            exact (ih _).cons _
          · rw [hk]
            exact (ih _).cons_cons _

/-- A cell that is left is as it was, or a space that stands for a blank. -/
theorem exists_of_mem_collapseAfter {previous : Option Char} {cells : List (Cell α)}
    {x : Cell α} (h : x ∈ collapseAfter previous cells) :
    ∃ y ∈ cells, x.2 = y.2 ∧ (x.1 = y.1 ∨ x.1 = ' ' ∧ isBlank y.1 = true) := by
  induction cells generalizing previous with
  | nil => simp at h
  | cons y ys ih =>
      rw [collapseAfter_cons, List.mem_append, Option.mem_toList] at h
      rcases h with h | h
      · refine ⟨y, List.mem_cons_self .., ?_⟩
        cases hb : isBlank y.1 with
        | false =>
            rw [keep?_of_not_isBlank hb] at h
            obtain rfl := Option.some.inj h
            exact ⟨rfl, .inl rfl⟩
        | true =>
            rcases keep?_of_isBlank previous hb with hk | hk
            · simp [hk] at h
            · rw [hk] at h
              obtain rfl := Option.some.inj h
              exact ⟨rfl, .inr ⟨rfl, rfl⟩⟩
      · obtain ⟨z, hz, hxz⟩ := ih h
        exact ⟨z, List.mem_cons_of_mem _ hz, hxz⟩

/-- What is not whitespace stays as it is. -/
theorem filter_collapseAfter (previous : Option Char) (cells : List (Cell α)) :
    (collapseAfter previous cells).filter (fun x => !isWhitespace x.1) =
      cells.filter (fun x => !isWhitespace x.1) := by
  induction cells generalizing previous with
  | nil => rfl
  | cons x xs ih =>
      rw [collapseAfter_cons, List.filter_append, ih]
      cases hb : isBlank x.1 with
      | false =>
          rw [keep?_of_not_isBlank hb, Option.toList_some, ← List.filter_append,
            List.singleton_append]
      | true =>
          have hx : isWhitespace x.1 = true := by rw [isWhitespace_eq, hb, Bool.true_or]
          have hspace : isWhitespace ' ' = true := rfl
          rcases keep?_of_isBlank previous hb with hk | hk
          · simp [hk, hx]
          · simp [hk, hx, hspace]

end Spacing

end CLex
