import CLex.Proofs.Run
import CLex.Proofs.Spacing.Origins

/-!
# Collapsing in Context

What becomes of the cells of a text depends on what stands before it only through its first
cell, and there only on one question: whether a character that is not whitespace comes
directly before it. So a text can be collapsed in parts, and collapsing a part that is
collapsed already, perhaps where less stood before it, changes nothing.

## Main results

* `Spacing.collapseAfter_append`: the parts of a text.
* `Spacing.collapseAfter_collapseAfter`: a first collapsing is absorbed by a second one.
* `Spacing.pair_infix_collapseAfter_iff`: neighbours stay neighbours.
-/

open scoped List

namespace CLex

namespace Spacing

variable {α : Type}

/-! ### What stands before a text -/

/-- Whether a blank that comes next is the first one after a character that is not
whitespace. -/
def followsText (previous : Option Char) : Bool :=
  previous.any (!isWhitespace ·)

@[simp] theorem followsText_none : followsText none = false := rfl

@[simp] theorem followsText_some (c : Char) : followsText (some c) = !isWhitespace c := rfl

theorem isWhitespace_of_isBlank {c : Char} (h : isBlank c = true) : isWhitespace c = true := by
  rw [isWhitespace_eq, h, Bool.true_or]

theorem isBlank_of_not_isWhitespace {c : Char} (h : isWhitespace c = false) :
    isBlank c = false := by
  rw [isWhitespace_eq, Bool.or_eq_false_iff] at h
  exact h.1

/-- All that matters of what stands before a text is whether it is whitespace. -/
theorem collapseAfter_congr {p q : Option Char} (h : followsText p = followsText q)
    (cells : List (Cell α)) : collapseAfter p cells = collapseAfter q cells := by
  have h : p.any (!isWhitespace ·) = q.any (!isWhitespace ·) := h
  cases cells with
  | nil => rfl
  | cons x xs => rw [collapseAfter_cons, collapseAfter_cons, keep?, keep?, h]

/-- After whitespace a text is like one at the start of a line. -/
theorem collapseAfter_of_not_followsText {previous : Option Char}
    (h : followsText previous = false) (cells : List (Cell α)) :
    collapseAfter previous cells = collapse cells :=
  collapseAfter_congr h cells

/-- Nothing matters of what stands before a text that does not start with a blank. -/
theorem collapseAfter_eq_of_head? {cells : List (Cell α)}
    (h : ∀ c ∈ (charsOf cells).head?, isBlank c = false) (p q : Option Char) :
    collapseAfter p cells = collapseAfter q cells := by
  cases cells with
  | nil => rfl
  | cons x xs =>
      have hx : isBlank x.1 = false := h x.1 rfl
      rw [collapseAfter_cons, collapseAfter_cons, keep?_of_not_isBlank hx, keep?_of_not_isBlank hx]

/-! ### The first cell -/

/-- A character that is not a blank stays, and is all that the others come after. -/
theorem collapseAfter_cons_of_not_isBlank {c : Char} (h : isBlank c = false) (a : α)
    (previous : Option Char) (cells : List (Cell α)) :
    collapseAfter previous ((c, a) :: cells) = (c, a) :: collapseAfter (some c) cells := by
  have hkeep : keep? previous (c, a) = some (c, a) := keep?_of_not_isBlank h
  rw [collapseAfter_cons, hkeep]
  rfl

/-- The first blank after other text becomes a space. -/
theorem collapseAfter_cons_of_followsText {c : Char} (hc : isBlank c = true) {a : α}
    {previous : Option Char} (h : followsText previous = true) (cells : List (Cell α)) :
    collapseAfter previous ((c, a) :: cells) = (' ', a) :: collapse cells := by
  have h : previous.any (!isWhitespace ·) = true := h
  have hws : followsText (some c) = false := by simp [isWhitespace_of_isBlank hc]
  rw [collapseAfter_cons, keep?, if_pos hc, if_pos h, collapseAfter_of_not_followsText hws]
  rfl

/-- Any other blank goes. -/
theorem collapseAfter_cons_of_not_followsText {c : Char} (hc : isBlank c = true) {a : α}
    {previous : Option Char} (h : followsText previous = false) (cells : List (Cell α)) :
    collapseAfter previous ((c, a) :: cells) = collapse cells := by
  have h : previous.any (!isWhitespace ·) = false := h
  have hws : followsText (some c) = false := by simp [isWhitespace_of_isBlank hc]
  rw [collapseAfter_cons, keep?, if_pos hc, if_neg (Bool.eq_false_iff.mp h),
    collapseAfter_of_not_followsText hws]
  rfl

/-! ### Parts of a text -/

/-- A text is collapsed part by part, each after the last character of what stands before
it. -/
theorem collapseAfter_append (previous : Option Char) (xs ys : List (Cell α)) :
    collapseAfter previous (xs ++ ys) =
      collapseAfter previous xs ++ collapseAfter ((charsOf xs).getLast?.or previous) ys := by
  induction xs generalizing previous with
  | nil => rfl
  | cons x xs ih =>
      have hlast : (charsOf xs).getLast?.or (some x.1) =
          (charsOf (x :: xs)).getLast?.or previous := by
        rw [charsOf_cons, List.getLast?_cons]
        cases (charsOf xs).getLast? <;> rfl
      rw [List.cons_append, collapseAfter_cons, ih, collapseAfter_cons, List.append_assoc, hlast]

/-- The lines of a text are collapsed each by itself. -/
theorem collapse_append_newline (xs : List (Cell α)) (a : α) (ys : List (Cell α)) :
    collapse (xs ++ ('\n', a) :: ys) = collapse xs ++ ('\n', a) :: collapse ys := by
  have hline : collapseAfter (some '\n') ys = collapse ys :=
    collapseAfter_of_not_followsText rfl ys
  rw [collapse, collapseAfter_append, collapseAfter_cons_of_not_isBlank isBlank_newline, hline]
  rfl

/-- Text without whitespace stays, and what follows it comes after text. -/
theorem collapseAfter_append_of_solid {xs : List (Cell α)} {c : Char}
    (h : ∀ d ∈ charsOf xs, isWhitespace d = false) (hc : isWhitespace c = false)
    (ys : List (Cell α)) :
    collapseAfter (some c) (xs ++ ys) = xs ++ collapseAfter (some c) ys := by
  induction xs generalizing c with
  | nil => rfl
  | cons x xs ih =>
      obtain ⟨hx, hxs⟩ := List.forall_mem_cons.mp h
      rw [List.cons_append,
        collapseAfter_cons_of_not_isBlank (isBlank_of_not_isWhitespace hx), ih hxs hx,
        List.cons_append, collapseAfter_congr (p := some x.1) (q := some c) (by simp [hx, hc])]

/-! ### Neighbours -/

/-- After a character that is not whitespace the first cell stays, a blank as a space. -/
theorem head?_collapseAfter {c : Char} (hc : isWhitespace c = false) (cells : List (Cell α)) :
    (charsOf (collapseAfter (some c) cells)).head? =
      (charsOf cells).head?.map fun d => if isBlank d then ' ' else d := by
  cases cells with
  | nil => rfl
  | cons x xs =>
      obtain ⟨d, a⟩ := x
      cases hb : isBlank d with
      | false => simp [collapseAfter_cons_of_not_isBlank hb, hb]
      | true =>
          have h : followsText (some c) = true := by simp [hc]
          simp [collapseAfter_cons_of_followsText hb h, hb]

/-- A character that is no blank comes directly after one that is not whitespace just if it
did before. -/
theorem head?_collapseAfter_eq_some_iff {c d : Char} (hc : isWhitespace c = false)
    (hd : isBlank d = false) {cells : List (Cell α)} :
    (charsOf (collapseAfter (some c) cells)).head? = some d ↔
      (charsOf cells).head? = some d := by
  rw [head?_collapseAfter hc, Option.map_eq_some_iff]
  constructor
  · rintro ⟨e, he, rfl⟩
    by_cases hb : isBlank e = true
    · rw [if_pos hb] at hd
      exact absurd hd (by decide)
    · rw [he, if_neg hb]
  · intro h
    exact ⟨d, h, if_neg (by simp [hd])⟩

/-- Two characters that are no blanks start what comes directly after one that is not
whitespace just if they did before. -/
theorem pair_prefix_collapseAfter_iff {b c d : Char} (hb : isWhitespace b = false)
    (hc : isWhitespace c = false) (hd : isBlank d = false) {cells : List (Cell α)} :
    [c, d] <+: charsOf (collapseAfter (some b) cells) ↔ [c, d] <+: charsOf cells := by
  cases cells with
  | nil => rfl
  | cons x xs =>
      obtain ⟨e, a⟩ := x
      cases he : isBlank e with
      | false =>
          rw [collapseAfter_cons_of_not_isBlank he, charsOf_cons, charsOf_cons,
            pair_prefix_cons_iff, pair_prefix_cons_iff]
          refine and_congr_right ?_
          rintro rfl
          exact head?_collapseAfter_eq_some_iff hc hd
      | true =>
          have hb : followsText (some b) = true := by simp [hb]
          rw [collapseAfter_cons_of_followsText he hb, charsOf_cons, charsOf_cons,
            pair_prefix_cons_iff, pair_prefix_cons_iff]
          constructor
          · rintro ⟨rfl, -⟩
            exact absurd hc (by simp [isWhitespace])
          · rintro ⟨rfl, -⟩
            exact absurd (isWhitespace_of_isBlank he) (by simp [hc])

/-- A blank is not the first of two characters of which the first is not whitespace. -/
private theorem pair_infix_blank_cons_iff {c d e : Char} (hc : isWhitespace c = false)
    (he : isBlank e = true) {chars : List Char} :
    [c, d] <:+: e :: chars ↔ [c, d] <:+: chars := by
  rw [pair_infix_cons_iff, or_iff_right]
  rintro ⟨rfl, -⟩
  exact Bool.false_ne_true (hc.symm.trans (isWhitespace_of_isBlank he))

/-- Two characters that are no blanks stand together just if they did before. -/
theorem pair_infix_collapseAfter_iff {c d : Char} (hc : isWhitespace c = false)
    (hd : isBlank d = false) {previous : Option Char} {cells : List (Cell α)} :
    [c, d] <:+: charsOf (collapseAfter previous cells) ↔ [c, d] <:+: charsOf cells := by
  induction cells generalizing previous with
  | nil => rfl
  | cons x xs ih =>
      obtain ⟨e, a⟩ := x
      have hrest : [c, d] <:+: charsOf (collapse xs) ↔ [c, d] <:+: charsOf xs := ih
      cases hb : isBlank e with
      | false =>
          rw [collapseAfter_cons_of_not_isBlank hb, charsOf_cons, charsOf_cons,
            pair_infix_cons_iff, pair_infix_cons_iff, ih]
          refine or_congr_left (and_congr_right ?_)
          rintro rfl
          exact head?_collapseAfter_eq_some_iff hc hd
      | true =>
          rw [charsOf_cons, pair_infix_blank_cons_iff hc hb]
          cases hp : followsText previous with
          | false => rw [collapseAfter_cons_of_not_followsText hb hp, hrest]
          | true =>
              rw [collapseAfter_cons_of_followsText hb hp, charsOf_cons,
                pair_infix_blank_cons_iff hc rfl, hrest]

/-! ### Collapsing twice -/

/-- Collapsing is absorbed by collapsing, if no blank counts as the first one after other text
that did not do so before. -/
theorem collapseAfter_collapseAfter {p q : Option Char}
    (h : followsText q = true → followsText p = true) (cells : List (Cell α)) :
    collapseAfter q (collapseAfter p cells) = collapseAfter q cells := by
  induction cells generalizing p q with
  | nil => rfl
  | cons x xs ih =>
      obtain ⟨c, a⟩ := x
      have hspace : isBlank ' ' = true := rfl
      have htwice : collapse (collapse xs) = collapse xs := ih id
      cases hb : isBlank c with
      | false =>
          rw [collapseAfter_cons_of_not_isBlank hb, collapseAfter_cons_of_not_isBlank hb,
            collapseAfter_cons_of_not_isBlank hb, ih id]
      | true =>
          cases hp : followsText p with
          | false =>
              have hq : followsText q = false := by
                rw [Bool.eq_false_iff]
                exact fun hq => Bool.false_ne_true (hp.symm.trans (h hq))
              rw [collapseAfter_cons_of_not_followsText hb hp,
                collapseAfter_cons_of_not_followsText hb hq, collapseAfter_of_not_followsText hq,
                htwice]
          | true =>
              rw [collapseAfter_cons_of_followsText hb hp]
              cases hq : followsText q with
              | false =>
                  rw [collapseAfter_cons_of_not_followsText hspace hq,
                    collapseAfter_cons_of_not_followsText hb hq, htwice]
              | true =>
                  rw [collapseAfter_cons_of_followsText hspace hq,
                    collapseAfter_cons_of_followsText hb hq, htwice]

/-- A text in normal spacing stays as it is. -/
theorem collapse_collapse (cells : List (Cell α)) : collapse (collapse cells) = collapse cells :=
  collapseAfter_collapseAfter id cells

end Spacing

end CLex
