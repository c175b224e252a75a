import CLex.Proofs.Text.Labels
import CLex.Text.Assembly
import CLex.Text.Place

/-!
# Walking Through a Text

A stage may walk through a text character by character: it keeps a place, and each step looks at
what comes next and moves the place on, until the end is reached. What comes next is told by the
rest of the text, so a walk is followed from cell to cell.

## Main definitions

* `Text.Ahead`: what comes next at a place, with its origins.
* `Text.Walk`, `Text.Walk.run?`: a stage that walks, and how far it gets.

## Main results

* `Text.Ahead.look_cons`, `Text.Ahead.nextTwo_eq`, `Text.Ahead.originAt?_cons`: what is found at
  a place.
* `Text.Walk.run?_of_isAtEnd`, `Text.Walk.run?_of_not_isAtEnd`: the equations of a walk.
-/

open scoped List

namespace CLex

namespace Text

/-! ### What comes next -/

/-- Whether given cells come next at a place: they are the rest of the text, with the origins that
it has there. -/
def Ahead (text : Text) (place : Place) (cells : List (Cell (Option Int))) : Prop :=
  ∃ passed, text.padded = passed ++ cells ∧ place.chars = text.chars ∧
    place.index = passed.length

/-- At the start the whole text comes next. -/
theorem ahead_start (text : Text) : text.Ahead (.ofString text.content) text.padded :=
  ⟨[], rfl, String.toList_ofList, rfl⟩

namespace Ahead

variable {text : Text} {place : Place} {cells : List (Cell (Option Int))}
  {x : Cell (Option Int)}

/-- The place stands before the characters that come next. -/
theorem isBefore (h : text.Ahead place cells) : place.IsBefore (charsOf cells) := by
  obtain ⟨passed, hpadded, hchars, hindex⟩ := h
  refine ⟨charsOf passed, ?_, by rw [hindex, charsOf, List.length_map]⟩
  rw [hchars, ← charsOf_append, ← hpadded, charsOf_padded]

/-- At the end nothing comes next. -/
theorem isAtEnd_nil (h : text.Ahead place []) : place.isAtEnd = true :=
  h.isBefore.isAtEnd_iff.mpr rfl

/-- Where something comes next the end is not reached. -/
theorem isAtEnd_cons (h : text.Ahead place (x :: cells)) : place.isAtEnd = false := by
  rw [Bool.eq_false_iff, ne_eq, h.isBefore.isAtEnd_iff]
  exact List.cons_ne_nil _ _

/-- The first character that comes next is found. -/
theorem look_cons (h : text.Ahead place (x :: cells)) : place.look 0 = .char x.1 :=
  h.isBefore.look_eq 0

/-- The first two characters that come next, or as many as there are. -/
theorem nextTwo_eq (h : text.Ahead place cells) :
    place.nextTwo = String.ofList ((charsOf cells).take 2) :=
  h.isBefore.nextTwo_eq

/-- Whether the first two characters that come next are given ones. -/
theorem nextTwo_eq_iff (h : text.Ahead place cells) {c d : Char} :
    place.nextTwo = String.ofList [c, d] ↔ [c, d] <+: charsOf cells := by
  rw [h.nextTwo_eq, String.ofList_inj, List.prefix_iff_eq_take, eq_comm]
  rfl

/-- The first cell that comes next has the origin at the place. -/
theorem originAt?_cons (h : text.Ahead place (x :: cells)) :
    text.originAt? place.index = x.2 := by
  obtain ⟨passed, hpadded, -, hindex⟩ := h
  have hget : (relabel text.originAt? (numbered text.chars))[passed.length]? = some x := by
    rw [← padded_eq_relabel, hpadded, List.getElem?_append_right (Nat.le_refl _), Nat.sub_self]
    rfl
  simp only [relabel, numbered, List.getElem?_map, List.getElem?_zipIdx, Option.map_map,
    Option.map_eq_some_iff, Function.comp_apply, Nat.zero_add] at hget
  obtain ⟨c, -, rfl⟩ := hget
  rw [hindex]
  rfl

private theorem move (xs : List (Cell (Option Int))) (h : text.Ahead place (xs ++ cells)) :
    text.Ahead (place.move xs.length) cells := by
  obtain ⟨passed, hpadded, hchars, hindex⟩ := h
  refine ⟨passed ++ xs, ?_, hchars, ?_⟩
  · rw [List.append_assoc]
    exact hpadded
  · rw [Place.move, hindex, List.length_append, Int.natCast_add]

/-- The place is moved over the first cell that comes next. -/
theorem move_one (h : text.Ahead place (x :: cells)) : text.Ahead (place.move 1) cells :=
  move [x] h

/-- The place is moved over the first two cells that come next. -/
theorem move_two {y : Cell (Option Int)} (h : text.Ahead place (x :: y :: cells)) :
    text.Ahead (place.move 2) cells :=
  move [x, y] h

end Ahead

/-! ### Walks -/

/-- A stage that walks through a text: its states have places, and a step moves its place on. A
step may fail. -/
structure Walk (σ : Type) where
  /-- The place of a state. -/
  place : σ → Place
  /-- One step. -/
  step? : σ → Option σ
  /-- A step moves on by one character or by two. -/
  moves : ∀ s s', step? s = some s' → place s' = (place s).move 1 ∨ place s' = (place s).move 2

namespace Walk

variable {σ : Type} (walk : Walk σ)

/-- The state at the end of the text, if no step fails. -/
def run? (s : σ) : Option σ :=
  if (walk.place s).isAtEnd = true then some s
  else
    match _ : walk.step? s with
    | some next => run? next
    | none => none
termination_by ((walk.place s).chars.length - (walk.place s).index).toNat
decreasing_by
  have hend : ¬ ((walk.place s).chars.length : Int) ≤ (walk.place s).index := by
    simpa [Place.isAtEnd] using ‹¬ (walk.place s).isAtEnd = true›
  rcases walk.moves s next ‹walk.step? s = some next› with hplace | hplace
  · simp only [hplace, Place.move]
    omega
  · simp only [hplace, Place.move]
    omega

variable {walk} {s : σ}

/-- At the end no step is taken. -/
theorem run?_of_isAtEnd (h : (walk.place s).isAtEnd = true) : walk.run? s = some s := by
  rw [run?, if_pos h]

/-- Before the end a step is taken. -/
theorem run?_of_not_isAtEnd (h : (walk.place s).isAtEnd = false) :
    walk.run? s = (walk.step? s).bind walk.run? := by
  rw [run?, if_neg (by simp [h])]
  split
  · next hstep => rw [hstep, Option.bind_some]
  · next hstep => rw [hstep, Option.bind_none]

/-- Before the end a step that succeeds is followed by the rest of the walk. -/
theorem run?_of_step {next : σ} (h : (walk.place s).isAtEnd = false)
    (hstep : walk.step? s = some next) : walk.run? s = walk.run? next := by
  rw [run?_of_not_isAtEnd h, hstep, Option.bind_some]

end Walk

end Text

end CLex
