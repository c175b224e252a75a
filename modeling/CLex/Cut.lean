/-!
# Cutting a List into Pieces

A **cutter** takes the first piece off a nonempty list and says what is left. Cutting again
and again until nothing is left turns the list into pieces, from left to right and without
going back. Comments and lexemes are both found in this way.

## Main results

* `Cutter.pieces_nil`, `Cutter.pieces_cons`: the equations that determine the pieces.
* `Cutter.pieces_induction`: what holds of the empty list, and of a list whenever it holds
  of the part left by the first cut, holds of every list.
* `Cutter.pieces_map`: renaming the elements renames the pieces.
-/

namespace CLex

/-- A rule for taking the first piece off the list `x :: xs`: the piece, and what is left,
which is no longer than `xs`. -/
structure Cutter (α β : Type) where
  /-- The first piece and the rest. -/
  next : α → List α → β × List α
  /-- A piece uses up at least one element. -/
  rest_length_le : ∀ x xs, (next x xs).2.length ≤ xs.length

namespace Cutter

variable {α β : Type} (cut : Cutter α β)

/-- The pieces of a list, pushed onto those already found. -/
def piecesOnto (found : Array β) : List α → Array β
  | [] => found
  | x :: xs => piecesOnto (found.push (cut.next x xs).1) (cut.next x xs).2
termination_by l => l.length
decreasing_by
  have := cut.rest_length_le x xs
  simp only [List.length_cons]
  omega

/-- The pieces of a list, from left to right. -/
def pieces (l : List α) : List β :=
  (cut.piecesOnto #[] l).toList

/-! ### The equations of `pieces` -/

/-- What holds of the empty list, and of a list whenever it holds of the part left by the
first cut, holds of every list. -/
theorem pieces_induction {motive : List α → Prop} (nil : motive [])
    (cons : ∀ x xs, motive (cut.next x xs).2 → motive (x :: xs)) : ∀ l, motive l
  | [] => nil
  | x :: xs => cons x xs (pieces_induction nil cons (cut.next x xs).2)
termination_by l => l.length
decreasing_by
  have := cut.rest_length_le x xs
  simp only [List.length_cons]
  omega

/-- The accumulator stays in front. -/
theorem piecesOnto_eq (found : Array β) (l : List α) :
    (cut.piecesOnto found l).toList = found.toList ++ cut.pieces l := by
  induction l using cut.pieces_induction generalizing found with
  | nil => simp [pieces, piecesOnto]
  | cons x xs ih => rw [pieces, piecesOnto, piecesOnto, ih, ih]; simp

@[simp] theorem pieces_nil : cut.pieces [] = [] := by
  simp [pieces, piecesOnto]

/-- The first piece is what the rule takes; the others are the pieces of what it leaves. -/
theorem pieces_cons (x : α) (xs : List α) :
    cut.pieces (x :: xs) = (cut.next x xs).1 :: cut.pieces (cut.next x xs).2 := by
  rw [pieces, piecesOnto, piecesOnto_eq]
  simp

/-- Two cutters that agree up to renaming elements and pieces cut renamed lists alike. -/
theorem pieces_map {α' β' : Type} {cut' : Cutter α' β'} (f : α → α') (g : β → β')
    (h : ∀ x xs, cut'.next (f x) (xs.map f) = (g (cut.next x xs).1, (cut.next x xs).2.map f))
    (l : List α) : cut'.pieces (l.map f) = (cut.pieces l).map g := by
  induction l using cut.pieces_induction with
  | nil => simp
  | cons x xs ih => rw [List.map_cons, pieces_cons, pieces_cons, h, ih, List.map_cons]

end Cutter

end CLex
