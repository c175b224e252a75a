import CLex.Character
import CLex.Text

/-!
# Spacing

A text is in **normal spacing** if a single space is its only blank, and none stands at the
start of a line or after another one. Collapsing brings a text into normal spacing: of each
run of blanks the first becomes a space, unless it starts a line, and the others go. Line
feeds stay. Whether a character stays thus depends on itself and its predecessor alone.

## Main definitions

* `Spacing.keep?`: what becomes of a cell after a given character.
* `Spacing.collapse`: all cells that stay.

## Main results

* `Spacing.collapseAfter_cons`: collapsing from left to right.
* `Spacing.collapse_relabel`: labels are moved along and not looked into.
-/

namespace CLex

namespace Spacing

variable {α : Type}

/-- What becomes of a cell, given the character before it: line feeds and what is not
whitespace stay; a blank becomes a space if it comes directly after a character that is not
whitespace. -/
def keep? (previous : Option Char) (x : Cell α) : Option (Cell α) :=
  if isBlank x.1 then
    if previous.any (!isWhitespace ·) then some (' ', x.2) else none
  else some x

/-- The cells that stay after a given character. -/
def collapseAfter (previous : Option Char) (cells : List (Cell α)) : List (Cell α) :=
  ((previous :: (charsOf cells).map some).zip cells).filterMap fun (p, x) => keep? p x

/-- The cells that stay, the first one being at the start of a line. -/
def collapse (cells : List (Cell α)) : List (Cell α) :=
  collapseAfter none cells

@[simp] theorem collapseAfter_nil (previous : Option Char) :
    collapseAfter previous ([] : List (Cell α)) = [] := rfl

/-- The first cell stays or goes, and is then the predecessor of the second. -/
theorem collapseAfter_cons (previous : Option Char) (x : Cell α) (xs : List (Cell α)) :
    collapseAfter previous (x :: xs) =
      (keep? previous x).toList ++ collapseAfter (some x.1) xs := by
  simp only [collapseAfter, charsOf_cons, List.map_cons, List.zip_cons_cons,
    List.filterMap_cons]
  cases keep? previous x <;> simp

/-- Collapsing moves labels along and does not look into them. -/
theorem collapseAfter_relabel {β : Type} (f : α → β) (previous : Option Char)
    (cells : List (Cell α)) :
    collapseAfter previous (relabel f cells) = relabel f (collapseAfter previous cells) := by
  induction cells generalizing previous with
  | nil => rfl
  | cons x xs ih =>
    have hkeep : keep? previous (x.relabel f) = (keep? previous x).map (Cell.relabel f) := by
      by_cases hb : isBlank x.1 = true
      · by_cases hp : previous.any (!isWhitespace ·) = true <;>
          simp [keep?, Cell.relabel, hb, hp]
      · simp [keep?, Cell.relabel, hb]
    rw [relabel, List.map_cons, collapseAfter_cons, hkeep, ← relabel, ih, collapseAfter_cons]
    cases keep? previous x <;> simp [relabel, Cell.relabel]

theorem collapse_relabel {β : Type} (f : α → β) (cells : List (Cell α)) :
    collapse (relabel f cells) = relabel f (collapse cells) :=
  collapseAfter_relabel f none cells

/-- A source in normal spacing. -/
def collapseSource (source : String) : String :=
  String.ofList (charsOf (collapse (numbered source.toList)))

end Spacing

/-- A text in normal spacing. Characters without an origin are left out. -/
def Text.collapse (text : Text) : Text :=
  .ofCells (Spacing.collapse text.cells)

end CLex
