import CLex.Spacing
import CLex.Text.Assembly

/-!
# Collapsing Character by Character

Spacing can be collapsed in one pass over the characters of a text that only remembers whether a
blank that comes next is to be left out: at the start, after a line feed, and after a blank. Every
other character is added to the text that is built, with its origin, and a blank as a space.

## Main definitions

* `Spacing.Scan`, `Spacing.Scan.step`: the state of the pass, and one step of it.

## Main results

* `Spacing.Scan.Follows.step`: the state after a character is told by that character.
* `Spacing.Scan.text_foldl_step`: the pass yields what collapsing yields.
-/

namespace CLex

namespace Spacing

open Text (Assembly)

/-- The state of a pass. -/
structure Scan where
  /-- The text that was built so far. -/
  built : Assembly := {}
  /-- Whether blanks are left out. -/
  skipping : Bool := true
deriving DecidableEq, Repr

namespace Scan

/-- One step. Of several blanks the first one is added, as a space. -/
def step (s : Scan) (x : Cell Int) : Scan :=
  if x.1 = '\n' then { built := s.built.add "\n" x.2, skipping := true }
  else if isWhitespace x.1 then
    if s.skipping then s else { built := s.built.add " " x.2, skipping := true }
  else { built := s.built.add (String.ofList [x.1]) x.2, skipping := false }

/-- Whether a state is one after a given character, with given cells built. -/
structure Follows (previous : Option Char) (kept : List (Cell Int)) (s : Scan) : Prop where
  /-- The text that was built. -/
  text_built : s.built.text = .ofCells kept
  /-- Blanks are left out unless the last character was no whitespace. -/
  skipping_eq : s.skipping = !previous.any (!isWhitespace ·)

/-- At the start there is no character before. -/
theorem follows_start : Follows none [] {} where
  text_built := rfl
  skipping_eq := rfl

/-- After a step the state is one after the next character, which is kept or not. -/
theorem Follows.step {previous : Option Char} {kept : List (Cell Int)} {s : Scan}
    (h : Follows previous kept s) (x : Cell Int) :
    Follows (some x.1) (kept ++ (keep? previous x).toList) (s.step x) := by
  obtain ⟨c, origin⟩ := x
  have hadd := fun c => Assembly.text_add_singleton h.text_built c origin
  by_cases hnewline : c = '\n'
  · subst hnewline
    rw [Scan.step, if_pos rfl]
    exact ⟨hadd '\n', rfl⟩
  · cases hspace : isWhitespace c with
    | false =>
        have hkeep : keep? previous (c, origin) = some (c, origin) := by
          simp [keep?, isBlank, hspace]
        rw [Scan.step, if_neg hnewline, if_neg (by simp [hspace]), hkeep]
        exact ⟨hadd c, by simp [hspace]⟩
    | true =>
        have hblank : isBlank c = true := by simp [isBlank, hspace, hnewline]
        rw [Scan.step, if_neg hnewline, if_pos hspace, keep?, if_pos hblank, h.skipping_eq]
        cases hprevious : previous.any (!isWhitespace ·) with
        | false => exact ⟨by simpa using h.text_built, by simp [h.skipping_eq, hprevious, hspace]⟩
        | true => exact ⟨hadd ' ', by simp [hspace]⟩

/-- A pass adds the cells that stay to those that were built before. -/
theorem Follows.text_foldl_step {previous : Option Char} {kept : List (Cell Int)} {s : Scan}
    (h : Follows previous kept s) (cells : List (Cell Int)) :
    (cells.foldl Scan.step s).built.text = .ofCells (kept ++ collapseAfter previous cells) := by
  induction cells generalizing previous kept s with
  | nil => rw [List.foldl_nil, collapseAfter_nil, List.append_nil, h.text_built]
  | cons x cells ih =>
      rw [List.foldl_cons, ih (h.step x), collapseAfter_cons, List.append_assoc]

/-- **A pass collapses the spacing.** It builds the text in normal spacing. -/
theorem text_foldl_step (text : Text) :
    (text.cells.foldl step {}).built.text = text.collapse :=
  follows_start.text_foldl_step text.cells

end Scan

end Spacing

end CLex
