import CLex.Proofs.Spacing.Lines

/-!
# Normal Spacing

A text is in normal spacing if the space is its only blank, and no space stands at the start of
the text, after a line feed or after another space. These are the texts that collapsing leaves
alone, and the texts that it yields.

Collapsing looks at a cell and the character before it, so that it leaves a text alone just if
each blank of the text is a space that comes after a character which is not whitespace. This
local condition carries the induction.

## Main definitions

* `Spacing.IsNormal`: texts in normal spacing.
* `Spacing.SpacedAfter`: the condition on each blank and the character before it.

## Main results

* `Spacing.collapseAfter_eq_self_iff`, `Spacing.isNormal_iff`: what collapsing leaves alone.
* `Spacing.isNormal_collapse`: what collapsing yields.
* `Text.collapse_ofString_and_eq_self_iff`: collapsing is line by line, and its image are the texts in
  normal spacing.
-/

open scoped List

namespace CLex

namespace Spacing

variable {α : Type}

/-! ### The normal form -/

/-- Whether a text is in normal spacing. -/
structure IsNormal (chars : List Char) : Prop where
  /-- Spaces and line feeds are the only whitespace. -/
  spaces : ∀ c ∈ chars, isWhitespace c = true → c = ' ' ∨ c = '\n'
  /-- No space stands at the start. -/
  start : chars.head? ≠ some ' '
  /-- No space stands after a line feed. -/
  feed : ¬ ['\n', ' '] <:+: chars
  /-- No space stands after another one. -/
  single : ¬ [' ', ' '] <:+: chars

/-- Whether each blank of a text that comes after a given character is a space, and comes after
a character that is not whitespace. -/
def SpacedAfter (previous : Option Char) : List Char → Prop
  | [] => True
  | c :: rest =>
    (isBlank c = true → c = ' ' ∧ followsText previous = true) ∧ SpacedAfter (some c) rest

/-- The conditions of normal spacing, in a text that comes after a given character. -/
theorem spacedAfter_iff {previous : Option Char} {chars : List Char} :
    SpacedAfter previous chars ↔
      (∀ c ∈ chars, isWhitespace c = true → c = ' ' ∨ c = '\n') ∧
        (chars.head? = some ' ' → followsText previous = true) ∧
        ¬ ['\n', ' '] <:+: chars ∧ ¬ [' ', ' '] <:+: chars := by
  induction chars generalizing previous with
  | nil => simp [SpacedAfter]
  | cons c rest ih =>
      have hspace : isBlank ' ' = true := rfl
      rw [SpacedAfter, ih, List.forall_mem_cons, List.head?_cons, pair_infix_cons_iff,
        pair_infix_cons_iff, not_or, not_or, Option.some.injEq]
      constructor
      · rintro ⟨hfirst, hspaces, hhead, hfeed, hsingle⟩
        refine ⟨⟨fun hc => ?_, hspaces⟩, ?_, ⟨?_, hfeed⟩, ?_, hsingle⟩
        · rw [isWhitespace_eq, Bool.or_eq_true, beq_iff_eq] at hc
          exact hc.imp (fun hb => (hfirst hb).1) id
        · rintro rfl
          exact (hfirst hspace).2
        · rintro ⟨rfl, hnext⟩
          exact absurd (hhead hnext) (by decide)
        · rintro ⟨rfl, hnext⟩
          exact absurd (hhead hnext) (by decide)
      · rintro ⟨⟨hc, hspaces⟩, hstart, ⟨hfirstFeed, hfeed⟩, hfirstSpace, hsingle⟩
        refine ⟨fun hb => ?_, hspaces, fun hnext => ?_, hfeed, hsingle⟩
        · rcases hc (isWhitespace_of_isBlank hb) with rfl | rfl
          · exact ⟨rfl, hstart rfl⟩
          · exact absurd hb (by decide)
        · -- the character before a space is neither a space nor a line feed
          rw [followsText_some, Bool.not_eq_true']
          refine Bool.eq_false_iff.mpr fun hws => ?_
          rcases hc hws with rfl | rfl
          · exact hfirstSpace ⟨rfl, hnext⟩
          · exact hfirstFeed ⟨rfl, hnext⟩

/-- A text is in normal spacing if its blanks are as they have to be after the start of a
line. -/
theorem isNormal_iff {chars : List Char} : IsNormal chars ↔ SpacedAfter none chars := by
  rw [spacedAfter_iff]
  constructor
  · rintro ⟨hspaces, hstart, hfeed, hsingle⟩
    exact ⟨hspaces, fun h => absurd h hstart, hfeed, hsingle⟩
  · rintro ⟨hspaces, hstart, hfeed, hsingle⟩
    exact ⟨hspaces, fun h => Bool.false_ne_true (hstart h), hfeed, hsingle⟩

/-! ### What collapsing leaves alone -/

/-- Collapsing does not make a text longer. -/
theorem length_collapseAfter_le (previous : Option Char) (cells : List (Cell α)) :
    (collapseAfter previous cells).length ≤ cells.length := by
  simpa using (map_snd_collapseAfter_sublist previous cells).length_le

/-- Collapsing leaves a text alone just if each of its blanks is a space after a character that
is not whitespace. -/
theorem collapseAfter_eq_self_iff {previous : Option Char} {cells : List (Cell α)} :
    collapseAfter previous cells = cells ↔ SpacedAfter previous (charsOf cells) := by
  induction cells generalizing previous with
  | nil => simp [SpacedAfter]
  | cons x xs ih =>
      obtain ⟨c, a⟩ := x
      rw [charsOf_cons, SpacedAfter, ← ih]
      cases hb : isBlank c with
      | false =>
          rw [collapseAfter_cons_of_not_isBlank hb, List.cons.injEq]
          simp
      | true =>
          have hline : collapseAfter (some c) xs = collapse xs :=
            collapseAfter_of_not_followsText (by simp [isWhitespace_of_isBlank hb]) xs
          rw [hline]
          cases hprevious : followsText previous with
          | true =>
              rw [collapseAfter_cons_of_followsText hb hprevious, List.cons.injEq, Prod.mk.injEq]
              simp [eq_comm]
          | false =>
              rw [collapseAfter_cons_of_not_followsText hb hprevious]
              constructor
              · intro heq
                have hlength := length_collapseAfter_le none xs
                rw [← collapse, heq, List.length_cons] at hlength
                omega
              · rintro ⟨hspace, -⟩
                exact absurd (hspace rfl).2 Bool.false_ne_true

/-- A text stays as it is just if it is in normal spacing. -/
theorem collapse_eq_self_iff {cells : List (Cell α)} :
    collapse cells = cells ↔ IsNormal (charsOf cells) := by
  rw [isNormal_iff]
  exact collapseAfter_eq_self_iff

/-- Collapsing brings a text into normal spacing. -/
theorem isNormal_collapse (cells : List (Cell α)) : IsNormal (charsOf (collapse cells)) :=
  collapse_eq_self_iff.mp (collapse_collapse cells)

end Spacing

/-! ### Texts in normal spacing -/

namespace Text

open Spacing

/-- A text with equally many characters and origins is made of its cells. -/
theorem ofCells_cells {text : Text} (h : text.chars.length = text.origins.length) :
    ofCells text.cells = text := by
  rw [ofCells, cells, charsOf, List.map_fst_zip (Nat.le_of_eq h),
    List.map_snd_zip (Nat.le_of_eq h.symm)]

/-- What becomes of any text has equally many characters and origins. -/
theorem length_collapse (text : Text) :
    text.collapse.chars.length = text.collapse.origins.length :=
  length_ofCells _

/-- A text stays as it is just if it has an origin for each character, and no more, and is in
normal spacing. -/
theorem collapse_eq_self_iff {text : Text} :
    text.collapse = text ↔
      text.chars.length = text.origins.length ∧ IsNormal text.chars := by
  constructor
  · intro h
    have hlength := length_collapse text
    have hnormal := isNormal_collapse text.cells
    have hchars : charsOf (Spacing.collapse text.cells) = text.chars := congrArg Text.chars h
    rw [h] at hlength
    rw [hchars] at hnormal
    exact ⟨hlength, hnormal⟩
  · rintro ⟨hlength, hnormal⟩
    have hchars : charsOf text.cells = text.chars := List.map_fst_zip (Nat.le_of_eq hlength)
    rw [← hchars] at hnormal
    rw [collapse, Spacing.collapse_eq_self_iff.mpr hnormal, ofCells_cells hlength]

/-- **Collapsing is exact.** A source consists of its lines and the line feeds between them, and
what becomes of it are its lines, each without the run of blanks at its start and with a single
space for every other run of blanks, with the same line feeds. The texts that stay as they are
are those in normal spacing, and every text becomes one of these, and then stays. -/
theorem collapse_ofString_and_eq_self_iff (source : String) :
    let cells := numbered source.toList
    joinLines (lines cells) (lineFeeds cells) = cells ∧
      (ofString source).collapse =
        ofCells (joinLines ((lines cells).map squeezeLine) (lineFeeds cells)) ∧
      ∀ text : Text,
        (text.collapse = text ↔
          text.chars.length = text.origins.length ∧ IsNormal text.chars) ∧
        IsNormal text.collapse.chars ∧ text.collapse.collapse = text.collapse := by
  refine ⟨joinLines_lines _, ?_, fun text => ⟨collapse_eq_self_iff, isNormal_collapse _, ?_⟩⟩
  · rw [collapse, cells_ofString, collapse_eq_joinLines]
  · exact collapse_eq_self_iff.mpr ⟨length_collapse text, isNormal_collapse _⟩

end Text

end CLex
