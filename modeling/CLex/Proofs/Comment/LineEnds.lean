import CLex.Proofs.Comment.Grammar
import CLex.Proofs.Spacing.Context

/-!
# Line Ends Outside of Block Comments

A line feed within a block comment ends no line of code. Every other line feed does, the one
after a line comment included. Where these stand is told by the pieces of a source from their
lengths alone. Stripping the comments keeps just these line feeds, with their offsets, and
collapsing the spacing keeps all of them.

## Main definitions

* `lineFeeds`: the labels of the line feeds of a text.
* `Comment.lineEndsFrom`: the offsets of the line feeds outside of block comments.

## Main results

* `Comment.Composed.lineEndsFrom_eq`: the line ends of a source are the line feeds of its code.
* `Spacing.lineFeeds_collapse`: collapsing keeps the line feeds.
-/

namespace CLex

variable {α : Type}

/-! ### Line feeds -/

/-- The labels of the line feeds, in order. -/
def lineFeeds (cells : List (Cell α)) : List α :=
  (cells.filter (·.1 == '\n')).map (·.2)

@[simp] theorem lineFeeds_append (xs ys : List (Cell α)) :
    lineFeeds (xs ++ ys) = lineFeeds xs ++ lineFeeds ys := by
  simp [lineFeeds]

theorem lineFeeds_cons_newline (a : α) (cells : List (Cell α)) :
    lineFeeds (('\n', a) :: cells) = a :: lineFeeds cells := rfl

theorem lineFeeds_cons_of_ne {c : Char} (h : c ≠ '\n') (a : α) (cells : List (Cell α)) :
    lineFeeds ((c, a) :: cells) = lineFeeds cells := by
  rw [lineFeeds, List.filter_cons_of_neg (by simpa using h), lineFeeds]

/-- A label is listed if a line feed has it. -/
theorem mem_lineFeeds_iff {cells : List (Cell α)} {a : α} :
    a ∈ lineFeeds cells ↔ ('\n', a) ∈ cells := by
  simp [lineFeeds]

/-- Where there is no line feed none is listed. -/
theorem lineFeeds_of_notMem {cells : List (Cell α)} (h : '\n' ∉ charsOf cells) :
    lineFeeds cells = [] := by
  refine List.eq_nil_iff_forall_not_mem.mpr fun a ha => h ?_
  exact List.mem_map_of_mem (f := Prod.fst) (mem_lineFeeds_iff.mp ha)

namespace Spacing

/-- Collapsing keeps the line feeds after any text. -/
theorem lineFeeds_collapseAfter (previous : Option Char) (cells : List (Cell α)) :
    lineFeeds (collapseAfter previous cells) = lineFeeds cells := by
  induction cells generalizing previous with
  | nil => rfl
  | cons x xs ih =>
      obtain ⟨c, a⟩ := x
      have hrest : lineFeeds (collapse xs) = lineFeeds xs := ih none
      cases hb : isBlank c with
      | false =>
          rw [collapseAfter_cons_of_not_isBlank hb]
          by_cases hc : c = '\n'
          · rw [hc, lineFeeds_cons_newline, lineFeeds_cons_newline, ih]
          · rw [lineFeeds_cons_of_ne hc, lineFeeds_cons_of_ne hc, ih]
      | true =>
          have hc : c ≠ '\n' := by
            rintro rfl
            exact Bool.false_ne_true hb
          rw [lineFeeds_cons_of_ne hc]
          cases hprevious : followsText previous with
          | false => rw [collapseAfter_cons_of_not_followsText hb hprevious, hrest]
          | true =>
              rw [collapseAfter_cons_of_followsText hb hprevious,
                lineFeeds_cons_of_ne (by decide), hrest]

/-- Collapsing keeps the line feeds. -/
theorem lineFeeds_collapse (cells : List (Cell α)) :
    lineFeeds (collapse cells) = lineFeeds cells :=
  lineFeeds_collapseAfter none cells

end Spacing

/-! ### Parts of a numbered text -/

/-- A text is numbered if its first cell has the offset at which it starts, and the rest is
numbered from the next one on. -/
theorem cons_eq_numberedFrom_iff {c : Char} {a : Int} {cells : List (Cell Int)} {offset : Nat} :
    (c, a) :: cells = numberedFrom offset (charsOf ((c, a) :: cells)) ↔
      a = offset ∧ cells = numberedFrom (offset + 1) (charsOf cells) := by
  rw [charsOf_cons, numberedFrom_cons, List.cons.injEq, Prod.mk.injEq]
  simp

/-- A text is numbered if its parts are, the second one from where the first one ends. -/
theorem append_eq_numberedFrom_iff {xs ys : List (Cell Int)} {offset : Nat} :
    xs ++ ys = numberedFrom offset (charsOf (xs ++ ys)) ↔
      xs = numberedFrom offset (charsOf xs) ∧
        ys = numberedFrom (offset + (charsOf xs).length) (charsOf ys) := by
  rw [charsOf_append, numberedFrom_append]
  constructor
  · exact fun h => List.append_inj h (by simp [numberedFrom, charsOf])
  · rintro ⟨hx, hy⟩
    rw [← hx, ← hy]

namespace Comment

/-! ### Line ends -/

/-- Whether a piece is a block comment, closed or not. -/
def Piece.isBlock : Piece α → Bool
  | block .. => true
  | unclosed .. => true
  | _ => false

/-- The offsets of the line feeds outside of block comments, where the first piece starts at a
given offset and each of the others where the one before it ends. -/
def lineEndsFrom (offset : Nat) : List (Piece α) → List Int
  | [] => []
  | piece :: pieces =>
    (if piece.isBlock then [] else lineFeeds (numberedFrom offset piece.chars)) ++
      lineEndsFrom (offset + piece.chars.length) pieces

/-- The line ends of a source are the line feeds of its code. -/
theorem Composed.lineEndsFrom_eq {cells : List (Cell Int)} {found : List (Piece Int)}
    (h : Composed cells found) {offset : Nat}
    (hcells : cells = numberedFrom offset (charsOf cells)) :
    lineEndsFrom offset found = lineFeeds (found.filterMap Piece.code?) := by
  induction h generalizing offset with
  | nil => rfl
  | @code c a rest found _ _ ih =>
      obtain ⟨rfl, hrest⟩ := cons_eq_numberedFrom_iff.mp hcells
      rw [lineEndsFrom, Piece.chars, List.length_singleton, ih hrest]
      exact (lineFeeds_append [(c, (offset : Int))] _).symm
  | @line a b body rest found hrun _ ih =>
      obtain ⟨-, hcells⟩ := cons_eq_numberedFrom_iff.mp hcells
      obtain ⟨-, hcells⟩ := cons_eq_numberedFrom_iff.mp hcells
      obtain ⟨-, hrest⟩ := append_eq_numberedFrom_iff.mp hcells
      -- a line comment ends before the line feed, and has none in its body
      have hnone : '\n' ∉ '/' :: '/' :: charsOf body := by
        simpa using fun hmem => absurd (hrun.1 '\n' hmem) (by decide)
      have hlength : offset + ('/' :: '/' :: charsOf body).length =
          offset + 1 + 1 + (charsOf body).length := by
        simp only [List.length_cons]
        omega
      rw [lineEndsFrom, Piece.chars, hlength, ih hrest, lineFeeds_of_notMem (by simpa using hnone)]
      rfl
  | @block a b c d body rest found _ _ ih =>
      obtain ⟨-, hcells⟩ := cons_eq_numberedFrom_iff.mp hcells
      obtain ⟨-, hcells⟩ := cons_eq_numberedFrom_iff.mp hcells
      obtain ⟨-, hcells⟩ := append_eq_numberedFrom_iff.mp hcells
      obtain ⟨-, hcells⟩ := cons_eq_numberedFrom_iff.mp hcells
      obtain ⟨-, hrest⟩ := cons_eq_numberedFrom_iff.mp hcells
      have hlength : offset + ('/' :: '*' :: charsOf body ++ ['*', '/']).length =
          offset + 1 + 1 + (charsOf body).length + 1 + 1 := by
        simp only [List.cons_append, List.length_cons, List.length_append, List.length_nil]
        omega
      rw [lineEndsFrom, Piece.chars, hlength, ih hrest]
      rfl
  | unclosed _ => rfl

/-- The line ends of a source are the line feeds of its code. -/
theorem Composed.lineEndsFrom_zero {source : List Char} {found : List (Piece Int)}
    (h : Composed (numbered source) found) :
    lineEndsFrom 0 found = lineFeeds (strip (numbered source)).kept := by
  have hnumbered : numbered source = numberedFrom 0 (charsOf (numbered source)) := by
    rw [charsOf_numbered, numberedFrom_zero]
  rw [h.lineEndsFrom_eq hnumbered, h.eq_pieces]
  rfl

end Comment

end CLex
