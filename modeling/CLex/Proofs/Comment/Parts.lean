import CLex.Proofs.Comment.Marks

/-!
# Comments Before and After a Line End

No comment reaches over the end of a line, but a block comment. So where one part of a source
has no block comment left open, and the next part starts on a new line, the comments of the
source are those of its parts.

## Main results

* `Comment.Composed.append`: what such a source is composed of.
* `Comment.strip_append_newline`: stripping such a source.
-/

namespace CLex

namespace Comment

variable {α : Type}

/-- Two parts compose a source together, if no comment reaches from the first one into the
second. -/
theorem Composed.append {xs ys : List (Cell α)} {found found' : List (Piece α)}
    (hx : Composed xs found) (hy : Composed ys found')
    (hclosed : found.findSome? Piece.unclosed? = none)
    (hline : ∀ c ∈ (charsOf ys).head?, c = '\n') :
    Composed (xs ++ ys) (found ++ found') := by
  induction hx with
  | nil => exact hy
  | @code c a rest found hopen _ ih =>
      refine .code ?_ (ih hclosed)
      rw [opens_cons_iff] at hopen ⊢
      cases rest with
      | cons x rest => exact hopen
      | nil =>
          -- the part ends here, and a line feed goes with no slash
          rintro ⟨-, hmark | hmark⟩
          · exact absurd (hline _ hmark) (by decide)
          · exact absurd (hline _ hmark) (by decide)
  | @line a b body rest found hrun _ ih =>
      rw [List.cons_append, List.cons_append, List.append_assoc]
      refine .line ?_ (ih hclosed)
      rw [charsOf_append]
      exact hrun.append fun c hc => by simp [hline c hc]
  | @block a b c d body rest found hfirst _ ih =>
      rw [List.cons_append, List.cons_append, List.append_assoc, List.cons_append,
        List.cons_append]
      exact .block hfirst (ih hclosed)
  | unclosed _ => exact absurd hclosed (by simp [Piece.unclosed?])

/-- Stripping two parts of a source that have a line end between them, where no block comment
of the first one is left open. -/
theorem strip_append_newline {xs : List (Cell α)} (h : (strip xs).unclosed = none) (a : α)
    (ys : List (Cell α)) :
    strip (xs ++ ('\n', a) :: ys) =
      { kept := (strip xs).kept ++ ('\n', a) :: (strip ys).kept
        opened := (strip xs).opened ++ (strip ys).opened
        unclosed := (strip ys).unclosed } := by
  have hlower := (composed_pieces ys).newline_cons a
  have hpieces := ((composed_pieces xs).append hlower h (by simp)).eq_pieces
  have h : (pieces xs).findSome? Piece.unclosed? = none := h
  simp only [strip, ← hpieces, List.filterMap_append, List.findSome?_append, h, Option.none_or]
  rfl

end Comment

end CLex
