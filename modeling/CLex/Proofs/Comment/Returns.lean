import CLex.Proofs.Comment.Parts
import CLex.Proofs.Text.Returns

/-!
# Comments and Carriage Returns

Blanks at the ends of lines leave the comments of a source what they are. Those that follow a
line comment belong to it, and those within a block comment to that one; all others are code,
and stand before line feeds of the code.

## Main results

* `Comment.Composed.exists_trailed`: what the text with blanks is composed of.
* `Comment.trailed_kept`, `Comment.unclosed_trailed`: stripping both texts.
-/

open scoped List

namespace CLex

namespace Comment

variable {α : Type}

/-- Blanks are code. -/
private theorem composed_blanks {blanks : List (Cell α)}
    (h : ∀ c ∈ charsOf blanks, isBlank c = true) :
    Composed blanks (blanks.map fun x => .code x.1 x.2) := by
  refine composed_of_opensNowhere (opensNowhere_of_notMem fun hslash => ?_)
  exact absurd (h '/' hslash) (by decide)

/-- **Blanks at the ends of lines keep the comments.** With them a source is composed in the
same way: the same block comment is open at its end, and its code has blanks before its line
feeds and nowhere else. -/
theorem Composed.exists_trailed {xs ys : List (Cell α)} {found : List (Piece α)}
    (h : Composed xs found) (hys : Trailed xs ys) :
    ∃ found', Composed ys found' ∧
      found'.findSome? Piece.unclosed? = found.findSome? Piece.unclosed? ∧
      Trailed (found.filterMap Piece.code?) (found'.filterMap Piece.code?) := by
  induction h generalizing ys with
  | nil =>
      cases hys
      exact ⟨[], .nil, rfl, .nil⟩
  | @code c a rest found hopen _ ih =>
      by_cases hc : c = '\n'
      · subst hc
        obtain ⟨blanks, b, ys, rfl, hblanks, hrest⟩ := hys.feed_inv
        obtain ⟨found', hfound, hunclosed, hcode⟩ := ih hrest
        have hcells := composed_blanks hblanks
        have hclosed := findSome?_unclosed?_code blanks
        refine ⟨_, hcells.append (hfound.newline_cons b) hclosed (by simp), ?_, ?_⟩
        · rw [List.findSome?_append, hclosed, Option.none_or]
          exact hunclosed
        · rw [List.filterMap_append, filterMap_code?_code]
          exact (Trailed.feed hcode).blanks_append hblanks
      · obtain ⟨ys, rfl, hrest⟩ := hys.cons_inv hc
        obtain ⟨found', hfound, hunclosed, hcode⟩ := ih hrest
        refine ⟨.code c a :: found', .code ?_ hfound, hunclosed, .text hc hcode⟩
        rw [opens_cons_iff] at hopen ⊢
        rwa [hrest.head?_eq_some_iff rfl, hrest.head?_eq_some_iff rfl]
  | @line a b body rest found hrun _ ih =>
      obtain ⟨ys, rfl, hopened⟩ := hys.cons_inv (by decide)
      obtain ⟨ys, rfl, hinner⟩ := hopened.cons_inv (by decide)
      obtain ⟨body', ys, rfl, hbody, hrest⟩ := hinner.append_inv
      obtain rfl : body' = body :=
        hbody.eq_of_notMem fun hmem => absurd (hrun.1 '\n' hmem) (by decide)
      cases rest with
      | nil =>
          cases hrest
          obtain ⟨found', hfound, hunclosed, hcode⟩ := ih .nil
          exact ⟨.line (charsOf body') :: found', .line hrun hfound, hunclosed, hcode⟩
      | cons x rest =>
          obtain ⟨c, d⟩ := x
          obtain rfl : c = '\n' := by simpa using hrun.2 c rfl
          -- the blanks before the line feed belong to the comment
          obtain ⟨blanks, e, ys, rfl, hblanks, hlater⟩ := hrest.feed_inv
          obtain ⟨found', hfound, hunclosed, hcode⟩ := ih (.feed (b := e) hlater)
          refine ⟨.line (charsOf (body' ++ blanks)) :: found', ?_, hunclosed, hcode⟩
          rw [← List.append_assoc]
          refine .line ⟨fun c hc => ?_, hrun.2⟩ hfound
          rw [charsOf_append, List.mem_append] at hc
          rcases hc with hc | hc
          · exact hrun.1 c hc
          · exact (Bool.and_eq_true_iff.mp (hblanks c hc)).2
  | @block a b c d body rest found hfirst _ ih =>
      obtain ⟨ys, rfl, hopened⟩ := hys.cons_inv (by decide)
      obtain ⟨ys, rfl, hinner⟩ := hopened.cons_inv (by decide)
      obtain ⟨body', ys, rfl, hbody, hclosing⟩ := hinner.append_inv
      obtain ⟨ys, rfl, hslash⟩ := hclosing.cons_inv (by decide)
      obtain ⟨ys, rfl, hrest⟩ := hslash.cons_inv (by decide)
      obtain ⟨found', hfound, hunclosed, hcode⟩ := ih hrest
      refine ⟨.block a (charsOf body') :: found', .block ?_ hfound, hunclosed, hcode⟩
      rw [closesFirst_iff] at hfirst ⊢
      rwa [hbody.pair_infix_iff rfl]
  | @unclosed a b body hopen =>
      obtain ⟨ys, rfl, hopened⟩ := hys.cons_inv (by decide)
      obtain ⟨ys, rfl, hbody⟩ := hopened.cons_inv (by decide)
      refine ⟨[.unclosed a (charsOf ys)], .unclosed ?_, rfl, .nil⟩
      rwa [hbody.pair_infix_iff rfl]

/-! ### Stripping both texts -/

variable {xs ys : List (Cell α)}

/-- The code has blanks before its line feeds and nowhere else. -/
theorem trailed_kept (h : Trailed xs ys) : Trailed (strip xs).kept (strip ys).kept := by
  obtain ⟨found, hfound, -, hcode⟩ := (composed_pieces xs).exists_trailed h
  obtain rfl := hfound.eq_pieces
  exact hcode

/-- The same block comment is not closed. -/
theorem unclosed_trailed (h : Trailed xs ys) : (strip ys).unclosed = (strip xs).unclosed := by
  obtain ⟨found, hfound, hunclosed, -⟩ := (composed_pieces xs).exists_trailed h
  obtain rfl := hfound.eq_pieces
  exact hunclosed

end Comment

end CLex
