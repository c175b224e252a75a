import CLex.Proofs.Comment.Marks
import CLex.Proofs.Spacing.Context

/-!
# Comments and Spacing

Collapsing the spacing of a source leaves its comments what they are: no comment opens or
closes elsewhere, since the two characters that open or close it stay neighbours, and no two
others become neighbours. Stripping the comments may bring blanks together that were apart,
so that the spacing has to be collapsed again; but it makes no difference then whether it was
collapsed before.

## Main results

* `Comment.Composed.exists_collapseAfter`: what a source in normal spacing is composed of.
* `Comment.collapse_kept_collapse`, `Comment.unclosed_collapse`: stripping a source in normal
  spacing.
* `Comment.opensNowhere_collapseAfter`: no comment opens by collapsing.
-/

open scoped List

namespace CLex

namespace Comment

open Spacing

variable {α : Type}

/-! ### Marks stay where they are -/

/-- No comment opens by collapsing. -/
theorem opensNowhere_collapseAfter {previous : Option Char} {cells : List (Cell α)} :
    OpensNowhere (charsOf (collapseAfter previous cells)) ↔ OpensNowhere (charsOf cells) := by
  rw [OpensNowhere, OpensNowhere, pair_infix_collapseAfter_iff rfl rfl,
    pair_infix_collapseAfter_iff rfl rfl]

/-- A character of code does not open a comment by collapsing what follows it. -/
theorem opens_collapseAfter_iff {c : Char} {cells : List (Cell α)} :
    Opens (c :: charsOf (collapseAfter (some c) cells)) ↔ Opens (c :: charsOf cells) := by
  rw [opens_cons_iff, opens_cons_iff]
  refine and_congr_right ?_
  rintro rfl
  exact or_congr (head?_collapseAfter_eq_some_iff rfl rfl) (head?_collapseAfter_eq_some_iff rfl rfl)

/-- The rest of a line is still the rest of its line. -/
private theorem isLongestRun_collapseAfter {p q : Option Char} {body rest : List (Cell α)}
    (h : IsLongestRun (· != '\n') (charsOf body) (charsOf rest)) :
    IsLongestRun (· != '\n') (charsOf (collapseAfter p body)) (charsOf (collapseAfter q rest)) := by
  constructor
  · intro c hc
    obtain ⟨x, hx, rfl⟩ := List.mem_map.mp hc
    obtain ⟨y, hy, -, hchar | ⟨hspace, -⟩⟩ := exists_of_mem_collapseAfter hx
    · rw [hchar]
      exact h.1 y.1 (List.mem_map_of_mem hy)
    · rw [hspace]
      rfl
  · cases rest with
    | nil => exact h.2
    | cons x rest =>
        obtain ⟨c, a⟩ := x
        obtain rfl : c = '\n' := by simpa using h.2 c rfl
        rw [collapseAfter_cons_of_not_isBlank isBlank_newline]
        exact h.2

/-- What follows a line comment is at the start of a line, or there is nothing. -/
private theorem not_isBlank_of_isLongestRun {run : List Char} {rest : List Char}
    (h : IsLongestRun (· != '\n') run rest) : ∀ c ∈ rest.head?, isBlank c = false := by
  intro c hc
  obtain rfl : c = '\n' := by simpa using h.2 c hc
  rfl

/-! ### Composition -/

/-- **Collapsing keeps the comments.** In normal spacing a source is composed in the same way:
the same block comment is open at its end, and its code is the same up to spacing. The code
may follow other text than it does in the source, where a comment before it is text. -/
theorem Composed.exists_collapseAfter {cells : List (Cell α)} {found : List (Piece α)}
    (h : Composed cells found) (previous : Option Char) :
    ∃ found', Composed (collapseAfter previous cells) found' ∧
      found'.findSome? Piece.unclosed? = found.findSome? Piece.unclosed? ∧
      ∀ p, (followsText p = true → followsText previous = true) →
        collapseAfter p (found'.filterMap Piece.code?) =
          collapseAfter p (found.filterMap Piece.code?) := by
  induction h generalizing previous with
  | nil => exact ⟨[], .nil, rfl, fun _ _ => rfl⟩
  | @code c a rest found hopen _ ih =>
      cases hb : isBlank c with
      | false =>
          obtain ⟨found', hfound, hunclosed, hcode⟩ := ih (some c)
          refine ⟨.code c a :: found', ?_, hunclosed, fun p _ => ?_⟩
          · rw [collapseAfter_cons_of_not_isBlank hb]
            exact .code (mt opens_collapseAfter_iff.mp hopen) hfound
          · simp only [List.filterMap_cons, Piece.code?]
            rw [collapseAfter_cons_of_not_isBlank hb, collapseAfter_cons_of_not_isBlank hb,
              hcode (some c) id]
      | true =>
          obtain ⟨found', hfound, hunclosed, hcode⟩ := ih none
          have hcode : collapse (found'.filterMap Piece.code?) =
              collapse (found.filterMap Piece.code?) := hcode none id
          cases hprevious : followsText previous with
          | false =>
              refine ⟨found', ?_, hunclosed, fun p hp => ?_⟩
              · rw [collapseAfter_cons_of_not_followsText hb hprevious]
                exact hfound
              · have hp : followsText p = false :=
                  Bool.eq_false_iff.mpr fun h => Bool.false_ne_true (hp h)
                simp only [List.filterMap_cons, Piece.code?]
                rw [collapseAfter_cons_of_not_followsText hb hp,
                  collapseAfter_of_not_followsText hp, hcode]
          | true =>
              refine ⟨.code ' ' a :: found', ?_, hunclosed, fun p _ => ?_⟩
              · rw [collapseAfter_cons_of_followsText hb hprevious]
                exact .code (by simp [opens_cons_iff]) hfound
              · have hspace : isBlank ' ' = true := rfl
                simp only [List.filterMap_cons, Piece.code?]
                cases hp : followsText p with
                | false =>
                    rw [collapseAfter_cons_of_not_followsText hb hp,
                      collapseAfter_cons_of_not_followsText hspace hp, hcode]
                | true =>
                    rw [collapseAfter_cons_of_followsText hb hp,
                      collapseAfter_cons_of_followsText hspace hp, hcode]
  | @line a b body rest found hrun _ ih =>
      obtain ⟨found', hfound, hunclosed, hcode⟩ := ih previous
      refine ⟨.line (charsOf (collapseAfter (some '/') body)) :: found', ?_, hunclosed, hcode⟩
      have hstart := collapseAfter_eq_of_head? (not_isBlank_of_isLongestRun hrun)
      rw [collapseAfter_cons_of_not_isBlank rfl, collapseAfter_cons_of_not_isBlank rfl,
        collapseAfter_append, hstart _ previous]
      exact .line (isLongestRun_collapseAfter hrun) hfound
  | @block a b c d body rest found hfirst _ ih =>
      -- the closing slash is text, whatever the code after the comment follows
      obtain ⟨found', hfound, hunclosed, hcode⟩ := ih (some '/')
      refine ⟨.block a (charsOf (collapseAfter (some '*') body)) :: found', ?_, hunclosed,
        fun p _ => hcode p fun _ => rfl⟩
      rw [collapseAfter_cons_of_not_isBlank rfl, collapseAfter_cons_of_not_isBlank rfl,
        collapseAfter_append, collapseAfter_cons_of_not_isBlank rfl,
        collapseAfter_cons_of_not_isBlank rfl]
      refine .block (closesFirst_iff.mpr ?_) hfound
      rw [pair_infix_collapseAfter_iff rfl rfl]
      exact closesFirst_iff.mp hfirst
  | @unclosed a b body hopen =>
      refine ⟨[.unclosed a (charsOf (collapseAfter (some '*') body))], ?_, rfl, fun _ _ => rfl⟩
      rw [collapseAfter_cons_of_not_isBlank rfl, collapseAfter_cons_of_not_isBlank rfl]
      refine .unclosed ?_
      rwa [pair_infix_collapseAfter_iff rfl rfl]

/-! ### Stripping a source in normal spacing -/

/-- The code is the same up to spacing. -/
theorem collapse_kept_collapse (cells : List (Cell α)) :
    collapse (strip (collapse cells)).kept = collapse (strip cells).kept := by
  obtain ⟨found, hfound, -, hcode⟩ := (composed_pieces cells).exists_collapseAfter none
  obtain rfl := hfound.eq_pieces
  exact hcode none id

/-- The same block comment is not closed. -/
theorem unclosed_collapse (cells : List (Cell α)) :
    (strip (collapse cells)).unclosed = (strip cells).unclosed := by
  obtain ⟨found, hfound, hunclosed, -⟩ := (composed_pieces cells).exists_collapseAfter none
  obtain rfl := hfound.eq_pieces
  exact hunclosed

end Comment

end CLex
