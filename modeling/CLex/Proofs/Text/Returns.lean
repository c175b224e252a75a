import Mathlib.Data.List.Induction
import CLex.Proofs.Position.Lines
import CLex.Proofs.Run
import CLex.Proofs.Spacing.Context
import CLex.Proofs.Text.Origins

/-!
# Carriage Returns Before Line Feeds

A line may end with a line feed, or with a carriage return and a line feed. A source with the
longer line ends is the same source with a blank at the end of each line. Every offset grows by
the number of line feeds before it, and all positions stay what they are, since a carriage
return is the last character on its line.

What the stages of an analysis have to keep is a relation between two texts that is wider than
this: `Trailed` allows any blanks before the line feeds of the second text, and other labels of
the line feeds themselves.

## Main definitions

* `withReturns`: a text with a carriage return before each line feed.
* `shift`: where an offset of the text is in the longer one.
* `Trailed`: the same text with blanks before its line feeds.

## Main results

* `LineMap.locate_withReturns`: positions stay what they are.
* `trailed_numbered`: the numbered sources are related.
* `Trailed.pair_infix_iff`: no two characters become neighbours that open or close a comment.
-/

open scoped List

namespace CLex

/-! ### Longer line ends -/

/-- A text with a carriage return before each line feed. -/
def withReturns (chars : List Char) : List Char :=
  chars.flatMap fun c => if c = '\n' then ['\r', '\n'] else [c]

/-- Where an offset of a text is when there is a carriage return before each line feed. -/
def shift (chars : List Char) (offset : Int) : Int :=
  offset + (chars.take offset.toNat).count '\n'

@[simp] theorem withReturns_nil : withReturns [] = [] := rfl

theorem withReturns_newline (chars : List Char) :
    withReturns ('\n' :: chars) = '\r' :: '\n' :: withReturns chars := rfl

theorem withReturns_of_ne {c : Char} (h : c ≠ '\n') (chars : List Char) :
    withReturns (c :: chars) = c :: withReturns chars := by
  rw [withReturns, List.flatMap_cons, if_neg h]
  rfl

@[simp] theorem withReturns_append (xs ys : List Char) :
    withReturns (xs ++ ys) = withReturns xs ++ withReturns ys :=
  List.flatMap_append

/-- Each line feed makes the text longer by one. -/
theorem length_withReturns (chars : List Char) :
    (withReturns chars).length = chars.length + chars.count '\n' := by
  induction chars with
  | nil => rfl
  | cons c cs ih =>
      by_cases hc : c = '\n'
      · subst hc
        rw [withReturns_newline, List.count_cons_self]
        simp only [List.length_cons]
        omega
      · rw [withReturns_of_ne hc, List.count_cons_of_ne hc]
        simp only [List.length_cons]
        omega

/-- There are no more line feeds than before. -/
theorem count_withReturns (chars : List Char) :
    (withReturns chars).count '\n' = chars.count '\n' := by
  induction chars with
  | nil => rfl
  | cons c cs ih =>
      by_cases hc : c = '\n'
      · subst hc
        rw [withReturns_newline, List.count_cons_of_ne (by decide), List.count_cons_self,
          List.count_cons_self, ih]
      · rw [withReturns_of_ne hc, List.count_cons_of_ne hc, List.count_cons_of_ne hc, ih]

/-! ### Positions -/

/-- The last line has no carriage return more than before. -/
private theorem lastLineLength_withReturns (chars : List Char) :
    Position.lastLineLength (withReturns chars) = Position.lastLineLength chars := by
  have hsnoc : ∀ (cs : List Char) (c : Char), c ≠ '\n' →
      Position.lastLineLength (cs ++ [c]) = Position.lastLineLength cs + 1 := by
    intro cs c hc
    simp [Position.lastLineLength, hc]
  induction chars using List.reverseRecOn with
  | nil => rfl
  | append_singleton cs c ih =>
      rw [withReturns_append]
      by_cases hc : c = '\n'
      · have hreturn := Position.lastLineLength_append_newline (withReturns cs ++ ['\r']) []
        rw [List.append_assoc] at hreturn
        rw [hc, Position.lastLineLength_append_newline]
        exact hreturn
      · rw [withReturns_of_ne hc, withReturns_nil, hsnoc _ _ hc, hsnoc _ _ hc, ih]

/-- Carriage returns do not change where a text ends. -/
theorem Position.after_withReturns (chars : List Char) :
    after (withReturns chars) = after chars := by
  rw [after, count_withReturns, lastLineLength_withReturns, after]

/-- **Positions stay what they are.** In the longer source the shifted offset has the position
that the offset has in the source. -/
theorem LineMap.locate_withReturns {source : List Char} {n : Nat} (h : n ≤ source.length) :
    (ofList (withReturns source)).locate (shift source n) = (ofList source).locate n := by
  have hlength : (source.take n).length = n := List.length_take_of_le h
  have hshift : shift source n = (withReturns (source.take n)).length := by
    rw [length_withReturns, hlength, shift, Int.toNat_natCast, Int.natCast_add]
  have hreturns : withReturns source =
      withReturns (source.take n) ++ withReturns (source.drop n) := by
    rw [← withReturns_append, List.take_append_drop]
  have hlocate := locate_length_append (source.take n) (source.drop n)
  rw [List.take_append_drop, hlength] at hlocate
  rw [hshift, hreturns, locate_length_append, Position.after_withReturns, hlocate]

/-! ### Blanks before line feeds -/

variable {α : Type}

/-- Whether a text is another one with blanks before its line feeds. The line feeds may have
other labels than they had. -/
inductive Trailed : List (Cell α) → List (Cell α) → Prop
  | nil : Trailed [] []
  | text {x : Cell α} {xs ys : List (Cell α)} :
      x.1 ≠ '\n' → Trailed xs ys → Trailed (x :: xs) (x :: ys)
  | feed {a b : α} {xs ys : List (Cell α)} :
      Trailed xs ys → Trailed (('\n', a) :: xs) (('\n', b) :: ys)
  | blank {c : Char} {a b : α} {xs ys : List (Cell α)} :
      isBlank c = true → Trailed (('\n', a) :: xs) ys → Trailed (('\n', a) :: xs) ((c, b) :: ys)

/-- A numbered text, with its labels shifted, and the longer text. -/
private theorem trailed_numberedFrom (before after : List Char) :
    Trailed (relabel (shift (before ++ after)) (numberedFrom before.length after))
      (numberedFrom (withReturns before).length (withReturns after)) := by
  induction after generalizing before with
  | nil => exact .nil
  | cons c after ih =>
      have hbefore : before ++ c :: after = (before ++ [c]) ++ after := by simp
      have hrest := ih (before ++ [c])
      rw [← hbefore, withReturns_append, List.length_append, List.length_append,
        List.length_singleton] at hrest
      by_cases hc : c = '\n'
      · subst hc
        rw [withReturns_newline, numberedFrom_cons, numberedFrom_cons, numberedFrom_cons]
        exact .blank rfl (.feed hrest)
      · have hlabel : shift (before ++ c :: after) before.length = (withReturns before).length := by
          rw [shift, Int.toNat_natCast, List.take_left, length_withReturns, Int.natCast_add]
        rw [withReturns_of_ne hc, numberedFrom_cons, numberedFrom_cons, relabel, List.map_cons,
          Cell.relabel, hlabel]
        rw [withReturns_of_ne hc] at hrest
        exact .text hc hrest

/-- A numbered source is related to the longer one, with the labels it has there. -/
theorem trailed_numbered (source : List Char) :
    Trailed (relabel (shift source) (numbered source)) (numbered (withReturns source)) :=
  trailed_numberedFrom [] source

namespace Trailed

variable {xs xs' ys : List (Cell α)}

/-- Blanks may be added before a line feed. -/
theorem blanks_append {a : α} {blanks : List (Cell α)}
    (hblanks : ∀ c ∈ charsOf blanks, isBlank c = true) (h : Trailed (('\n', a) :: xs) ys) :
    Trailed (('\n', a) :: xs) (blanks ++ ys) := by
  induction blanks with
  | nil => exact h
  | cons x blanks ih =>
      obtain ⟨hx, hblanks⟩ := List.forall_mem_cons.mp hblanks
      exact .blank hx (ih hblanks)

/-- Any other character stays at the start of the text. -/
theorem cons_inv {c : Char} {a : α} (h : Trailed ((c, a) :: xs) ys) (hc : c ≠ '\n') :
    ∃ ys', ys = (c, a) :: ys' ∧ Trailed xs ys' := by
  cases h with
  | text _ hrest => exact ⟨_, rfl, hrest⟩
  | feed _ => exact absurd rfl hc
  | blank _ _ => exact absurd rfl hc

/-- A line feed at the start of the text follows blanks. -/
theorem feed_inv {a : α} (h : Trailed (('\n', a) :: xs) ys) :
    ∃ blanks b ys', ys = blanks ++ ('\n', b) :: ys' ∧
      (∀ c ∈ charsOf blanks, isBlank c = true) ∧ Trailed xs ys' := by
  generalize hcells : ('\n', a) :: xs = cells at h
  induction h with
  | nil => simp at hcells
  | text hx _ _ =>
      obtain ⟨rfl, -⟩ := List.cons.inj hcells
      exact absurd rfl hx
  | @feed _ b _ ys hrest _ =>
      obtain ⟨-, rfl⟩ := List.cons.inj hcells
      exact ⟨[], b, ys, rfl, by simp, hrest⟩
  | @blank c _ b _ _ hc _ ih =>
      obtain ⟨blanks, d, ys', rfl, hblanks, hrest⟩ := ih hcells
      exact ⟨(c, b) :: blanks, d, ys', rfl, List.forall_mem_cons.mpr ⟨hc, hblanks⟩, hrest⟩

/-- Where a text has two parts, so has the other one. -/
theorem append_inv (h : Trailed (xs ++ xs') ys) :
    ∃ zs zs', ys = zs ++ zs' ∧ Trailed xs zs ∧ Trailed xs' zs' := by
  induction xs generalizing ys with
  | nil => exact ⟨[], ys, rfl, .nil, h⟩
  | cons x xs ih =>
      obtain ⟨c, a⟩ := x
      by_cases hc : c = '\n'
      · subst hc
        obtain ⟨blanks, b, ys, rfl, hblanks, hrest⟩ := feed_inv h
        obtain ⟨zs, zs', rfl, hzs, hzs'⟩ := ih hrest
        exact ⟨blanks ++ ('\n', b) :: zs, zs', by simp, (Trailed.feed hzs).blanks_append hblanks,
          hzs'⟩
      · obtain ⟨ys, rfl, hrest⟩ := cons_inv h hc
        obtain ⟨zs, zs', rfl, hzs, hzs'⟩ := ih hrest
        exact ⟨(c, a) :: zs, zs', rfl, .text hc hzs, hzs'⟩

/-- A part of a line is what it was. -/
theorem eq_of_notMem (hxs : '\n' ∉ charsOf xs) (h : Trailed xs ys) : ys = xs := by
  induction h with
  | nil => rfl
  | text _ _ ih => rw [ih (List.not_mem_of_not_mem_cons hxs)]
  | feed _ _ => exact absurd (List.mem_cons_self ..) hxs
  | blank _ _ _ => exact absurd (List.mem_cons_self ..) hxs

/-- A text starts with a character that is not whitespace if it did before. -/
theorem head?_eq_some_iff {d : Char} (hd : isWhitespace d = false) (h : Trailed xs ys) :
    (charsOf ys).head? = some d ↔ (charsOf xs).head? = some d := by
  cases h with
  | nil => rfl
  | text _ _ => rfl
  | feed _ => rfl
  | @blank c _ _ _ _ hc _ =>
      have hblank : c ≠ d := by
        rintro rfl
        exact Bool.false_ne_true (hd.symm.trans (Spacing.isWhitespace_of_isBlank hc))
      have hfeed : '\n' ≠ d := by
        rintro rfl
        exact absurd hd (by decide)
      simp [hblank, hfeed]

/-- The neighbours of a character that is not whitespace stay what they are. -/
theorem pair_infix_iff {c d : Char} (hd : isWhitespace d = false) (h : Trailed xs ys) :
    [c, d] <:+: charsOf ys ↔ [c, d] <:+: charsOf xs := by
  induction h with
  | nil => rfl
  | text _ hrest ih =>
      rw [charsOf_cons, charsOf_cons, pair_infix_cons_iff, pair_infix_cons_iff, ih,
        hrest.head?_eq_some_iff hd]
  | feed hrest ih =>
      rw [charsOf_cons, charsOf_cons, pair_infix_cons_iff, pair_infix_cons_iff, ih,
        hrest.head?_eq_some_iff hd]
  | blank _ hrest ih =>
      -- a blank is followed by whitespace only
      have hfeed : '\n' ≠ d := by
        rintro rfl
        exact absurd hd (by decide)
      rw [charsOf_cons, pair_infix_cons_iff, ih, hrest.head?_eq_some_iff hd]
      simp [hfeed]

end Trailed

end CLex
