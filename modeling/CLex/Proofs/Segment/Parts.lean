import CLex.Proofs.Segment.Span

/-!
# The Segments of Two Parts

Whitespace ends every segment that comes before it, if no operator contains whitespace. So a
text that is taken apart before a whitespace character has the segments of its two parts, as
if the first one had ended there.

## Main results

* `Divided.append`: two divided texts, the second of which starts with whitespace.
* `segments_append`: the segments of two parts.
-/

namespace CLex

variable {α : Type}

/-- The second character of an operator is not whitespace. -/
theorem Lexicon.IsSolid.not_isWhitespace_of_pair {lexicon : Lexicon} (hsolid : lexicon.IsSolid)
    {c d : Char} (h : String.ofList [c, d] ∈ lexicon.operators) : isWhitespace d = false :=
  hsolid _ h d (by simp)

/-- Whitespace is no fraction and cannot complete one. -/
theorem StartsFraction.of_append {chars more : List Char} (h : StartsFraction (chars ++ more))
    (hspace : ∀ c ∈ more.head?, isWhitespace c = true) : StartsFraction chars := by
  obtain ⟨d, after, hafter, hd⟩ := h
  rcases chars with - | ⟨c, - | ⟨e, chars⟩⟩
  · -- the point itself would be whitespace
    have hpoint : more.head? = some '.' := by
      rw [List.nil_append] at hafter
      rw [hafter]
      rfl
    exact absurd (hspace '.' hpoint) (by decide)
  · -- the digit after the point would be whitespace
    have hdigit : more.head? = some d := by
      rw [List.singleton_append] at hafter
      rw [(List.cons.inj hafter).2]
      rfl
    have hword := (isWordChar_iff.mp (isWordChar_of_isDigit hd)).1
    exact absurd (hspace d hdigit) (by simp [hword])
  · simp only [List.cons_append, List.cons.injEq] at hafter
    obtain ⟨rfl, rfl, -⟩ := hafter
    exact ⟨e, chars, rfl, hd⟩

/-- Whitespace is not a word character. -/
theorem not_isWordChar_of_isWhitespace {c : Char} (h : isWhitespace c = true) :
    isWordChar c = false := by
  simp [isWordChar, h]

/-- Two divided texts make up one, if the second starts with whitespace. -/
theorem Divided.append {lexicon : Lexicon} (hsolid : lexicon.IsSolid) {xs ys : List (Cell α)}
    {found more : List (Segment α)} (h : Divided lexicon xs found) (h' : Divided lexicon ys more)
    (hspace : ∀ c ∈ (charsOf ys).head?, isWhitespace c = true) :
    Divided lexicon (xs ++ ys) (found ++ more) := by
  have hword : ∀ c ∈ (charsOf ys).head?, isWordChar c = false :=
    fun c hc => not_isWordChar_of_isWhitespace (hspace c hc)
  induction h with
  | nil => exact h'
  | space hc _ ih => exact .space hc ih
  | pair hc hop _ ih => exact .pair hc hop ih
  | @single c a rest _ hc hop _ ih =>
      refine .single hc (fun d hd hmem => ?_) ih
      have hd : d ∈ (charsOf (rest ++ ys)).head? := hd
      rw [charsOf_append, List.head?_append, Option.mem_def, Option.or_eq_some_iff] at hd
      rcases hd with hd | ⟨-, hd⟩
      · exact hop d hd hmem
      · have hsecond := hsolid.not_isWhitespace_of_pair hmem
        exact Bool.false_ne_true (hsecond.symm.trans (hspace d hd))
  | @word c a run rest _ hrun hnumber _ ih =>
      rw [List.cons_append, List.append_assoc]
      refine .word ?_ ?_ ih
      · rw [charsOf_append]
        exact hrun.append hword
      · rw [charsOf_append]
        rintro ⟨hdigits, hfraction⟩
        exact hnumber ⟨hdigits, hfraction.of_append hspace⟩
  | @decimal c a b run fraction rest _ hdigits hstart hrun _ ih =>
      rw [List.cons_append, List.append_assoc, List.cons_append, List.append_assoc]
      refine .decimal hdigits hstart ?_ ih
      rw [charsOf_append]
      exact hrun.append hword

/-- A text that is taken apart before whitespace has the segments of its parts. -/
theorem segments_append {lexicon : Lexicon} (hsolid : lexicon.IsSolid) {xs ys : List (Cell α)}
    (hspace : ∀ c ∈ (charsOf ys).head?, isWhitespace c = true) :
    segments lexicon (xs ++ ys) = segments lexicon xs ++ segments lexicon ys :=
  ((divided_segments lexicon xs).append hsolid (divided_segments lexicon ys)
    hspace).eq_segments.symm

end CLex
