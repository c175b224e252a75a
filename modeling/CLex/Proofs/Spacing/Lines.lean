import Mathlib.Data.List.SplitBy
import CLex.Proofs.Comment.LineEnds

/-!
# Collapsing Line by Line

Collapsing reads a text from left to right and asks of each blank what stands before it. What
comes of it can be said without an order of reading: a text consists of lines, and a line of
runs of blanks and of other characters. Of each line the run of blanks at its start goes, and
any other run of blanks becomes a single space in the place of its first character, one at the
end of the line as well. The line feeds between the lines stay.

## Main definitions

* `lines`, `joinLines`: the lines of a text, and the text with given lines and line feeds.
* `Spacing.runs`: the runs of blanks of a text, and its other cells.
* `Spacing.squeezeLine`: a line whose runs of blanks have become single spaces.

## Main results

* `joinLines_lines`: a text consists of its lines and line feeds.
* `Spacing.collapseAfter_eq_squeeze`: collapsing within a line.
* `Spacing.collapse_eq_joinLines`: collapsing line by line.
-/

namespace CLex

variable {α : Type}

/-! ### Lines -/

/-- The lines of a text: what stands before, between and after the line feeds. -/
def lines (cells : List (Cell α)) : List (List (Cell α)) :=
  cells.splitOnP (·.1 == '\n')

/-- Lines one after the other, with a line feed between each two of them, the line feeds having
the given labels. -/
def joinLines : List (List (Cell α)) → List α → List (Cell α)
  | line :: later, a :: feeds => line ++ ('\n', a) :: joinLines later feeds
  | later, _ => later.flatten

/-- What holds of a single line, and of a line before a text of which it holds, holds of every
text. -/
theorem lines_induction {motive : List (Cell α) → Prop}
    (last : ∀ line, '\n' ∉ charsOf line → motive line)
    (feed : ∀ line a rest, '\n' ∉ charsOf line → motive rest → motive (line ++ ('\n', a) :: rest))
    (cells : List (Cell α)) : motive cells := by
  -- the part of the first line that was read so far stands in front
  suffices h : ∀ line, '\n' ∉ charsOf line → motive (line ++ cells) from h [] List.not_mem_nil
  induction cells with
  | nil =>
      intro line hline
      rw [List.append_nil]
      exact last line hline
  | cons x xs ih =>
      intro line hline
      obtain ⟨c, a⟩ := x
      by_cases hc : c = '\n'
      · subst hc
        exact feed line a xs hline (ih [] List.not_mem_nil)
      · rw [List.append_cons]
        refine ih _ ?_
        rw [charsOf_append, List.mem_append, not_or]
        exact ⟨hline, by simpa using Ne.symm hc⟩

/-- A text without line feeds is a single line. -/
theorem lines_of_notMem {line : List (Cell α)} (h : '\n' ∉ charsOf line) : lines line = [line] := by
  refine List.splitOnP_eq_singleton fun x hx => ?_
  rw [beq_eq_false_iff_ne]
  rintro hfeed
  exact h (hfeed ▸ List.mem_map_of_mem hx)

/-- A text that starts with a line and a line feed goes on with further lines. -/
theorem lines_append_newline {line : List (Cell α)} (h : '\n' ∉ charsOf line) (a : α)
    (rest : List (Cell α)) : lines (line ++ ('\n', a) :: rest) = line :: lines rest := by
  have hfirst : line.splitOnP (·.1 == '\n') = [line] := lines_of_notMem h
  rw [lines, List.splitOnP_append_cons _ _ rfl, hfirst]
  rfl

/-- There is one line feed less than there are lines. -/
theorem lineFeeds_append_newline {line : List (Cell α)} (h : '\n' ∉ charsOf line) (a : α)
    (rest : List (Cell α)) : lineFeeds (line ++ ('\n', a) :: rest) = a :: lineFeeds rest := by
  rw [lineFeeds_append, lineFeeds_of_notMem h, lineFeeds_cons_newline, List.nil_append]

/-- A single line is the whole text. -/
theorem joinLines_singleton (line : List (Cell α)) : joinLines [line] [] = line := by
  simp [joinLines]

/-- A text consists of its lines and line feeds. -/
theorem joinLines_lines (cells : List (Cell α)) :
    joinLines (lines cells) (lineFeeds cells) = cells := by
  induction cells using lines_induction with
  | last line hline =>
      rw [lines_of_notMem hline, lineFeeds_of_notMem hline, joinLines_singleton]
  | feed line a rest hline ih =>
      rw [lines_append_newline hline, lineFeeds_append_newline hline, joinLines, ih]

namespace Spacing

/-! ### Runs of blanks -/

/-- The runs of blanks of a text, each as long as possible, and its other cells, each by
itself. -/
def runs (cells : List (Cell α)) : List (List (Cell α)) :=
  cells.splitBy fun x y => isBlank x.1 && isBlank y.1

/-- A run of blanks as a single space in the place of its first one; other cells stay. -/
def squeezeRun : List (Cell α) → List (Cell α)
  | [] => []
  | x :: rest => if isBlank x.1 then [(' ', x.2)] else x :: rest

/-- A text whose runs of blanks have become single spaces. -/
def squeeze (cells : List (Cell α)) : List (Cell α) :=
  (runs cells).flatMap squeezeRun

/-- Whether a cell holds a blank. -/
def inGap (x : Cell α) : Bool :=
  isBlank x.1

/-- A line without the blanks at its start, whose other runs of blanks have become single
spaces. -/
def squeezeLine (line : List (Cell α)) : List (Cell α) :=
  squeeze (line.dropWhile inGap)

/-- A cell that holds no blank is by itself. -/
theorem runs_cons_of_not_isBlank {c : Char} (h : isBlank c = false) (a : α)
    (xs : List (Cell α)) : runs ((c, a) :: xs) = [(c, a)] :: runs xs := by
  rw [runs, ← List.singleton_append, List.splitBy_append fun y hy z _ => ?_]
  · rfl
  · obtain rfl : (c, a) = y := by simpa using hy
    rw [h, Bool.false_and]

/-- A run of blanks goes on up to the next cell that holds none. -/
theorem runs_cons_of_isBlank {c : Char} (h : isBlank c = true) (a : α) (xs : List (Cell α)) :
    runs ((c, a) :: xs) = ((c, a) :: xs.takeWhile inGap) :: runs (xs.dropWhile inGap) := by
  obtain ⟨hrun, hrest⟩ := IsLongestRun.takeWhile_dropWhile inGap xs
  have hblanks : ∀ y ∈ (c, a) :: xs.takeWhile inGap, isBlank y.1 = true :=
    List.forall_mem_cons.mpr ⟨h, hrun⟩
  have hchain : ((c, a) :: xs.takeWhile inGap).IsChain
      fun y z => (isBlank y.1 && isBlank z.1) = true := by
    refine List.Pairwise.isChain (List.pairwise_iff_forall_sublist.mpr fun {y z} hyz => ?_)
    rw [hblanks y (hyz.subset (by simp)), hblanks z (hyz.subset (by simp)), Bool.and_true]
  have hsplit : (c, a) :: xs = ((c, a) :: xs.takeWhile inGap) ++ xs.dropWhile inGap := by
    rw [List.cons_append, List.takeWhile_append_dropWhile]
  rw [runs, hsplit, List.splitBy_append fun y _ z hz => ?_,
    List.splitBy_of_isChain (List.cons_ne_nil _ _) hchain]
  · rfl
  · have hz : isBlank z.1 = false := hrest z hz
    rw [hz, Bool.and_false]

/-- A cell that holds no blank stays. -/
theorem squeeze_cons_of_not_isBlank {c : Char} (h : isBlank c = false) (a : α)
    (xs : List (Cell α)) : squeeze ((c, a) :: xs) = (c, a) :: squeeze xs := by
  rw [squeeze, runs_cons_of_not_isBlank h, List.flatMap_cons, squeezeRun, if_neg (by simp [h])]
  rfl

/-- A blank becomes a space, and the blanks that follow it go. -/
theorem squeeze_cons_of_isBlank {c : Char} (h : isBlank c = true) (a : α) (xs : List (Cell α)) :
    squeeze ((c, a) :: xs) = (' ', a) :: squeeze (xs.dropWhile inGap) := by
  rw [squeeze, runs_cons_of_isBlank h, List.flatMap_cons, squeezeRun, if_pos h]
  rfl

/-! ### Collapsing line by line -/

/-- Within a line, all runs of blanks become single spaces, without the one at the start if
nothing stands before it that is not whitespace. -/
theorem collapseAfter_eq_squeeze {line : List (Cell α)} (h : '\n' ∉ charsOf line)
    (previous : Option Char) :
    collapseAfter previous line =
      squeeze (if followsText previous then line else line.dropWhile inGap) := by
  induction line generalizing previous with
  | nil => cases followsText previous <;> rfl
  | cons x xs ih =>
      obtain ⟨c, a⟩ := x
      rw [charsOf_cons, List.mem_cons, not_or] at h
      obtain ⟨hc, hxs⟩ := h
      cases hb : isBlank c with
      | false =>
          have hfeed : (c == '\n') = false := beq_eq_false_iff_ne.mpr (Ne.symm hc)
          have hfollows : followsText (some c) = true := by
            rw [followsText_some, isWhitespace_eq, hb, hfeed]
            rfl
          have hstays : ((c, a) :: xs).dropWhile inGap = (c, a) :: xs :=
            List.dropWhile_cons_of_neg (by simp [inGap, hb])
          rw [hstays, ite_self, collapseAfter_cons_of_not_isBlank hb, ih hxs, if_pos hfollows,
            squeeze_cons_of_not_isBlank hb]
      | true =>
          have hrest : collapse xs = squeeze (xs.dropWhile inGap) := ih hxs none
          by_cases hprevious : followsText previous = true
          · rw [if_pos hprevious, collapseAfter_cons_of_followsText hb hprevious, hrest,
              squeeze_cons_of_isBlank hb]
          · have hgoes : ((c, a) :: xs).dropWhile inGap = xs.dropWhile inGap :=
              List.dropWhile_cons_of_pos hb
            rw [if_neg hprevious,
              collapseAfter_cons_of_not_followsText hb (Bool.eq_false_iff.mpr hprevious), hrest,
              hgoes]

/-- A line is collapsed as its runs of blanks say. -/
theorem collapse_line {line : List (Cell α)} (h : '\n' ∉ charsOf line) :
    collapse line = squeezeLine line :=
  collapseAfter_eq_squeeze h none

/-- **Collapsing goes line by line.** What comes of a text are its lines, of each of which the
run of blanks at the start is gone and any other run of blanks has become a single space, with
the line feeds of the text between them. -/
theorem collapse_eq_joinLines (cells : List (Cell α)) :
    collapse cells = joinLines ((lines cells).map squeezeLine) (lineFeeds cells) := by
  induction cells using lines_induction with
  | last line hline =>
      rw [lines_of_notMem hline, lineFeeds_of_notMem hline, List.map_singleton,
        joinLines_singleton, collapse_line hline]
  | feed line a rest hline ih =>
      rw [lines_append_newline hline, lineFeeds_append_newline hline, List.map_cons, joinLines,
        collapse_append_newline, collapse_line hline, ih]

end Spacing

end CLex
