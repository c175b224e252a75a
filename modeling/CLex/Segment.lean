import CLex.Character
import CLex.Cut
import CLex.Lexicon
import CLex.Text

/-!
# Segments

A text falls into **segments** from left to right: single whitespace characters, marks of one
or two punctuation characters, and words. A mark has two characters if they form an operator.
A word is a longest run of word characters; a run of digits goes on over a point and the run
after it, if that starts with a digit. Marks and words keep the label of their first
character.

## Main definitions

* `Segment`: the segments of a text.
* `takeWord`: the word at the start of a text.
* `segments`: the segments from left to right.

## Main results

* `flatMap_chars_segments`: the segments make up the text.
* `segments_relabel`: labels are moved along and not looked into.
-/

namespace CLex

/-- A segment of a text. -/
inductive Segment (α : Type) where
  /-- A whitespace character. -/
  | space (c : Char)
  /-- One or two punctuation characters. -/
  | mark (chars : List Char) (label : α)
  /-- A run of word characters, or two runs around a point. -/
  | word (chars : List Char) (label : α)
deriving DecidableEq, Repr

namespace Segment

variable {α : Type}

/-- The characters of a segment. -/
def chars : Segment α → List Char
  | space c => [c]
  | mark chars _ => chars
  | word chars _ => chars

/-- The same segment with another label. -/
def relabel {β : Type} (f : α → β) : Segment α → Segment β
  | space c => space c
  | mark chars label => mark chars (f label)
  | word chars label => word chars (f label)

/-- The same segment with the label that a mark or a word must have. -/
def labelled? : Segment (Option α) → Option (Segment α)
  | space c => some (space c)
  | mark chars label => label.map (mark chars)
  | word chars label => label.map (word chars)

end Segment

variable {α : Type}

/-! ### The first segment -/

/-- Whether a cell holds a word character. -/
def inWord (x : Cell α) : Bool :=
  isWordChar x.1

/-- Whether a number goes on: after digits, at a point before a digit. -/
def continuesNumber (run : List Char) (rest : List (Cell α)) : Bool :=
  run.all Char.isDigit && (rest.head?.map (·.1)) == some '.' &&
    (rest.tail.head?.map (·.1)).any Char.isDigit

/-- The word that starts with a cell, and what follows it. -/
def takeWord (x : Cell α) (rest : List (Cell α)) : List Char × List (Cell α) :=
  let run := x.1 :: charsOf (rest.takeWhile inWord)
  let after := rest.dropWhile inWord
  if continuesNumber run after then
    (run ++ '.' :: charsOf (after.tail.takeWhile inWord), after.tail.dropWhile inWord)
  else (run, after)

/-- The mark that starts with a cell, and what follows it: two characters if they form an
operator, else one. -/
def takeMark (lexicon : Lexicon) (x : Cell α) (rest : List (Cell α)) :
    List Char × List (Cell α) :=
  match rest with
  | [] => ([x.1], [])
  | y :: after =>
    if lexicon.isOperator [x.1, y.1] then ([x.1, y.1], after) else ([x.1], y :: after)

/-- The first segment, and what follows it. -/
def nextSegment (lexicon : Lexicon) (x : Cell α) (rest : List (Cell α)) :
    Segment α × List (Cell α) :=
  if isWhitespace x.1 then (.space x.1, rest)
  else if isPunctuation x.1 then
    let (chars, after) := takeMark lexicon x rest
    (.mark chars x.2, after)
  else
    let (chars, after) := takeWord x rest
    (.word chars x.2, after)

/-! ### Nothing is lost -/

/-- The characters of the word and of the rest are those of the text. -/
theorem chars_takeWord (x : Cell α) (rest : List (Cell α)) :
    (takeWord x rest).1 ++ charsOf (takeWord x rest).2 = x.1 :: charsOf rest := by
  have hsplit : charsOf (rest.takeWhile inWord) ++ charsOf (rest.dropWhile inWord) =
      charsOf rest := by
    rw [← charsOf_append, List.takeWhile_append_dropWhile]
  unfold takeWord
  dsimp only
  split
  · next h =>
    simp only [continuesNumber, Bool.and_eq_true, beq_iff_eq, Option.map_eq_some_iff] at h
    obtain ⟨⟨-, y, hy, hy'⟩, -⟩ := h
    rw [← hsplit]
    cases hafter : rest.dropWhile inWord with
    | nil => simp [hafter] at hy
    | cons z after =>
      obtain rfl : z = y := by simpa [hafter] using hy
      simp only [List.tail_cons, charsOf_cons, hy', List.cons_append, List.append_assoc,
        ← charsOf_append, List.takeWhile_append_dropWhile]
  · simp [hsplit]

/-- The characters of the mark and of the rest are those of the text. -/
theorem chars_takeMark (lexicon : Lexicon) (x : Cell α) (rest : List (Cell α)) :
    (takeMark lexicon x rest).1 ++ charsOf (takeMark lexicon x rest).2 =
      x.1 :: charsOf rest := by
  unfold takeMark
  split
  · rfl
  · split <;> simp

/-- The characters of the first segment and of the rest are those of the text. -/
theorem chars_nextSegment (lexicon : Lexicon) (x : Cell α) (rest : List (Cell α)) :
    (nextSegment lexicon x rest).1.chars ++ charsOf (nextSegment lexicon x rest).2 =
      charsOf (x :: rest) := by
  unfold nextSegment
  split
  · rfl
  · split
    · exact chars_takeMark lexicon x rest
    · exact chars_takeWord x rest

theorem takeWord_ne_nil (x : Cell α) (rest : List (Cell α)) : (takeWord x rest).1 ≠ [] := by
  unfold takeWord
  dsimp only
  split <;> simp

theorem takeMark_ne_nil (lexicon : Lexicon) (x : Cell α) (rest : List (Cell α)) :
    (takeMark lexicon x rest).1 ≠ [] := by
  unfold takeMark
  split
  · simp
  · split <;> simp

/-- A segment has at least one character. -/
theorem chars_nextSegment_ne_nil (lexicon : Lexicon) (x : Cell α) (rest : List (Cell α)) :
    (nextSegment lexicon x rest).1.chars ≠ [] := by
  unfold nextSegment
  split
  · exact List.cons_ne_nil _ _
  · split
    · exact takeMark_ne_nil lexicon x rest
    · exact takeWord_ne_nil x rest

/-- A segment takes at least one cell. -/
theorem nextSegment_rest_length_le (lexicon : Lexicon) (x : Cell α) (rest : List (Cell α)) :
    (nextSegment lexicon x rest).2.length ≤ rest.length := by
  have h := congrArg List.length (chars_nextSegment lexicon x rest)
  have := List.length_pos_iff.2 (chars_nextSegment_ne_nil lexicon x rest)
  simp only [charsOf, List.length_append, List.length_map, List.length_cons] at h
  omega

/-! ### All segments -/

/-- Cutting a text into segments. -/
def segmentCutter (lexicon : Lexicon) (α : Type) : Cutter (Cell α) (Segment α) where
  next := nextSegment lexicon
  rest_length_le := nextSegment_rest_length_le lexicon

/-- The segments of a text, from left to right. -/
def segments (lexicon : Lexicon) (cells : List (Cell α)) : List (Segment α) :=
  (segmentCutter lexicon α).pieces cells

@[simp] theorem segments_nil (lexicon : Lexicon) :
    segments lexicon ([] : List (Cell α)) = [] :=
  (segmentCutter lexicon α).pieces_nil

theorem segments_cons (lexicon : Lexicon) (x : Cell α) (rest : List (Cell α)) :
    segments lexicon (x :: rest) =
      (nextSegment lexicon x rest).1 :: segments lexicon (nextSegment lexicon x rest).2 :=
  (segmentCutter lexicon α).pieces_cons x rest

/-- The segments make up the text. -/
theorem flatMap_chars_segments (lexicon : Lexicon) (cells : List (Cell α)) :
    (segments lexicon cells).flatMap Segment.chars = charsOf cells := by
  induction cells using (segmentCutter lexicon α).pieces_induction with
  | nil => simp
  | cons x rest ih =>
    rw [segments_cons, List.flatMap_cons, ← chars_nextSegment lexicon x rest]
    exact congrArg _ ih

/-! ### Labels are moved along -/

private theorem takeMark_relabel {β : Type} (f : α → β) (lexicon : Lexicon) (x : Cell α)
    (rest : List (Cell α)) :
    takeMark lexicon (x.relabel f) (rest.map (Cell.relabel f)) =
      ((takeMark lexicon x rest).1, (takeMark lexicon x rest).2.map (Cell.relabel f)) := by
  cases rest with
  | nil => rfl
  | cons y after =>
    by_cases h : lexicon.isOperator [x.1, y.1] = true <;> simp [takeMark, Cell.relabel, h]

private theorem continuesNumber_relabel {β : Type} (f : α → β) (run : List Char)
    (rest : List (Cell α)) :
    continuesNumber run (rest.map (Cell.relabel f)) = continuesNumber run rest := by
  match rest with
  | [] => rfl
  | [_] => rfl
  | _ :: _ :: _ => rfl

private theorem takeWord_relabel {β : Type} (f : α → β) (x : Cell α) (rest : List (Cell α)) :
    takeWord (x.relabel f) (rest.map (Cell.relabel f)) =
      ((takeWord x rest).1, (takeWord x rest).2.map (Cell.relabel f)) := by
  have hin : inWord ∘ Cell.relabel f = (inWord : Cell α → Bool) := rfl
  have hchars : ∀ cells : List (Cell α),
      charsOf (cells.map (Cell.relabel f)) = charsOf cells := charsOf_relabel f
  simp only [takeWord, List.takeWhile_map, List.dropWhile_map, hin, hchars,
    continuesNumber_relabel, ← List.map_tail]
  by_cases h : continuesNumber (x.1 :: charsOf (rest.takeWhile inWord))
      (rest.dropWhile inWord) = true <;> simp [Cell.relabel, h]

/-- The first segment keeps its label, whatever the labels are. -/
theorem nextSegment_relabel {β : Type} (f : α → β) (lexicon : Lexicon) (x : Cell α)
    (rest : List (Cell α)) :
    nextSegment lexicon (x.relabel f) (rest.map (Cell.relabel f)) =
      ((nextSegment lexicon x rest).1.relabel f,
        (nextSegment lexicon x rest).2.map (Cell.relabel f)) := by
  have hchar : (x.relabel f).1 = x.1 := rfl
  simp only [nextSegment, takeMark_relabel, takeWord_relabel, hchar]
  by_cases hw : isWhitespace x.1 = true
  · rw [if_pos hw, if_pos hw]
    rfl
  · rw [if_neg hw, if_neg hw]
    by_cases hp : isPunctuation x.1 = true
    · rw [if_pos hp, if_pos hp]
      rfl
    · rw [if_neg hp, if_neg hp]
      rfl

/-- The segments keep their labels, whatever the labels are. -/
theorem segments_relabel {β : Type} (f : α → β) (lexicon : Lexicon) (cells : List (Cell α)) :
    segments lexicon (relabel f cells) = (segments lexicon cells).map (Segment.relabel f) :=
  (segmentCutter lexicon α).pieces_map (Cell.relabel f) (Segment.relabel f)
    (nextSegment_relabel f lexicon) cells

end CLex
