import CLex.Comment
import CLex.Lexing
import CLex.Spacing

/-!
# Texts Whose Characters All Have an Origin

A text made of cells has exactly one origin for each character. On such a text no stage
fails, and every stage is the function on cells that it is built from. A source is such a
text: its cells are its characters, numbered by their offsets.

Origins beyond the last character are never looked at, so that the same holds of a text with
more origins than characters.

## Main results

* `labelled?_eq_some_iff`, `labelled?_eq_none_iff`: when labels are found.
* `Text.strip?_of_length_le`, `Text.lexing?_of_length_le`: the stages on texts with enough
  origins.
* `Text.ofString_eq_ofCells`: a source is the text of its numbered characters.
* `Text.strip?_ofCells`, `Text.lexing?_ofCells`, `Text.collapse_ofCells`: the stages on
  texts made of cells.
* `numberedFrom_append`, `numbered_append_cons`: the numbers of parts of a text.
* `mem_numbered_iff`, `pairwise_numbered`: a numbered character stands at its number, and
  the numbers increase.
-/

namespace CLex

variable {α : Type}

/-! ### Labels that say nothing -/

/-- With the same label everywhere, cells are no more than their characters. -/
theorem relabel_const {β : Type} (b : β) (cells : List (Cell α)) :
    relabel (fun _ => b) cells = (charsOf cells).map (·, b) := by
  rw [relabel, charsOf, List.map_map]
  rfl

/-! ### Labels that are there -/

/-- Labels that are all there are found. -/
theorem labelled?_relabel_some (cells : List (Cell α)) :
    labelled? (relabel some cells) = some cells := by
  induction cells with
  | nil => rfl
  | cons x xs ih =>
      rw [relabel, List.map_cons, Cell.relabel, labelled?_cons, ← relabel, ih]
      rfl

private theorem mapM_id_map_some (labels : List α) :
    (labels.map some).mapM id = some labels := by
  induction labels with
  | nil => rfl
  | cons a as ih =>
      rw [List.map_cons, List.mapM_cons, ih]
      rfl

/-- Labels that are found are all there. -/
theorem labelled?_eq_some_iff {cells : List (Cell (Option α))} {found : List (Cell α)} :
    labelled? cells = some found ↔ cells = relabel some found := by
  constructor
  · intro h
    induction cells generalizing found with
    | nil =>
        obtain rfl : [] = found := Option.some.inj h
        rfl
    | cons x xs ih =>
        obtain ⟨c, label⟩ := x
        rw [labelled?_cons] at h
        obtain ⟨a, rfl, h⟩ := Option.bind_eq_some_iff.mp h
        obtain ⟨ys, hys, rfl⟩ := Option.map_eq_some_iff.mp h
        rw [ih hys]
        rfl
  · rintro rfl
    exact labelled?_relabel_some found

/-- Labels are not found if a cell has none. -/
theorem labelled?_eq_none_iff {cells : List (Cell (Option α))} :
    labelled? cells = none ↔ ∃ x ∈ cells, x.2 = none := by
  induction cells with
  | nil => simp
  | cons x xs ih =>
      obtain ⟨c, label⟩ := x
      simp only [labelled?_cons, List.mem_cons, exists_eq_or_imp, ← ih]
      cases label with
      | none => simp
      | some a => simp

private theorem mapM_id_eq_some_iff {labels : List (Option α)} {found : List α} :
    labels.mapM id = some found ↔ labels = found.map some := by
  constructor
  · intro h
    induction labels generalizing found with
    | nil =>
        obtain rfl : [] = found := Option.some.inj h
        rfl
    | cons label labels ih =>
        rw [List.mapM_cons] at h
        obtain ⟨a, hlabel, h⟩ := Option.bind_eq_some_iff.mp h
        obtain ⟨as, has, h⟩ := Option.bind_eq_some_iff.mp h
        obtain rfl : a :: as = found := Option.some.inj h
        obtain rfl : label = some a := hlabel
        rw [ih has]
        rfl
  · rintro rfl
    exact mapM_id_map_some found

private theorem mapM_id_eq_none_iff {labels : List (Option α)} :
    labels.mapM id = none ↔ none ∈ labels := by
  induction labels with
  | nil => simp
  | cons label labels ih =>
      rw [List.mapM_cons, List.mem_cons, ← ih]
      cases label with
      | none => simp
      | some a => cases labels.mapM id <;> simp

/-- Labels of marks and words that are all there are found. -/
theorem mapM_labelled?_relabel_some (segments : List (Segment α)) :
    (segments.map (Segment.relabel some)).mapM Segment.labelled? = some segments := by
  induction segments with
  | nil => rfl
  | cons s ss ih =>
      have hs : (s.relabel some).labelled? = some s := by cases s <;> rfl
      rw [List.map_cons, List.mapM_cons, hs, ih]
      rfl

/-- Stripped comments whose labels are all there. -/
theorem Comment.Stripped.labelled?_relabel_some (stripped : Comment.Stripped α) :
    (stripped.relabel some).labelled? = some stripped := by
  obtain ⟨kept, opened, unclosed⟩ := stripped
  have hunclosed : (unclosed.map some).join = unclosed := by cases unclosed <;> rfl
  simp only [labelled?, relabel, CLex.labelled?_relabel_some, mapM_id_map_some, hunclosed]
  rfl

/-- Labels are found if the code and every block comment have theirs. -/
theorem Comment.Stripped.labelled?_eq_some_iff {stripped : Comment.Stripped (Option α)}
    {found : Comment.Stripped α} :
    stripped.labelled? = some found ↔
      stripped.kept = CLex.relabel some found.kept ∧
        stripped.opened = found.opened.map some ∧ stripped.unclosed.join = found.unclosed := by
  rw [← CLex.labelled?_eq_some_iff, ← mapM_id_eq_some_iff]
  obtain ⟨kept, opened, unclosed⟩ := found
  simp only [labelled?, Option.bind_eq_bind, Option.bind_eq_some_iff, Option.pure_def,
    Option.some.injEq, Comment.Stripped.mk.injEq]
  constructor
  · rintro ⟨_, hkept, _, hopened, rfl, rfl, rfl⟩
    exact ⟨hkept, hopened, rfl⟩
  · rintro ⟨hkept, hopened, rfl⟩
    exact ⟨kept, hkept, opened, hopened, rfl, rfl, rfl⟩

/-- Labels are not found if some code or some block comment has none. -/
theorem Comment.Stripped.labelled?_eq_none_iff {stripped : Comment.Stripped (Option α)} :
    stripped.labelled? = none ↔
      (∃ x ∈ stripped.kept, x.2 = none) ∨ none ∈ stripped.opened := by
  rw [← CLex.labelled?_eq_none_iff, ← mapM_id_eq_none_iff, labelled?]
  cases CLex.labelled? stripped.kept with
  | none => simp
  | some kept => cases stripped.opened.mapM id <;> simp

/-! ### Texts with enough origins -/

namespace Text

/-- With an origin for each character, and perhaps more, no character lacks its origin. -/
theorem padded_of_length_le {text : Text} (h : text.chars.length ≤ text.origins.length) :
    text.padded = relabel some text.cells := by
  have hmissing : text.chars.length - text.origins.length = 0 := by omega
  rw [padded, hmissing, List.replicate_zero, List.append_nil, List.zip_map_right]
  rfl

/-- Comments are stripped from the cells of a text with enough origins. -/
theorem strip?_of_length_le {text : Text} (h : text.chars.length ≤ text.origins.length) :
    text.strip? = some (Comment.strip text.cells) := by
  rw [strip?, padded_of_length_le h, Comment.strip_relabel,
    Comment.Stripped.labelled?_relabel_some]

/-- The cells of a text with enough origins are lexed. -/
theorem lexing?_of_length_le {text : Text} (h : text.chars.length ≤ text.origins.length)
    (lexicon : Lexicon) (lines : LineMap) :
    text.lexing? lexicon lines = some (.ofCells lexicon lines text.cells) := by
  rw [lexing?, padded_of_length_le h, segments_relabel, mapM_labelled?_relabel_some]
  rfl

/-! ### Stages on texts made of cells -/

/-- A text made of cells has one origin for each character. -/
theorem length_ofCells (cells : List (Cell Int)) :
    (ofCells cells).chars.length = (ofCells cells).origins.length := by
  simp [ofCells, charsOf]

/-- A source is the text of its numbered characters. -/
theorem ofString_eq_ofCells (source : String) :
    ofString source = ofCells (numbered source.toList) := by
  have horigins : (List.range source.toList.length).map Int.ofNat =
      (numbered source.toList).map (·.2) := by
    refine List.ext_getElem ?_ fun n hn hn' => ?_
    · simp [numbered]
    · simp [numbered]
  rw [ofString, ofCells, charsOf_numbered, ← horigins, String.length_toList]

/-- Comments are stripped from the cells. -/
theorem strip?_ofCells (cells : List (Cell Int)) :
    (ofCells cells).strip? = some (Comment.strip cells) := by
  rw [strip?_of_length_le (Nat.le_of_eq (length_ofCells cells)), cells_ofCells]

/-- Spacing is collapsed in the cells. -/
theorem collapse_ofCells (cells : List (Cell Int)) :
    (ofCells cells).collapse = ofCells (Spacing.collapse cells) := by
  rw [collapse, cells_ofCells]

/-- The cells are lexed. -/
theorem lexing?_ofCells (lexicon : Lexicon) (lines : LineMap) (cells : List (Cell Int)) :
    (ofCells cells).lexing? lexicon lines = some (.ofCells lexicon lines cells) := by
  rw [lexing?_of_length_le (Nat.le_of_eq (length_ofCells cells)), cells_ofCells]

end Text

/-! ### Numbered characters -/

/-- Every character with its offset in a source, of which the text is a part that starts at a
given offset. -/
def numberedFrom (offset : Nat) (chars : List Char) : List (Cell Int) :=
  (chars.zipIdx offset).map fun (c, i) => (c, (i : Int))

theorem numberedFrom_zero (chars : List Char) : numberedFrom 0 chars = numbered chars := rfl

theorem numberedFrom_cons (offset : Nat) (c : Char) (chars : List Char) :
    numberedFrom offset (c :: chars) = (c, (offset : Int)) :: numberedFrom (offset + 1) chars :=
  rfl

/-- The second part of a text starts where the first one ends. -/
theorem numberedFrom_append (offset : Nat) (xs ys : List Char) :
    numberedFrom offset (xs ++ ys) =
      numberedFrom offset xs ++ numberedFrom (offset + xs.length) ys := by
  rw [numberedFrom, List.zipIdx_append, List.map_append]
  rfl

@[simp] theorem charsOf_numberedFrom (offset : Nat) (chars : List Char) :
    charsOf (numberedFrom offset chars) = chars := by
  simp [charsOf, numberedFrom, Function.comp_def, List.zipIdx_map_fst]

/-- In a larger source all offsets are greater by the one at which the text starts. -/
theorem numberedFrom_eq_relabel (offset : Nat) (chars : List Char) :
    numberedFrom offset chars = relabel (· + (offset : Int)) (numbered chars) := by
  rw [numberedFrom, List.zipIdx_eq_map_add, relabel, numbered, List.map_map, List.map_map]
  refine List.map_congr_left fun x _ => ?_
  simp only [Function.comp_apply, Cell.relabel, Prod.mk.injEq, true_and]
  omega

/-- The numbers of a second part go on after a character between it and the first. -/
theorem numbered_append_cons (xs : List Char) (c : Char) (ys : List Char) :
    numbered (xs ++ c :: ys) =
      numbered xs ++ (c, (xs.length : Int)) ::
        relabel (· + (xs.length + 1 : Int)) (numbered ys) := by
  rw [← numberedFrom_zero, numberedFrom_append, numberedFrom_cons, numberedFrom_eq_relabel _ ys,
    Nat.zero_add]
  rfl

/-- A numbered character stands at its number. -/
theorem mem_numbered_iff {chars : List Char} {x : Cell Int} :
    x ∈ numbered chars ↔ ∃ n : Nat, x.2 = n ∧ chars[n]? = some x.1 := by
  obtain ⟨c, offset⟩ := x
  simp only [numbered, List.mem_map, Prod.exists, Prod.mk.injEq, List.mem_zipIdx_iff_getElem?]
  constructor
  · rintro ⟨d, n, hd, rfl, rfl⟩
    exact ⟨n, rfl, hd⟩
  · rintro ⟨n, rfl, hc⟩
    exact ⟨c, n, hc, rfl, rfl⟩

/-- The numbers increase from left to right. -/
theorem pairwise_numbered (chars : List Char) :
    (numbered chars).Pairwise (fun x y => x.2 < y.2) := by
  rw [List.pairwise_iff_getElem]
  intro i j hi hj hij
  simp only [numbered, List.getElem_map, List.getElem_zipIdx]
  omega

/-- A cell of a numbered text divides it at its number. -/
theorem eq_of_numbered_eq_append {chars : List Char} {before after : List (Cell Int)}
    {x : Cell Int} (h : numbered chars = before ++ x :: after) :
    x.2 = before.length ∧ chars = charsOf before ++ x.1 :: charsOf after := by
  constructor
  · have hget : (numbered chars)[before.length]? = some x := by simp [h]
    simp only [numbered, List.getElem?_map, List.getElem?_zipIdx, Option.map_map,
      Option.map_eq_some_iff] at hget
    obtain ⟨c, -, rfl⟩ := hget
    simp
  · rw [← charsOf_cons, ← charsOf_append, ← h, charsOf_numbered]

end CLex
