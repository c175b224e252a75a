/-!
# Labelled Text

Each stage works on **cells**, characters with a label, and moves every label along with its
character. With the offsets of a source as labels, this tells where each character of a later
stage comes from. No stage looks into a label, so that labels may be anything.

A `Text` is a string with a list of origins that were not necessarily made for it: the list
may be shorter or longer than the string. A character beyond the end of the list has no
origin, which matters only to a stage that needs it.

## Main definitions

* `Cell`: a character with a label; `charsOf` forgets the labels, `relabel` changes them,
  `numbered` labels with offsets, `labelled?` asks for labels that may be missing.
* `Text`: characters and origins; `Text.cells` pairs them as far as both go, `Text.padded`
  keeps all characters.
-/

namespace CLex

/-! ### Cells -/

/-- A character with a label. -/
abbrev Cell (α : Type) := Char × α

/-- The characters of a list of cells. -/
def charsOf {α : Type} (cells : List (Cell α)) : List Char :=
  cells.map (·.1)

/-- The cell with another label. -/
def Cell.relabel {α β : Type} (f : α → β) (x : Cell α) : Cell β :=
  (x.1, f x.2)

/-- The cells with other labels. -/
def relabel {α β : Type} (f : α → β) (cells : List (Cell α)) : List (Cell β) :=
  cells.map (Cell.relabel f)

/-- Every character with its offset. -/
def numbered (chars : List Char) : List (Cell Int) :=
  chars.zipIdx.map fun (c, i) => (c, (i : Int))

/-- The cells with the labels that each of them must have. -/
def labelled? {α : Type} (cells : List (Cell (Option α))) : Option (List (Cell α)) :=
  cells.mapM fun (c, label) => label.map (c, ·)

/-! ### Texts -/

/-- Characters and origins, in order but not necessarily equally many. -/
structure Text where
  /-- The characters. -/
  chars : List Char
  /-- The offset in the source that each character comes from. -/
  origins : List Int
deriving DecidableEq, Repr

namespace Text

/-- A source as a text, each character at its own offset. -/
def ofString (source : String) : Text where
  chars := source.toList
  origins := (List.range source.length).map Int.ofNat

/-- The text of cells labelled with origins. -/
def ofCells (cells : List (Cell Int)) : Text where
  chars := charsOf cells
  origins := cells.map (·.2)

/-- The string of the characters. -/
def content (text : Text) : String :=
  String.ofList text.chars

/-- Characters with their origins, as far as both lists go. -/
def cells (text : Text) : List (Cell Int) :=
  text.chars.zip text.origins

/-- All characters, those beyond the list of origins without one. -/
def padded (text : Text) : List (Cell (Option Int)) :=
  text.chars.zip <| text.origins.map some ++
    List.replicate (text.chars.length - text.origins.length) none

end Text

/-! ### Views of cells and texts -/

variable {α : Type}

@[simp] theorem charsOf_nil : charsOf ([] : List (Cell α)) = [] := rfl

@[simp] theorem charsOf_cons (x : Cell α) (xs : List (Cell α)) :
    charsOf (x :: xs) = x.1 :: charsOf xs := rfl

@[simp] theorem charsOf_append (xs ys : List (Cell α)) :
    charsOf (xs ++ ys) = charsOf xs ++ charsOf ys :=
  List.map_append

/-- Other labels leave the characters alone. -/
@[simp] theorem charsOf_relabel {β : Type} (f : α → β) (xs : List (Cell α)) :
    charsOf (relabel f xs) = charsOf xs := by
  simp [charsOf, relabel, Cell.relabel, Function.comp_def]

/-- Numbering keeps the characters. -/
@[simp] theorem charsOf_numbered (chars : List Char) : charsOf (numbered chars) = chars := by
  simp [charsOf, numbered, Function.comp_def, List.zipIdx_map_fst]

@[simp] theorem labelled?_nil : labelled? ([] : List (Cell (Option α))) = some [] := rfl

/-- A list of cells has labels if the first cell has one and the others have theirs. -/
theorem labelled?_cons (c : Char) (label : Option α) (xs : List (Cell (Option α))) :
    labelled? ((c, label) :: xs) =
      label.bind fun a => (labelled? xs).map ((c, a) :: ·) := by
  cases label with
  | none => simp [labelled?]
  | some a =>
    rw [labelled?, List.mapM_cons, Option.bind_some, labelled?, Option.map_eq_bind]
    rfl

namespace Text

/-- Every character is kept when origins are missing. -/
@[simp] theorem charsOf_padded (text : Text) : charsOf text.padded = text.chars := by
  simp only [charsOf, padded]
  rw [List.map_fst_zip]
  simp
  omega

/-- Cells make a text of which they are the cells. -/
@[simp] theorem cells_ofCells (xs : List (Cell Int)) : (ofCells xs).cells = xs := by
  simp only [cells, ofCells, charsOf]
  induction xs with
  | nil => rfl
  | cons x xs ih => simp [ih]

/-- The cells of a source are its numbered characters. -/
theorem cells_ofString (source : String) : (ofString source).cells = numbered source.toList := by
  refine List.ext_getElem ?_ ?_ <;> simp [cells, ofString, numbered, String.length_toList]

end Text

end CLex
