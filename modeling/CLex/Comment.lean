import CLex.Cut
import CLex.Diagnostic
import CLex.Text

/-!
# Comments

A source is a sequence of **pieces**: characters of code, line comments from two slashes up
to the end of the line, and block comments from a slash and a star up to the nearest star and
slash. The line feed that ends a line comment is code. Block comments do not nest, and one
that is never closed reaches to the end. Stripping the comments keeps the code with its
labels.

## Main definitions

* `Comment.Piece`: the pieces of a source.
* `Comment.closeBlock?`: the body of a block comment, and what follows it.
* `Comment.pieces`: the pieces from left to right.
* `Comment.strip`: the code, the labels of the block comments, and the one left open.

## Main results

* `Comment.flatMap_chars_pieces`: the pieces make up the source.
* `Comment.strip_relabel`: labels are moved along and not looked into.
-/

namespace CLex

namespace Comment

/-! ### Pieces -/

/-- A piece of a source. A comment that is looked up later keeps the label of its first
character. -/
inductive Piece (α : Type) where
  /-- A character outside of comments. -/
  | code (c : Char) (label : α)
  /-- Two slashes, and the rest of the line. -/
  | line (body : List Char)
  /-- A slash and a star, the body, a star and a slash. -/
  | block (label : α) (body : List Char)
  /-- A slash and a star, and the rest of the source. -/
  | unclosed (label : α) (body : List Char)
deriving DecidableEq, Repr

namespace Piece

variable {α : Type}

/-- The characters of the source that a piece takes. -/
def chars : Piece α → List Char
  | code c _ => [c]
  | line body => '/' :: '/' :: body
  | block _ body => '/' :: '*' :: body ++ ['*', '/']
  | unclosed _ body => '/' :: '*' :: body

/-- The character of code, with its label. -/
def code? : Piece α → Option (Cell α)
  | code c label => some (c, label)
  | _ => none

/-- The label of a block comment, closed or not. -/
def opened? : Piece α → Option α
  | block label _ => some label
  | unclosed label _ => some label
  | _ => none

/-- The label of a block comment that is not closed. -/
def unclosed? : Piece α → Option α
  | unclosed label _ => some label
  | _ => none

/-- The same piece with another label. -/
def relabel {β : Type} (f : α → β) : Piece α → Piece β
  | code c label => code c (f label)
  | line body => line body
  | block label body => block (f label) body
  | unclosed label body => unclosed (f label) body

end Piece

/-! ### Cutting -/

variable {α : Type}

/-- Whether a star stands before a slash. -/
def closes (x : Cell α) (rest : List (Cell α)) : Bool :=
  x.1 == '*' && (rest.head?.map (·.1)) == some '/'

/-- The search for the end of a block comment, with the part of the body read so far in
reverse. -/
def closeBlockFrom? (body : List Char) : List (Cell α) → Option (List Char × List (Cell α))
  | [] => none
  | x :: rest =>
    if closes x rest then some (body.reverse, rest.tail)
    else closeBlockFrom? (x.1 :: body) rest

/-- The characters before the first star and slash, and the cells after them. -/
def closeBlock? (cells : List (Cell α)) : Option (List Char × List (Cell α)) :=
  closeBlockFrom? [] cells

/-- Whether a cell stays on its line. -/
def onLine (x : Cell α) : Bool :=
  x.1 != '\n'

/-- The first piece, and what follows it. -/
def next (x : Cell α) (rest : List (Cell α)) : Piece α × List (Cell α) :=
  match rest with
  | [] => (.code x.1 x.2, [])
  | y :: body =>
    if x.1 = '/' ∧ y.1 = '/' then
      (.line (charsOf (body.takeWhile onLine)), body.dropWhile onLine)
    else if x.1 = '/' ∧ y.1 = '*' then
      match closeBlock? body with
      | some (inner, after) => (.block x.2 inner, after)
      | none => (.unclosed x.2 (charsOf body), [])
    else (.code x.1 x.2, y :: body)

/-! ### The end of a block comment -/

private theorem closeBlockFrom?_eq (body : List Char) (cells : List (Cell α)) :
    closeBlockFrom? body cells =
      (closeBlock? cells).map fun r => (body.reverse ++ r.1, r.2) := by
  induction cells generalizing body with
  | nil => rfl
  | cons x rest ih =>
    unfold closeBlock?
    rw [closeBlockFrom?, closeBlockFrom?]
    split
    · simp
    · rw [ih, ih [x.1]]
      simp [Function.comp_def]

@[simp] theorem closeBlock?_nil : closeBlock? ([] : List (Cell α)) = none := rfl

/-- A block comment ends here, or its body goes on. -/
theorem closeBlock?_cons (x : Cell α) (rest : List (Cell α)) :
    closeBlock? (x :: rest) =
      if closes x rest then some ([], rest.tail)
      else (closeBlock? rest).map fun r => (x.1 :: r.1, r.2) := by
  unfold closeBlock?
  rw [closeBlockFrom?]
  split
  · simp
  · rw [closeBlockFrom?_eq]
    rfl

/-- The body, the two closing characters and what follows make up the cells. -/
theorem charsOf_of_closeBlock? {cells after : List (Cell α)} {body : List Char}
    (h : closeBlock? cells = some (body, after)) :
    charsOf cells = body ++ '*' :: '/' :: charsOf after := by
  induction cells generalizing body with
  | nil => simp at h
  | cons x rest ih =>
    rw [closeBlock?_cons] at h
    split at h
    · next hc =>
      obtain ⟨rfl, rfl⟩ := Prod.mk.inj (Option.some.inj h)
      simp only [closes, Bool.and_eq_true, beq_iff_eq, Option.map_eq_some_iff] at hc
      obtain ⟨hx, y, hy, hy'⟩ := hc
      cases rest with
      | nil => simp at hy
      | cons z rest => simp_all
    · obtain ⟨⟨b, a⟩, hb, he⟩ := Option.map_eq_some_iff.1 h
      obtain ⟨rfl, rfl⟩ := Prod.mk.inj he
      simp [ih hb]

/-- The cells after a block comment are among those of its body and end. -/
theorem length_of_closeBlock? {cells after : List (Cell α)} {body : List Char}
    (h : closeBlock? cells = some (body, after)) : after.length < cells.length := by
  have := congrArg List.length (charsOf_of_closeBlock? h)
  simp only [charsOf, List.length_map, List.length_append, List.length_cons] at this
  omega

/-! ### All pieces -/

private theorem length_dropWhile_le (p : Cell α → Bool) (l : List (Cell α)) :
    (l.dropWhile p).length ≤ l.length :=
  (List.dropWhile_suffix p).length_le

/-- A piece takes at least one cell. -/
theorem next_rest_length_le (x : Cell α) (rest : List (Cell α)) :
    (next x rest).2.length ≤ rest.length := by
  unfold next
  split
  · simp
  · next y body =>
    have := length_dropWhile_le onLine body
    split
    · simp only [List.length_cons]; omega
    · split
      · split
        · next h =>
          have := length_of_closeBlock? h
          simp only [List.length_cons]; omega
        · simp
      · simp

/-- Cutting a source at its comments. -/
def cutter (α : Type) : Cutter (Cell α) (Piece α) where
  next := next
  rest_length_le := next_rest_length_le

/-- The pieces of a source, from left to right. -/
def pieces (cells : List (Cell α)) : List (Piece α) :=
  (cutter α).pieces cells

@[simp] theorem pieces_nil : pieces ([] : List (Cell α)) = [] :=
  (cutter α).pieces_nil

theorem pieces_cons (x : Cell α) (rest : List (Cell α)) :
    pieces (x :: rest) = (next x rest).1 :: pieces (next x rest).2 :=
  (cutter α).pieces_cons x rest

/-- The first piece and the rest make up the cells. -/
theorem chars_next (x : Cell α) (rest : List (Cell α)) :
    (next x rest).1.chars ++ charsOf (next x rest).2 = charsOf (x :: rest) := by
  unfold next
  split
  · rfl
  · next y body =>
    split
    · next h =>
      simp only [Piece.chars, List.cons_append, ← charsOf_append,
        List.takeWhile_append_dropWhile, charsOf_cons, h]
    · split
      · next h =>
        split
        · next hb => simp [Piece.chars, charsOf_of_closeBlock? hb, h]
        · simp [Piece.chars, h]
      · rfl

/-- The pieces make up the source. -/
theorem flatMap_chars_pieces (cells : List (Cell α)) :
    (pieces cells).flatMap Piece.chars = charsOf cells := by
  induction cells using (cutter α).pieces_induction with
  | nil => simp
  | cons x rest ih =>
    rw [pieces_cons, List.flatMap_cons, ← chars_next x rest]
    exact congrArg _ ih

/-! ### Stripping -/

/-- What is left of a source without its comments. -/
structure Stripped (α : Type) where
  /-- The code. -/
  kept : List (Cell α)
  /-- The labels of all block comments. -/
  opened : List α
  /-- The label of the block comment that is not closed. -/
  unclosed : Option α
deriving DecidableEq, Repr

/-- The code of a source, and its block comments. -/
def strip (cells : List (Cell α)) : Stripped α :=
  let found := pieces cells
  { kept := found.filterMap Piece.code?
    opened := found.filterMap Piece.opened?
    unclosed := found.findSome? Piece.unclosed? }

namespace Stripped

/-- The same with other labels. -/
def relabel {β : Type} (f : α → β) (stripped : Stripped α) : Stripped β where
  kept := CLex.relabel f stripped.kept
  opened := stripped.opened.map f
  unclosed := stripped.unclosed.map f

/-- The code as a text. -/
def text (stripped : Stripped Int) : Text :=
  .ofCells stripped.kept

/-- One diagnostic if a block comment is not closed. -/
def diagnostics (stripped : Stripped Int) : List Diagnostic :=
  stripped.unclosed.toList.map .unterminatedComment

/-- The same with the labels that the code and every block comment must have. -/
def labelled? (stripped : Stripped (Option α)) : Option (Stripped α) := do
  let kept ← CLex.labelled? stripped.kept
  let opened ← stripped.opened.mapM id
  return { kept, opened, unclosed := stripped.unclosed.join }

end Stripped

/-! ### Labels are moved along -/

private theorem closes_relabel {β : Type} (f : α → β) (x : Cell α) (rest : List (Cell α)) :
    closes (x.relabel f) (rest.map (Cell.relabel f)) = closes x rest := by
  cases rest <;> rfl

private theorem closeBlock?_relabel {β : Type} (f : α → β) (cells : List (Cell α)) :
    closeBlock? (cells.map (Cell.relabel f)) =
      (closeBlock? cells).map fun r => (r.1, r.2.map (Cell.relabel f)) := by
  induction cells with
  | nil => rfl
  | cons x rest ih =>
    rw [List.map_cons, closeBlock?_cons, closeBlock?_cons, closes_relabel, ih]
    split
    · rw [Option.map_some, List.map_tail]
    · rw [Option.map_map, Option.map_map]
      rfl

/-- The first piece keeps its label, whatever the labels are. -/
theorem next_relabel {β : Type} (f : α → β) (x : Cell α) (rest : List (Cell α)) :
    next (x.relabel f) (rest.map (Cell.relabel f)) =
      ((next x rest).1.relabel f, (next x rest).2.map (Cell.relabel f)) := by
  cases rest with
  | nil => rfl
  | cons y body =>
    have hon : onLine ∘ Cell.relabel f = (onLine : Cell α → Bool) := rfl
    have hchars : ∀ cells : List (Cell α),
        charsOf (cells.map (Cell.relabel f)) = charsOf cells := charsOf_relabel f
    by_cases hline : x.1 = '/' ∧ y.1 = '/'
    · simp [next, Cell.relabel, hline, List.takeWhile_map, List.dropWhile_map, hon, hchars,
        Piece.relabel]
    · by_cases hblock : x.1 = '/' ∧ y.1 = '*'
      · cases hb : closeBlock? body <;>
          simp [next, Cell.relabel, hblock, closeBlock?_relabel, hb, hchars, Piece.relabel]
      · simp [next, Cell.relabel, hline, hblock, Piece.relabel]

/-- The pieces keep their labels, whatever the labels are. -/
theorem pieces_relabel {β : Type} (f : α → β) (cells : List (Cell α)) :
    pieces (relabel f cells) = (pieces cells).map (Piece.relabel f) :=
  (cutter α).pieces_map (Cell.relabel f) (Piece.relabel f) (next_relabel f) cells

/-- Stripping moves labels along and does not look into them. -/
theorem strip_relabel {β : Type} (f : α → β) (cells : List (Cell α)) :
    strip (relabel f cells) = (strip cells).relabel f := by
  have hcode : ∀ p : Piece α, (p.relabel f).code? = p.code?.map (Cell.relabel f) := by
    intro p; cases p <;> rfl
  have hopened : ∀ p : Piece α, (p.relabel f).opened? = p.opened?.map f := by
    intro p; cases p <;> rfl
  have hunclosed : ∀ p : Piece α, (p.relabel f).unclosed? = p.unclosed?.map f := by
    intro p; cases p <;> rfl
  have hfirst : ∀ ps : List (Piece α), (ps.map (Piece.relabel f)).findSome? Piece.unclosed? =
      (ps.findSome? Piece.unclosed?).map f := by
    intro ps
    induction ps with
    | nil => rfl
    | cons p ps ih => cases hp : p.unclosed? <;> simp [hunclosed, hp, ih]
  rw [strip, pieces_relabel]
  simp only [strip, Stripped.relabel, hfirst, List.filterMap_map, Function.comp_def, hcode,
    hopened, relabel, List.map_filterMap]

/-- A source without its comments. -/
def stripSource (source : String) : String :=
  String.ofList (charsOf (strip (numbered source.toList)).kept)

end Comment

/-- A text without its comments. This fails if a character of the code, or the first one of
a block comment, has no origin; characters within comments need none. -/
def Text.strip? (text : Text) : Option (Comment.Stripped Int) :=
  (Comment.strip text.padded).labelled?

end CLex
