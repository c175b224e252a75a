import CLex.Proofs.Comment.Grammar
import CLex.Proofs.Text.Walk

/-!
# Stripping Character by Character

Comments can be stripped in one walk through a text that only remembers what it is within: code,
a line comment, or a block comment that was opened at some origin. At each place it looks for the
two characters that end this or open something else. Characters of code are added to the text that
is built, each with its origin, and so is the line feed that ends a line comment.

Such a **scan** finds what the grammar of comments says. Where a character of code or the first
one of a block comment has no origin, both fail.

## Main definitions

* `Comment.Scan`, `Comment.Scan.step?`: the state of the walk, and one step of it.
* `Comment.Scan.result`: what is reported at the end.

## Main results

* `Comment.Scan.result_run?_line`, `Comment.Scan.run?_block`: how the walk leaves a comment.
* `Comment.Scan.result_run?_start`: the walk yields what stripping yields.
-/

open scoped List

namespace CLex

namespace Comment

open Text (Place Assembly Walk)

/-! ### The pieces of a source that is stripped -/

namespace Stripped

variable {α : Type}

/-- What is left of a source that consists of some pieces. -/
def ofPieces (found : List (Piece α)) : Stripped α where
  kept := found.filterMap Piece.code?
  opened := found.filterMap Piece.opened?
  unclosed := found.findSome? Piece.unclosed?

/-- Code must have its label. -/
theorem labelled?_code (c : Char) (label : Option α) (found : List (Piece (Option α))) :
    (ofPieces (.code c label :: found)).labelled? =
      label.bind fun a => (ofPieces found).labelled?.map fun stripped =>
        { stripped with kept := (c, a) :: stripped.kept } := by
  have hkept : CLex.labelled? (ofPieces (.code c label :: found)).kept =
      label.bind fun a => (CLex.labelled? (ofPieces found).kept).map ((c, a) :: ·) :=
    labelled?_cons c label _
  have hopened : (ofPieces (.code c label :: found)).opened = (ofPieces found).opened := rfl
  have hunclosed : (ofPieces (.code c label :: found)).unclosed = (ofPieces found).unclosed := rfl
  rw [labelled?, labelled?, hkept, hopened, hunclosed]
  cases label with
  | none => rfl
  | some a =>
      cases CLex.labelled? (ofPieces found).kept with
      | none => rfl
      | some kept => cases (ofPieces found).opened.mapM id <;> rfl

/-- A line comment needs no label. -/
theorem labelled?_line (body : List Char) (found : List (Piece (Option α))) :
    (ofPieces (.line body :: found)).labelled? = (ofPieces found).labelled? := rfl

/-- A block comment must have its label. -/
theorem labelled?_block (label : Option α) (body : List Char) (found : List (Piece (Option α))) :
    (ofPieces (.block label body :: found)).labelled? =
      label.bind fun a => (ofPieces found).labelled?.map fun stripped =>
        { stripped with opened := a :: stripped.opened } := by
  have hkept : (ofPieces (.block label body :: found)).kept = (ofPieces found).kept := rfl
  have hopened : (ofPieces (.block label body :: found)).opened.mapM id =
      label.bind fun a => ((ofPieces found).opened.mapM id).map (a :: ·) := by
    change (label :: (ofPieces found).opened).mapM id = _
    rw [List.mapM_cons]
    cases label with
    | none => rfl
    | some a => cases (ofPieces found).opened.mapM id <;> rfl
  have hunclosed : (ofPieces (.block label body :: found)).unclosed =
      (ofPieces found).unclosed := rfl
  rw [labelled?, labelled?, hkept, hopened, hunclosed]
  cases label with
  | none => cases CLex.labelled? (ofPieces found).kept <;> rfl
  | some a =>
      cases CLex.labelled? (ofPieces found).kept with
      | none => rfl
      | some kept => cases (ofPieces found).opened.mapM id <;> rfl

/-- An open block comment must have its label, too. -/
theorem labelled?_unclosed (label : Option α) (body : List Char) :
    (ofPieces [.unclosed label body]).labelled? =
      label.map fun a => { kept := [], opened := [a], unclosed := some a } := by
  cases label <;> rfl

end Stripped

/-! ### The walk -/

/-- What a scan is within. -/
inductive Mode where
  /-- Code. -/
  | code
  /-- A line comment. -/
  | line
  /-- A block comment that was opened at an origin. -/
  | block (opened : Int)
deriving DecidableEq, Repr

/-- The state of a scan. -/
structure Scan where
  /-- The place in the text. -/
  place : Place
  /-- The text that was built so far. -/
  built : Assembly := {}
  /-- What the place is within. -/
  mode : Mode := .code
deriving DecidableEq, Repr

namespace Scan

/-- The character at a place is kept. This fails if it has no origin. -/
def keep? (text : Text) (place : Place) (built : Assembly) : Option Scan :=
  match place.look 0 with
  | .char c => (text.originAt? place.index).map fun origin =>
    { place := place.move 1, built := built.add (String.ofList [c]) origin }
  | _ => none

/-- One step. Within a comment only its own end is looked for. -/
def step? (text : Text) : Scan → Option Scan
  | { place, built, mode := .code } =>
    if place.nextTwo = "//" then some { place := place.move 2, built, mode := .line }
    else if place.nextTwo = "/*" then
      (text.originAt? place.index).map fun opened =>
        { place := place.move 2, built, mode := .block opened }
    else keep? text place built
  | { place, built, mode := .line } =>
    if place.look 0 = .char '\n' then keep? text place built
    else some { place := place.move 1, built, mode := .line }
  | { place, built, mode := .block opened } =>
    if place.nextTwo = "*/" then some { place := place.move 2, built }
    else some { place := place.move 1, built, mode := .block opened }

/-- What is reported at the end: the text, and a block comment that the end is within. -/
def result (s : Scan) : Text × List Diagnostic :=
  (s.built.text,
    match s.mode with
    | .block opened => [.unterminatedComment opened]
    | _ => [])

/-- A character that is kept is one step. -/
theorem place_of_keep? {text : Text} {place : Place} {built : Assembly} {next : Scan}
    (h : keep? text place built = some next) : next.place = place.move 1 := by
  rw [keep?] at h
  split at h
  · obtain ⟨origin, -, rfl⟩ := Option.map_eq_some_iff.mp h
    rfl
  · simp at h

/-- A step moves on by one character or by two. -/
theorem place_of_step? {text : Text} {s next : Scan} (h : s.step? text = some next) :
    next.place = s.place.move 1 ∨ next.place = s.place.move 2 := by
  obtain ⟨place, built, mode⟩ := s
  cases mode with
  | code =>
      rw [step?] at h
      split at h
      · obtain rfl := Option.some.inj h
        exact .inr rfl
      · split at h
        · obtain ⟨opened, -, rfl⟩ := Option.map_eq_some_iff.mp h
          exact .inr rfl
        · exact .inl (place_of_keep? h)
  | line =>
      rw [step?] at h
      split at h
      · exact .inl (place_of_keep? h)
      · obtain rfl := Option.some.inj h
        exact .inl rfl
  | block opened =>
      rw [step?] at h
      split at h
      · obtain rfl := Option.some.inj h
        exact .inr rfl
      · obtain rfl := Option.some.inj h
        exact .inl rfl

/-- The scan of a text. -/
def walk (text : Text) : Walk Scan where
  place := place
  step? := step? text
  moves _ _ := place_of_step?

theorem walk_step? (text : Text) (s : Scan) : (walk text).step? s = s.step? text := rfl

variable {text : Text} {place : Place} {built : Assembly}

/-! ### Code -/

section Code

variable {c : Char} {label : Option Int} {rest : List (Cell (Option Int))}
  (h : text.Ahead place ((c, label) :: rest))

include h

/-- A character that is kept becomes the last one of the text that is built. -/
theorem keep?_eq :
    keep? text place built = label.map fun origin =>
      ⟨place.move 1, built.add (String.ofList [c]) origin, .code⟩ := by
  have horigin : text.originAt? place.index = label := h.originAt?_cons
  rw [keep?, h.look_cons, ← horigin]

/-- A character that opens no comment is kept. -/
theorem step?_code (hopen : ¬ Opens (c :: charsOf rest)) :
    step? text ⟨place, built, .code⟩ = keep? text place built := by
  rw [Opens, not_or] at hopen
  rw [step?, if_neg (mt h.nextTwo_eq_iff.mp hopen.1), if_neg (mt h.nextTwo_eq_iff.mp hopen.2)]

end Code

/-- A slash and a star open a block comment, which must have an origin. -/
theorem step?_opening {a b : Option Int} {rest : List (Cell (Option Int))}
    (h : text.Ahead place (('/', a) :: ('*', b) :: rest)) :
    step? text ⟨place, built, .code⟩ = a.map fun opened =>
      ⟨place.move 2, built, .block opened⟩ := by
  have horigin : text.originAt? place.index = a := h.originAt?_cons
  have hline : ¬ ['/', '/'] <+: charsOf (('/', a) :: ('*', b) :: rest) := by
    simp [List.cons_prefix_cons]
  have hblock : ['/', '*'] <+: charsOf (('/', a) :: ('*', b) :: rest) := List.prefix_append ..
  rw [step?, if_neg (mt h.nextTwo_eq_iff.mp hline), if_pos (h.nextTwo_eq_iff.mpr hblock), horigin]

/-! ### Out of a comment -/

/-- A walk that is within a line comment comes to the end of the line, and reports what it would
report if it were within code there. -/
theorem result_run?_line (built : Assembly) {cells : List (Cell (Option Int))}
    (h : text.Ahead place cells) :
    ∃ next, text.Ahead next (cells.dropWhile onLine) ∧
      ((walk text).run? ⟨place, built, .line⟩).map result =
        ((walk text).run? ⟨next, built, .code⟩).map result := by
  induction cells generalizing place with
  | nil =>
      refine ⟨place, h, ?_⟩
      rw [Walk.run?_of_isAtEnd h.isAtEnd_nil, Walk.run?_of_isAtEnd h.isAtEnd_nil]
      rfl
  | cons x rest ih =>
      obtain ⟨c, label⟩ := x
      have hlook : place.look 0 = .char c := h.look_cons
      by_cases hc : c = '\n'
      · -- the line feed is kept by the same step as in code
        have hopen : ¬ Opens (c :: charsOf rest) := by
          rw [Opens, pair_prefix_cons_iff, pair_prefix_cons_iff]
          simp [hc]
        have hstep : (walk text).step? ⟨place, built, .line⟩ =
            (walk text).step? ⟨place, built, .code⟩ := by
          refine Eq.trans ?_ (step?_code h hopen).symm
          rw [walk_step?, step?, if_pos (by rw [hlook, hc])]
        refine ⟨place, by simpa [onLine, hc] using h, ?_⟩
        rw [Walk.run?_of_not_isAtEnd h.isAtEnd_cons, Walk.run?_of_not_isAtEnd h.isAtEnd_cons, hstep]
      · have hstep : (walk text).step? ⟨place, built, .line⟩ =
            some ⟨place.move 1, built, .line⟩ := by
          rw [walk_step?, step?, if_neg (by simpa [hlook] using hc)]
        rw [Walk.run?_of_step h.isAtEnd_cons hstep, List.dropWhile_cons_of_pos (by simpa [onLine])]
        exact ih h.move_one

/-- A walk that is within a block comment comes to what follows the comment, or to the end if
nothing closes it. -/
theorem run?_block (built : Assembly) {cells : List (Cell (Option Int))}
    (h : text.Ahead place cells) (opened : Int) :
    match closeBlock? cells with
    | some (_, after) => ∃ next, text.Ahead next after ∧
        (walk text).run? ⟨place, built, .block opened⟩ = (walk text).run? ⟨next, built, .code⟩
    | none => ∃ next, (walk text).run? ⟨place, built, .block opened⟩ =
        some ⟨next, built, .block opened⟩ := by
  induction cells generalizing place with
  | nil => exact ⟨place, Walk.run?_of_isAtEnd h.isAtEnd_nil⟩
  | cons x rest ih =>
      by_cases hclose : closes x rest = true
      · have hpair : ['*', '/'] <+: charsOf (x :: rest) := closes_eq_true_iff.mp hclose
        have hstep : (walk text).step? ⟨place, built, .block opened⟩ =
            some ⟨place.move 2, built, .code⟩ := by
          rw [walk_step?, step?, if_pos (h.nextTwo_eq_iff.mpr hpair)]
        rw [closeBlock?_cons, if_pos hclose]
        cases rest with
        | nil => simp [closes] at hclose
        | cons y after =>
            refine ⟨place.move 2, h.move_two, ?_⟩
            exact Walk.run?_of_step h.isAtEnd_cons hstep
      · have hpair : ¬ ['*', '/'] <+: charsOf (x :: rest) := mt closes_eq_true_iff.mpr hclose
        have hstep : (walk text).step? ⟨place, built, .block opened⟩ =
            some ⟨place.move 1, built, .block opened⟩ := by
          rw [walk_step?, step?, if_neg (mt h.nextTwo_eq_iff.mp hpair)]
        have ih := ih h.move_one
        rw [closeBlock?_cons, if_neg hclose, Walk.run?_of_step h.isAtEnd_cons hstep]
        cases hrest : closeBlock? rest with
        | some r => simpa [hrest] using ih
        | none => simpa [hrest] using ih

/-! ### The whole walk -/

/-- A walk within code finds the pieces of which what comes next is composed, and adds the code to
what was built before. -/
theorem result_run?_code {cells : List (Cell (Option Int))} {found : List (Piece (Option Int))}
    (hfound : Composed cells found) (h : text.Ahead place cells) {kept : List (Cell Int)}
    (hbuilt : built.text = .ofCells kept) :
    ((walk text).run? ⟨place, built, .code⟩).map result =
      (Stripped.ofPieces found).labelled?.map fun stripped =>
        (.ofCells (kept ++ stripped.kept), stripped.diagnostics) := by
  -- by how the cells are composed: after each piece the walk is within code again
  induction hfound generalizing place built kept with
  | nil =>
      rw [Walk.run?_of_isAtEnd h.isAtEnd_nil, Option.map_some, result, hbuilt]
      simp [Stripped.ofPieces, Stripped.labelled?, Stripped.diagnostics]
  | @code c label rest found hopen _ ih =>
      rw [Walk.run?_of_not_isAtEnd h.isAtEnd_cons, walk_step?, step?_code h hopen, keep?_eq h,
        Stripped.labelled?_code]
      cases label with
      | none => rfl
      | some origin =>
          have hrest : text.Ahead (place.move 1) rest := h.move_one
          rw [Option.map_some, Option.bind_some, Option.bind_some,
            ih hrest (Assembly.text_add_singleton hbuilt c origin), Option.map_map]
          simp only [Function.comp_def, List.append_assoc]
          rfl
  | @line a b body rest found hrun _ ih =>
      have hstep : (walk text).step? ⟨place, built, .code⟩ =
          some ⟨place.move 2, built, .line⟩ := by
        rw [walk_step?, step?, if_pos (h.nextTwo_eq_iff.mpr (List.prefix_append ..))]
      have hcells : IsLongestRun onLine body rest := (isLongestRun_map (f := Prod.fst)).mp hrun
      have hbody : text.Ahead (place.move 2) (body ++ rest) := h.move_two
      obtain ⟨next, hnext, hline⟩ := result_run?_line built hbody
      rw [hcells.dropWhile_eq] at hnext
      rw [Walk.run?_of_step h.isAtEnd_cons hstep, Stripped.labelled?_line]
      exact hline.trans (ih hnext hbuilt)
  | @block a b c d body rest found hfirst _ ih =>
      rw [Walk.run?_of_not_isAtEnd h.isAtEnd_cons, walk_step?, step?_opening h,
        Stripped.labelled?_block]
      cases a with
      | none => rfl
      | some opened =>
          have hbody : text.Ahead (place.move 2) (body ++ ('*', c) :: ('/', d) :: rest) := h.move_two
          have hblock := run?_block built hbody opened
          rw [closeBlock?_append hfirst] at hblock
          obtain ⟨next, hnext, hrun⟩ := hblock
          rw [Option.map_some, Option.bind_some, Option.bind_some, hrun, ih hnext hbuilt,
            Option.map_map]
          rfl
  | @unclosed a b body hopen =>
      rw [Walk.run?_of_not_isAtEnd h.isAtEnd_cons, walk_step?, step?_opening h,
        Stripped.labelled?_unclosed]
      cases a with
      | none => rfl
      | some opened =>
          have hblock := run?_block built h.move_two opened
          rw [closeBlock?_eq_none_iff.mpr hopen] at hblock
          obtain ⟨next, hrun⟩ := hblock
          rw [Option.map_some, Option.bind_some, hrun, Option.map_some, Option.map_some,
            Option.map_some, result, hbuilt, List.append_nil]
          rfl

/-- **A scan strips the comments.** A walk from the start of a text yields the text that is left of
it and the diagnostics, and fails just where stripping fails. -/
theorem result_run?_start (text : Text) :
    ((walk text).run? { place := .ofString text.content }).map result =
      text.strip?.map fun stripped => (stripped.text, stripped.diagnostics) :=
  have hbuilt : ({} : Assembly).text = .ofCells [] := rfl
  result_run?_code (composed_pieces text.padded) text.ahead_start hbuilt

end Scan

end Comment

end CLex
