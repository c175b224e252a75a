import CLex.Proofs.Comment.Grammar

/-!
# Origins as Opaque Labels

Stripping and collapsing move the origins of a text along and never look into them. So what
becomes of a text can be read off what becomes of the source with the same characters: at each
offset of the source stands the origin that the text has there. A text may have too few origins,
and then the two stages differ. Stripping needs an origin for each character of code and for the
first character of each block comment, closed or not, and for no other, and fails if one of these
is missing. Collapsing never fails, and takes the text to end where its origins do.

## Main definitions

* `Text.originAt?`: the origin of a text at an offset.
* `Comment.OpensBlock`: the offsets at which block comments start.

## Main results

* `Text.padded_eq_relabel`, `Text.relabel_some_cells`: a text is a numbered source with other
  labels.
* `Text.strip?_eq_none_iff`, `Text.plain_of_strip?`: stripping in terms of the source.
* `Text.exists_strip?_ofString_content`: stripping and collapsing in terms of the source.
-/

open scoped List

namespace CLex

variable {α : Type}

/-! ### Where block comments start -/

namespace Comment

/-- Whether a block comment, closed or not, starts with the given label. -/
def OpensBlock (cells : List (Cell α)) (a : α) : Prop :=
  ∃ found body, Composed cells found ∧ (.block a body ∈ found ∨ .unclosed a body ∈ found)

/-- A piece opens a block comment if it is one, closed or not. -/
theorem opened?_eq_some_iff {p : Piece α} {a : α} :
    p.opened? = some a ↔ ∃ body, p = .block a body ∨ p = .unclosed a body := by
  cases p <;> simp [Piece.opened?, eq_comm]

/-- The labels of block comments are those with which one starts. -/
theorem mem_opened_iff {cells : List (Cell α)} {a : α} :
    a ∈ (strip cells).opened ↔ OpensBlock cells a := by
  rw [strip, List.mem_filterMap]
  constructor
  · rintro ⟨p, hp, hopened⟩
    obtain ⟨body, rfl | rfl⟩ := opened?_eq_some_iff.mp hopened
    · exact ⟨_, body, composed_pieces cells, .inl hp⟩
    · exact ⟨_, body, composed_pieces cells, .inr hp⟩
  · rintro ⟨found, body, hfound, hmem | hmem⟩
    · exact ⟨_, hfound.eq_pieces ▸ hmem, rfl⟩
    · exact ⟨_, hfound.eq_pieces ▸ hmem, rfl⟩

/-- A block comment starts with a slash. -/
theorem Composed.slash_mem {cells : List (Cell α)} {found : List (Piece α)}
    (h : Composed cells found) {p : Piece α} (hp : p ∈ found) {a : α}
    (hopened : p.opened? = some a) : ('/', a) ∈ cells := by
  induction h with
  | nil => simp at hp
  | code _ _ ih =>
      rcases List.mem_cons.mp hp with rfl | hp
      · simp [Piece.opened?] at hopened
      · exact List.mem_cons_of_mem _ (ih hp)
  | line _ _ ih =>
      rcases List.mem_cons.mp hp with rfl | hp
      · simp [Piece.opened?] at hopened
      · simp [ih hp]
  | block _ _ ih =>
      rcases List.mem_cons.mp hp with rfl | hp
      · obtain rfl := Option.some.inj hopened
        exact List.mem_cons_self ..
      · simp [ih hp]
  | unclosed _ =>
      obtain rfl := List.mem_singleton.mp hp
      obtain rfl := Option.some.inj hopened
      exact List.mem_cons_self ..

/-- A block comment starts at a cell of the source. -/
theorem slash_mem_of_mem_opened {cells : List (Cell α)} {a : α} (h : a ∈ (strip cells).opened) :
    ('/', a) ∈ cells := by
  obtain ⟨p, hp, hopened⟩ := List.mem_filterMap.mp h
  exact (composed_pieces cells).slash_mem hp hopened

/-- An open block comment is one of the block comments. -/
theorem mem_opened_of_unclosed {cells : List (Cell α)} {a : α}
    (h : (strip cells).unclosed = some a) : a ∈ (strip cells).opened := by
  have hfirst : (pieces cells).findSome? Piece.unclosed? = some a := h
  obtain ⟨body, hmem⟩ := (composed_pieces cells).findSome?_unclosed?_eq_some_iff.mp hfirst
  exact mem_opened_iff.mpr ⟨_, body, composed_pieces cells, .inr hmem⟩

/-! ### Labels that are missing -/

/-- With other labels, labels are not found if one of the code or of the block comments has none
in its place. -/
theorem Stripped.labelled?_relabel_eq_none_iff {β : Type} (f : α → Option β)
    (stripped : Stripped α) :
    (stripped.relabel f).labelled? = none ↔
      ∃ a ∈ stripped.kept.map (·.2) ++ stripped.opened, f a = none := by
  rw [Stripped.labelled?_eq_none_iff]
  constructor
  · rintro (⟨y, hy, hmissing⟩ | hmem)
    · obtain ⟨x, hx, rfl⟩ := List.mem_map.mp hy
      exact ⟨x.2, List.mem_append_left _ (List.mem_map_of_mem hx), hmissing⟩
    · obtain ⟨a, ha, hmissing⟩ := List.mem_map.mp hmem
      exact ⟨a, List.mem_append_right _ ha, hmissing⟩
  · rintro ⟨a, ha, hmissing⟩
    rcases List.mem_append.mp ha with hcode | hopened
    · obtain ⟨x, hx, rfl⟩ := List.mem_map.mp hcode
      exact .inl ⟨x.relabel f, List.mem_map_of_mem hx, hmissing⟩
    · exact .inr (List.mem_map.mpr ⟨a, hopened, hmissing⟩)

end Comment

/-! ### A text as a numbered source -/

/-- Cells with the same labels, found in two ways. -/
theorem charsOf_and_labels_of_relabel_eq {β γ : Type} {f : α → γ} {g : β → γ}
    {xs : List (Cell α)} {ys : List (Cell β)} (h : relabel f xs = relabel g ys) :
    charsOf xs = charsOf ys ∧ (xs.map (·.2)).map f = (ys.map (·.2)).map g := by
  constructor
  · rw [← charsOf_relabel f xs, h, charsOf_relabel]
  · have hlabels := congrArg (List.map Prod.snd) h
    simpa [relabel, Cell.relabel, Function.comp_def] using hlabels

namespace Text

/-- The origin that a text has at an offset, if it has one there. -/
def originAt? (text : Text) (offset : Int) : Option Int :=
  offset.toNat?.bind (text.origins[·]?)

@[simp] theorem originAt?_natCast (text : Text) (n : Nat) :
    text.originAt? n = text.origins[n]? := rfl

/-- The origin at an offset is missing if there are not as many origins. -/
theorem originAt?_eq_none_iff {text : Text} {offset : Int} (h : 0 ≤ offset) :
    text.originAt? offset = none ↔ (text.origins.length : Int) ≤ offset := by
  obtain ⟨n, rfl⟩ := Int.eq_ofNat_of_zero_le h
  rw [originAt?_natCast, List.getElem?_eq_none_iff, Int.ofNat_le]

/-- All characters of a text, numbered, with the origins that the text has there. -/
theorem padded_eq_relabel (text : Text) :
    text.padded = relabel text.originAt? (numbered text.chars) := by
  refine List.ext_getElem ?_ fun n hn hn' => ?_
  · have hlength := congrArg List.length (charsOf_padded text)
    simpa [charsOf, relabel, numbered] using hlength
  · by_cases hlt : n < text.origins.length
    · simp [padded, relabel, numbered, Cell.relabel, hlt]
    · simp [padded, relabel, numbered, Cell.relabel, hlt, List.getElem_append]

/-- The characters of a text that have an origin, numbered, with the origins that the text has
there. -/
theorem relabel_some_cells (text : Text) :
    relabel some text.cells = relabel text.originAt?
      (numbered (text.chars.take (min text.chars.length text.origins.length))) := by
  refine List.ext_getElem ?_ fun n hn hn' => ?_
  · simp [cells, relabel, numbered]
  · have hmin : n < min text.chars.length text.origins.length := by
      simpa [cells, relabel] using hn
    have hlt : n < text.origins.length := by omega
    simp [cells, relabel, numbered, Cell.relabel, hlt]

/-! ### Stripping -/

/-- What is left of the source with the same characters. -/
def plain (text : Text) : Comment.Stripped Int :=
  Comment.strip (numbered text.chars)

/-- The code of the source is found in it. -/
theorem kept_plain_sublist (text : Text) : text.plain.kept <+ numbered text.chars :=
  (Comment.composed_pieces (numbered text.chars)).code_sublist

/-- The source with the same characters can be stripped. -/
theorem strip?_ofString_content (text : Text) :
    (ofString text.content).strip? = some text.plain := by
  rw [ofString_eq_ofCells, strip?_ofCells, content, String.toList_ofList, plain]

/-- Stripping a text is stripping the source and asking the text for the origins. -/
theorem strip?_eq_labelled? (text : Text) :
    text.strip? = (text.plain.relabel text.originAt?).labelled? := by
  rw [strip?, padded_eq_relabel, Comment.strip_relabel, plain]

/-- The offsets of code increase. -/
theorem pairwise_origins_plain (text : Text) : text.plain.text.origins.Pairwise (· < ·) :=
  List.pairwise_map.mpr ((pairwise_numbered text.chars).sublist text.kept_plain_sublist)

/-- What is looked up are offsets of characters of the source. -/
theorem nonneg_of_mem_plain {text : Text} {offset : Int}
    (h : offset ∈ text.plain.text.origins ++ text.plain.opened) : 0 ≤ offset := by
  have hcell : ∃ x ∈ numbered text.chars, x.2 = offset := by
    rcases List.mem_append.mp h with hcode | hopened
    · obtain ⟨x, hx, rfl⟩ := List.mem_map.mp hcode
      exact ⟨x, text.kept_plain_sublist.subset hx, rfl⟩
    · exact ⟨_, Comment.slash_mem_of_mem_opened hopened, rfl⟩
  obtain ⟨x, hx, rfl⟩ := hcell
  obtain ⟨n, hn, -⟩ := mem_numbered_iff.mp hx
  omega

/-- Stripping fails if an origin is missing for some code or for the start of some block
comment. -/
theorem strip?_eq_none_iff {text : Text} :
    text.strip? = none ↔
      ∃ offset ∈ text.plain.text.origins ++ text.plain.opened,
        (text.origins.length : Int) ≤ offset := by
  rw [strip?_eq_labelled?, Comment.Stripped.labelled?_relabel_eq_none_iff]
  exact exists_congr fun offset =>
    and_congr_right fun h => originAt?_eq_none_iff (nonneg_of_mem_plain h)

/-- What is left of a text is what is left of the source, with the origins of the text. -/
theorem plain_of_strip? {text : Text} {stripped : Comment.Stripped Int}
    (h : text.strip? = some stripped) :
    stripped.text.chars = text.plain.text.chars ∧
      stripped.text.origins.map some = text.plain.text.origins.map text.originAt? ∧
      stripped.diagnostics = text.plain.diagnostics.map fun d =>
        { d with offset := d.offset.bind text.originAt? } := by
  rw [strip?_eq_labelled?, Comment.Stripped.labelled?_eq_some_iff] at h
  obtain ⟨hkept, hopened, hunclosed⟩ := h
  obtain ⟨hchars, hlabels⟩ := charsOf_and_labels_of_relabel_eq hkept
  refine ⟨hchars.symm, hlabels.symm, ?_⟩
  rw [Comment.Stripped.diagnostics, Comment.Stripped.diagnostics, ← hunclosed]
  cases hopen : text.plain.unclosed with
  | none => simp [Comment.Stripped.relabel, hopen]
  | some start =>
      -- the start of the open comment is one of the block comments, whose origins are all there
      have hmem : text.originAt? start ∈ text.plain.opened.map text.originAt? :=
        List.mem_map_of_mem (Comment.mem_opened_of_unclosed hopen)
      have hopened : text.plain.opened.map text.originAt? = stripped.opened.map some := hopened
      rw [hopened] at hmem
      obtain ⟨origin, -, horigin⟩ := List.mem_map.mp hmem
      simp [Comment.Stripped.relabel, hopen, ← horigin, Diagnostic.unterminatedComment]

/-! ### Collapsing -/

/-- What becomes of a text is what becomes of the source up to where the origins end, with the
origins of the text. -/
theorem collapse_eq_of_take (text : Text) :
    let source := String.ofList
      (text.chars.take (min text.chars.length text.origins.length))
    text.collapse.chars = (ofString source).collapse.chars ∧
      text.collapse.origins.map some = (ofString source).collapse.origins.map text.originAt? := by
  intro source
  have hcells := congrArg Spacing.collapse (relabel_some_cells text)
  rw [Spacing.collapse_relabel, Spacing.collapse_relabel] at hcells
  obtain ⟨hchars, hlabels⟩ := charsOf_and_labels_of_relabel_eq hcells
  rw [collapse, collapse, cells_ofString, String.toList_ofList]
  exact ⟨hchars, hlabels⟩

/-! ### Both stages -/

/-- **Origins are opaque.** Compare a text with the source that has its characters. Stripping the
source yields code at increasing offsets, and starts of block comments. Stripping the text fails
just if one of these offsets lies beyond the origins of the text, and otherwise yields the same
code and the same diagnostics, with the origins of the text at these offsets. Collapsing the text
yields what becomes of the part of the source for which there are origins, with these origins. -/
theorem exists_strip?_ofString_content (text : Text) :
    ∃ plain, (ofString text.content).strip? = some plain ∧
      plain.text.origins.Pairwise (· < ·) ∧
      (∀ offset, offset ∈ plain.opened ↔ Comment.OpensBlock (numbered text.chars) offset) ∧
      (text.strip? = none ↔
        ∃ offset ∈ plain.text.origins ++ plain.opened, (text.origins.length : Int) ≤ offset) ∧
      (∀ stripped, text.strip? = some stripped →
        stripped.text.chars = plain.text.chars ∧
          stripped.text.origins.map some = plain.text.origins.map text.originAt? ∧
          stripped.diagnostics = plain.diagnostics.map fun d =>
            { d with offset := d.offset.bind text.originAt? }) ∧
      let source := String.ofList
        (text.chars.take (min text.chars.length text.origins.length))
      text.collapse.chars = (ofString source).collapse.chars ∧
        text.collapse.origins.map some =
          (ofString source).collapse.origins.map text.originAt? :=
  ⟨text.plain, strip?_ofString_content text, pairwise_origins_plain text,
    fun _ => Comment.mem_opened_iff, strip?_eq_none_iff, fun _ => plain_of_strip?,
    collapse_eq_of_take text⟩

/-- A text with origins in no order, one of which is missing within an open block comment. -/
theorem exists_strip?_ofString_content_of_open_comment :
    ∃ (text : Text) (plain stripped : Comment.Stripped Int),
      text = ⟨"a/*b*/\t/*".toList, [7, -3, 0, 0, 5, 5, 40, 2]⟩ ∧
      (ofString text.content).strip? = some plain ∧ text.strip? = some stripped ∧
      stripped.text.chars = plain.text.chars ∧
      stripped.text.origins.map some = plain.text.origins.map text.originAt? ∧
      stripped.diagnostics = [.unterminatedComment 2] ∧
      stripped.diagnostics = plain.diagnostics.map fun d =>
        { d with offset := d.offset.bind text.originAt? } := by
  have hstrip : strip? ⟨"a/*b*/\t/*".toList, [7, -3, 0, 0, 5, 5, 40, 2]⟩ = some
      { kept := [('a', 7), ('\t', 40)], opened := [-3, 2], unclosed := some 2 } := by
    decide +kernel
  obtain ⟨plain, hplain, -, -, -, hstripped, -⟩ :=
    exists_strip?_ofString_content ⟨"a/*b*/\t/*".toList, [7, -3, 0, 0, 5, 5, 40, 2]⟩
  obtain ⟨hchars, horigins, hdiagnostics⟩ := hstripped _ hstrip
  exact ⟨_, plain, _, rfl, hplain, hstrip, hchars, horigins, rfl, hdiagnostics⟩

end Text

end CLex
