import CLex.Proofs.Comment.Grammar

/-!
# Comment Marks

Comments open and close with two characters, so that texts without such a pair are simple: a
source in which no pair opens a comment is all code, and a block comment closes for the first
time where its body has no pair that closes it. Stripping the comments of a source leaves no
pair that opens another one, since a slash of code is never followed by a comment.

## Main results

* `Comment.composed_of_opensNowhere`, `Comment.strip_of_opensNowhere`: a source without
  comments.
* `Comment.opensNowhere_kept`: the code of a source opens no comment.
* `Comment.closesFirst_iff`: the bodies of block comments.
* `Comment.strip_leaves_nothing_open`: stripping a source or a text twice.
-/

open scoped List

namespace CLex

namespace Comment

variable {α : Type}

/-! ### Texts without marks -/

/-- Whether no comment opens in a text: there are neither two slashes nor a slash and a
star. -/
def OpensNowhere (chars : List Char) : Prop :=
  ¬ ['/', '/'] <:+: chars ∧ ¬ ['/', '*'] <:+: chars

theorem opensNowhere_nil : OpensNowhere [] := by
  simp [OpensNowhere]

/-- A text opens a comment if it starts with a slash and goes on with another one or a
star. -/
theorem opens_cons_iff {c : Char} {chars : List Char} :
    Opens (c :: chars) ↔ c = '/' ∧ (chars.head? = some '/' ∨ chars.head? = some '*') := by
  rw [Opens, pair_prefix_cons_iff, pair_prefix_cons_iff, and_or_left]

theorem opensNowhere_cons_iff {c : Char} {chars : List Char} :
    OpensNowhere (c :: chars) ↔ ¬ Opens (c :: chars) ∧ OpensNowhere chars := by
  rw [OpensNowhere, List.infix_cons_iff, List.infix_cons_iff, not_or, not_or, Opens, not_or,
    OpensNowhere]
  exact and_and_and_comm

/-- A single character opens no comment. -/
theorem opensNowhere_singleton (c : Char) : OpensNowhere [c] := by
  simp [opensNowhere_cons_iff, opens_cons_iff, opensNowhere_nil]

/-- No comment opens where a text goes on that starts with neither a slash nor a star. -/
theorem OpensNowhere.append {xs ys : List Char} (hx : OpensNowhere xs) (hy : OpensNowhere ys)
    (h : ∀ c ∈ ys.head?, c ≠ '/' ∧ c ≠ '*') : OpensNowhere (xs ++ ys) := by
  constructor
  · intro hpair
    rcases pair_infix_append hpair with hpair | hpair | hhead
    · exact hx.1 hpair
    · exact hy.1 hpair
    · exact (h '/' hhead).1 rfl
  · intro hpair
    rcases pair_infix_append hpair with hpair | hpair | hhead
    · exact hx.2 hpair
    · exact hy.2 hpair
    · exact (h '*' hhead).2 rfl

/-- No comment opens in whitespace. -/
theorem opensNowhere_spaces_append {spaces : List Char}
    (h : ∀ c ∈ spaces, isWhitespace c = true) {chars : List Char} :
    OpensNowhere (spaces ++ chars) ↔ OpensNowhere chars := by
  induction spaces with
  | nil => rfl
  | cons c spaces ih =>
      obtain ⟨hc, hspaces⟩ := List.forall_mem_cons.mp h
      rw [List.cons_append, opensNowhere_cons_iff, ih hspaces, opens_cons_iff]
      refine and_iff_right ?_
      rintro ⟨rfl, -⟩
      exact absurd hc (by decide)

/-- Without slashes no comment opens. -/
theorem opensNowhere_of_notMem {chars : List Char} (h : '/' ∉ chars) : OpensNowhere chars :=
  ⟨fun hpair => h (hpair.subset (List.mem_cons_self ..)),
    fun hpair => h (hpair.subset (List.mem_cons_self ..))⟩

/-! ### Sources without comments -/

/-- A source in which no comment opens is composed of code. -/
theorem composed_of_opensNowhere {cells : List (Cell α)} (h : OpensNowhere (charsOf cells)) :
    Composed cells (cells.map fun x => .code x.1 x.2) := by
  induction cells with
  | nil => exact .nil
  | cons x xs ih =>
      rw [charsOf_cons, opensNowhere_cons_iff] at h
      exact .code h.1 (ih h.2)

/-- A line feed before a source is code. -/
theorem Composed.newline_cons {cells : List (Cell α)} {found : List (Piece α)}
    (h : Composed cells found) (a : α) :
    Composed (('\n', a) :: cells) (.code '\n' a :: found) :=
  .code (by simp [opens_cons_iff]) h

/-- All cells of code are kept. -/
theorem filterMap_code?_code (cells : List (Cell α)) :
    (cells.map fun x => Piece.code x.1 x.2).filterMap Piece.code? = cells := by
  rw [List.filterMap_map]
  exact List.filterMap_some

/-- Code leaves no block comment open. -/
theorem findSome?_unclosed?_code (cells : List (Cell α)) :
    (cells.map fun x => Piece.code x.1 x.2).findSome? Piece.unclosed? = none := by
  rw [List.findSome?_map]
  exact List.findSome?_eq_none_iff.mpr fun _ _ => rfl

/-- A source in which no comment opens has nothing to strip. -/
theorem strip_of_opensNowhere {cells : List (Cell α)} (h : OpensNowhere (charsOf cells)) :
    strip cells = { kept := cells, opened := [], unclosed := none } := by
  have hpieces := (composed_of_opensNowhere h).eq_pieces
  have hopened : (cells.map fun x => Piece.code x.1 x.2).filterMap Piece.opened? = [] := by
    rw [List.filterMap_map]
    exact List.filterMap_eq_nil_iff.mpr fun _ _ => rfl
  simp only [strip, ← hpieces, filterMap_code?_code, hopened, findSome?_unclosed?_code]

/-! ### What stripping leaves -/

/-- A source that does not start with a slash starts with code. -/
theorem Composed.head?_code {cells : List (Cell α)} {found : List (Piece α)}
    (h : Composed cells found) (hslash : (charsOf cells).head? ≠ some '/') :
    (charsOf (found.filterMap Piece.code?)).head? = (charsOf cells).head? := by
  cases h with
  | nil => rfl
  | code _ _ => rfl
  | line _ _ => exact absurd rfl hslash
  | block _ _ => exact absurd rfl hslash
  | unclosed _ => exact absurd rfl hslash

/-- No comment opens in the code of a source. -/
theorem Composed.opensNowhere {cells : List (Cell α)} {found : List (Piece α)}
    (h : Composed cells found) : OpensNowhere (charsOf (found.filterMap Piece.code?)) := by
  induction h with
  | nil => exact opensNowhere_nil
  | @code c a rest found hopen hrest ih =>
      refine opensNowhere_cons_iff.mpr ⟨?_, ih⟩
      rw [opens_cons_iff] at hopen ⊢
      rintro ⟨rfl, hmark⟩
      -- what follows a slash of code is code as well, since it is no slash itself
      have hnot : ¬ ((charsOf rest).head? = some '/' ∨ (charsOf rest).head? = some '*') :=
        fun hmark => hopen ⟨rfl, hmark⟩
      rw [← hrest.head?_code (fun hslash => hnot (.inl hslash))] at hnot
      exact hnot hmark
  | line _ _ ih => exact ih
  | block _ _ ih => exact ih
  | unclosed _ => exact opensNowhere_nil

/-- No comment opens in what is left of a source without its comments. -/
theorem opensNowhere_kept (cells : List (Cell α)) : OpensNowhere (charsOf (strip cells).kept) :=
  (composed_pieces cells).opensNowhere

/-! ### Bodies of block comments -/

/-- A star and a slash are the first ones after a body that has none. A star at the end of the
body does not matter, since the character after it is a star. -/
theorem closesFirst_iff {body : List Char} : ClosesFirst body ↔ ¬ ['*', '/'] <:+: body := by
  induction body with
  | nil => simp [closesFirst_nil]
  | cons c body ih =>
      rw [closesFirst_cons_iff, ih, pair_infix_cons_iff, not_or, pair_prefix_cons_iff]
      refine and_congr_left fun _ => not_congr (and_congr_right fun _ => ?_)
      cases body with
      | nil => simp
      | cons d body => rfl

/-! ### Sources and texts without comments -/

/-- No comment opens in what is left of a source. -/
theorem opensNowhere_stripSource (source : String) : OpensNowhere (stripSource source).toList := by
  rw [stripSource, String.toList_ofList]
  exact opensNowhere_kept _

/-- A source stays as it is just if no comment opens in it. -/
theorem stripSource_eq_self_iff {source : String} :
    stripSource source = source ↔ OpensNowhere source.toList := by
  constructor
  · intro h
    rw [← h]
    exact opensNowhere_stripSource source
  · intro h
    rw [← charsOf_numbered source.toList] at h
    rw [stripSource, strip_of_opensNowhere h, charsOf_numbered, String.ofList_toList]

/-- No comment opens in what is left of a text, origins or not. -/
theorem opensNowhere_of_strip? {text : Text} {stripped : Stripped Int}
    (h : text.strip? = some stripped) : OpensNowhere (charsOf stripped.kept) := by
  obtain ⟨hkept, -, -⟩ := Stripped.labelled?_eq_some_iff.mp h
  have hopens := opensNowhere_kept text.padded
  rwa [hkept, charsOf_relabel] at hopens

/-- **Stripping leaves nothing to strip.** No comment opens in what is left of a source, and a
source stays as it is just if no comment opens in it. A text that can be stripped, even one with
too few origins, can be stripped again, which changes neither its characters nor its origins and
reports nothing. -/
theorem strip_leaves_nothing_open (source : String) :
    OpensNowhere (stripSource source).toList ∧
      (stripSource source = source ↔ OpensNowhere source.toList) ∧
      ∀ text stripped, Text.strip? text = some stripped →
        ∃ again, stripped.text.strip? = some again ∧
          again.text = stripped.text ∧ again.diagnostics = [] := by
  refine ⟨opensNowhere_stripSource source, stripSource_eq_self_iff, fun text stripped h => ?_⟩
  refine ⟨{ kept := stripped.kept, opened := [], unclosed := none }, ?_, rfl, rfl⟩
  rw [Stripped.text, Text.strip?_ofCells, strip_of_opensNowhere (opensNowhere_of_strip? h)]

/-- A text whose last character lies within an open block comment and has no origin. Stripping
it brings a star and a slash together, which opens nothing. -/
theorem strip_leaves_nothing_open_of_star_slash :
    ∃ text stripped, text = ⟨"*/**// /*".toList, [10, 20, 30, 40, 50, 60, 70, 80]⟩ ∧
      Text.strip? text = some stripped ∧ stripped.text = ⟨"*/ ".toList, [10, 60, 70]⟩ ∧
      stripped.diagnostics ≠ [] ∧
      ∃ again, stripped.text.strip? = some again ∧
        again.text = stripped.text ∧ again.diagnostics = [] := by
  have hstrip : Text.strip? ⟨"*/**// /*".toList, [10, 20, 30, 40, 50, 60, 70, 80]⟩ = some
      { kept := [('*', 10), ('/', 60), (' ', 70)], opened := [20, 80], unclosed := some 80 } := by
    decide +kernel
  obtain ⟨-, -, hagain⟩ := strip_leaves_nothing_open "*/**// /*"
  exact ⟨_, _, rfl, hstrip, rfl, by decide, hagain _ _ hstrip⟩

end Comment

end CLex
