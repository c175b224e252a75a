import Mathlib.Logic.ExistsUnique
import CLex.Proofs.Run
import CLex.Proofs.Text.Origins

/-!
# The Grammar of Comments

Which characters of a source are comments is said here without reading the source from left
to right: a source is **composed** of characters of code, line comments, closed block
comments, and possibly an open one at the end. The conditions on the pieces leave no choice,
so that a source is composed in one way only, and cutting finds that way.

The closing star and slash of a block comment are the first ones after its opening slash and
star, without sharing a character with these: in slash, star, slash nothing is closed yet.

## Main results

* `Comment.closeBlock?_append`, `Comment.closeBlock?_eq_some`, `Comment.closeBlock?_eq_none_iff`:
  where a block comment ends.
* `Comment.composed_iff`: a source is composed of the pieces it is cut into, and of no
  others.
* `Comment.Composed.code_sublist`, `Comment.Composed.exists_of_unclosed`: where the code and
  an open block comment stand.
* `Comment.existsUnique_composed_strip`: stripping a source in terms of what it is composed of.
-/

open scoped List

namespace CLex

namespace Comment

variable {α : Type}

/-! ### The grammar -/

/-- Whether a text begins with two slashes, or with a slash and a star. -/
def Opens (chars : List Char) : Prop :=
  ['/', '/'] <+: chars ∨ ['/', '*'] <+: chars

/-- Whether a star and a slash after this body are the first ones: together they occur at the
end and nowhere before it. -/
def ClosesFirst (body : List Char) : Prop :=
  ∀ before after, body ++ ['*', '/'] = before ++ '*' :: '/' :: after → after = []

/-- A source is composed of code and comments. A line comment ends before a line feed or at
the end of the source. -/
inductive Composed : List (Cell α) → List (Piece α) → Prop
  | nil : Composed [] []
  | code {c : Char} {a : α} {rest : List (Cell α)} {pieces : List (Piece α)} :
      ¬ Opens (c :: charsOf rest) → Composed rest pieces →
      Composed ((c, a) :: rest) (.code c a :: pieces)
  | line {a b : α} {body rest : List (Cell α)} {pieces : List (Piece α)} :
      IsLongestRun (· != '\n') (charsOf body) (charsOf rest) → Composed rest pieces →
      Composed (('/', a) :: ('/', b) :: (body ++ rest)) (.line (charsOf body) :: pieces)
  | block {a b c d : α} {body rest : List (Cell α)} {pieces : List (Piece α)} :
      ClosesFirst (charsOf body) → Composed rest pieces →
      Composed (('/', a) :: ('*', b) :: (body ++ ('*', c) :: ('/', d) :: rest))
        (.block a (charsOf body) :: pieces)
  | unclosed {a b : α} {body : List (Cell α)} :
      ¬ ['*', '/'] <:+: charsOf body →
      Composed (('/', a) :: ('*', b) :: body) [.unclosed a (charsOf body)]

/-! ### Where a block comment ends -/

/-- Cells that start with two characters. -/
private theorem exists_of_pair_prefix {c d : Char} {x : Cell α} {rest : List (Cell α)}
    (h : [c, d] <+: charsOf (x :: rest)) :
    ∃ a b after, x = (c, a) ∧ rest = (d, b) :: after := by
  rw [charsOf_cons, pair_prefix_cons_iff] at h
  obtain ⟨hc, hd⟩ := h
  obtain ⟨e, a⟩ := x
  cases rest with
  | nil => simp at hd
  | cons y after =>
      obtain ⟨f, b⟩ := y
      obtain rfl : f = d := by simpa using hd
      obtain rfl : e = c := hc
      exact ⟨a, b, after, rfl, rfl⟩

/-- A block comment closes where the text begins with a star and a slash. -/
theorem closes_eq_true_iff {x : Cell α} {rest : List (Cell α)} :
    closes x rest = true ↔ ['*', '/'] <+: charsOf (x :: rest) := by
  rw [charsOf_cons, pair_prefix_cons_iff]
  simp [closes, charsOf]

/-- A star and a slash are the first ones after an empty body. -/
theorem closesFirst_nil : ClosesFirst [] := by
  intro before after h
  cases before with
  | nil => simpa using h
  | cons c cs =>
      have := congrArg List.length h
      simp only [List.nil_append, List.cons_append, List.length_cons, List.length_append,
        List.length_nil] at this
      omega

/-- A star and a slash are the first ones after a body if none stand at its start, and they
are the first ones after the rest of it. -/
theorem closesFirst_cons_iff {c : Char} {body : List Char} :
    ClosesFirst (c :: body) ↔
      ¬ ['*', '/'] <+: c :: (body ++ ['*', '/']) ∧ ClosesFirst body := by
  constructor
  · intro h
    refine ⟨?_, fun before after heq => h (c :: before) after (by simp [heq])⟩
    rintro ⟨after, hafter⟩
    have hnil : after = [] := h [] after (by simpa using hafter.symm)
    have := congrArg List.length hafter
    simp [hnil] at this
  · rintro ⟨hfirst, h⟩ before after heq
    cases before with
    | nil => exact absurd ⟨after, heq.symm⟩ hfirst
    | cons d before =>
        obtain ⟨-, hbody⟩ := List.cons.inj heq
        exact h before after hbody

/-- Whether a body closes where it begins can be read off its first two characters. -/
private theorem closes_append_iff {x : Cell α} {body rest : List (Cell α)} {c d : α} :
    closes x (body ++ ('*', c) :: ('/', d) :: rest) = true ↔
      ['*', '/'] <+: x.1 :: (charsOf body ++ ['*', '/']) := by
  rw [closes_eq_true_iff, charsOf_cons, pair_prefix_cons_iff, pair_prefix_cons_iff]
  cases body with
  | nil => simp
  | cons y ys => simp

/-- The body of a block comment is what stands before the first star and slash. -/
theorem closeBlock?_append {body rest : List (Cell α)} {c d : α}
    (h : ClosesFirst (charsOf body)) :
    closeBlock? (body ++ ('*', c) :: ('/', d) :: rest) = some (charsOf body, rest) := by
  induction body with
  | nil => simp [closeBlock?_cons, closes]
  | cons x xs ih =>
      rw [charsOf_cons, closesFirst_cons_iff] at h
      rw [List.cons_append, closeBlock?_cons, if_neg (mt closes_append_iff.mp h.1), ih h.2]
      rfl

/-- A block comment that ends has a body, a star and a slash, and these are the first. -/
theorem closeBlock?_eq_some {cells after : List (Cell α)} {inner : List Char}
    (h : closeBlock? cells = some (inner, after)) :
    ∃ body c d, cells = body ++ ('*', c) :: ('/', d) :: after ∧ charsOf body = inner ∧
      ClosesFirst inner := by
  induction cells generalizing inner with
  | nil => simp at h
  | cons x rest ih =>
      rw [closeBlock?_cons] at h
      by_cases hx : closes x rest = true
      · rw [if_pos hx, Option.some.injEq, Prod.mk.injEq] at h
        obtain ⟨rfl, rfl⟩ := h
        obtain ⟨a, b, after, rfl, rfl⟩ := exists_of_pair_prefix (closes_eq_true_iff.mp hx)
        exact ⟨[], a, b, rfl, rfl, closesFirst_nil⟩
      · rw [if_neg hx] at h
        obtain ⟨⟨inner', after'⟩, hrest, heq⟩ := Option.map_eq_some_iff.mp h
        obtain ⟨rfl, rfl⟩ := Prod.mk.inj heq
        obtain ⟨body, c, d, rfl, rfl, hfirst⟩ := ih hrest
        exact ⟨x :: body, c, d, rfl, rfl,
          closesFirst_cons_iff.mpr ⟨mt closes_append_iff.mpr hx, hfirst⟩⟩

/-- A block comment does not end if a star and a slash never stand together. -/
theorem closeBlock?_eq_none_iff {cells : List (Cell α)} :
    closeBlock? cells = none ↔ ¬ ['*', '/'] <:+: charsOf cells := by
  induction cells with
  | nil => simp
  | cons x rest ih =>
      rw [closeBlock?_cons, charsOf_cons, List.infix_cons_iff, ← charsOf_cons,
        ← closes_eq_true_iff, not_or, ← ih]
      by_cases hx : closes x rest = true
      · simp [hx]
      · simp [hx]

/-! ### The first piece -/

/-- A character that opens no comment is code. -/
theorem next_code {c : Char} {a : α} {rest : List (Cell α)} (h : ¬ Opens (c :: charsOf rest)) :
    next (c, a) rest = (.code c a, rest) := by
  cases rest with
  | nil => rfl
  | cons y body =>
      rw [Opens, pair_prefix_cons_iff, pair_prefix_cons_iff, not_or] at h
      obtain ⟨hline, hblock⟩ := h
      rw [next, if_neg (by simpa using hline), if_neg (by simpa using hblock)]

/-- A line comment takes the longest run of characters on its line. -/
theorem next_line {a b : α} {body rest : List (Cell α)}
    (h : IsLongestRun (· != '\n') (charsOf body) (charsOf rest)) :
    next ('/', a) (('/', b) :: (body ++ rest)) = (.line (charsOf body), rest) := by
  have hrun : IsLongestRun onLine body rest := (isLongestRun_map (f := Prod.fst)).mp h
  rw [next, if_pos ⟨rfl, rfl⟩, hrun.takeWhile_eq, hrun.dropWhile_eq]

/-- A block comment takes everything up to the first star and slash. -/
theorem next_block {a b c d : α} {body rest : List (Cell α)} (h : ClosesFirst (charsOf body)) :
    next ('/', a) (('*', b) :: (body ++ ('*', c) :: ('/', d) :: rest)) =
      (.block a (charsOf body), rest) := by
  rw [next, if_neg (by simp), if_pos ⟨rfl, rfl⟩, closeBlock?_append h]

/-- A block comment takes everything if there is no star and slash. -/
theorem next_unclosed {a b : α} {body : List (Cell α)} (h : ¬ ['*', '/'] <:+: charsOf body) :
    next ('/', a) (('*', b) :: body) = (.unclosed a (charsOf body), []) := by
  rw [next, if_neg (by simp), if_pos ⟨rfl, rfl⟩, closeBlock?_eq_none_iff.mpr h]

/-! ### Existence and uniqueness -/

/-- The pieces of a source compose it. -/
theorem composed_pieces (cells : List (Cell α)) : Composed cells (pieces cells) := by
  induction cells using (cutter α).pieces_induction with
  | nil =>
      rw [pieces_nil]
      exact .nil
  | cons x rest ih =>
      have ih : Composed (next x rest).2 (pieces (next x rest).2) := ih
      rw [pieces_cons]
      by_cases hopen : Opens (charsOf (x :: rest))
      · rcases hopen with hline | hblock
        · obtain ⟨a, b, cells, rfl, rfl⟩ := exists_of_pair_prefix hline
          have hrun : IsLongestRun (· != '\n') (charsOf (cells.takeWhile onLine))
              (charsOf (cells.dropWhile onLine)) :=
            isLongestRun_map.mpr (.takeWhile_dropWhile onLine cells)
          rw [← List.takeWhile_append_dropWhile (p := onLine) (l := cells),
            next_line hrun] at ih ⊢
          exact .line hrun ih
        · obtain ⟨a, b, cells, rfl, rfl⟩ := exists_of_pair_prefix hblock
          cases hclose : closeBlock? cells with
          | some r =>
              obtain ⟨inner, after⟩ := r
              obtain ⟨body, c, d, rfl, rfl, hfirst⟩ := closeBlock?_eq_some hclose
              rw [next_block hfirst] at ih ⊢
              exact .block hfirst ih
          | none =>
              rw [closeBlock?_eq_none_iff] at hclose
              rw [next_unclosed hclose, pieces_nil]
              exact .unclosed hclose
      · rw [next_code hopen] at ih ⊢
        exact .code hopen ih

/-- A source is composed of nothing but its pieces. -/
theorem Composed.eq_pieces {cells : List (Cell α)} {found : List (Piece α)}
    (h : Composed cells found) : found = pieces cells := by
  induction h with
  | nil => rw [pieces_nil]
  | code hopen _ ih => rw [pieces_cons, next_code hopen, ← ih]
  | line hrun _ ih => rw [pieces_cons, next_line hrun, ← ih]
  | block hfirst _ ih => rw [pieces_cons, next_block hfirst, ← ih]
  | unclosed hopen => rw [pieces_cons, next_unclosed hopen, pieces_nil]

/-- A source is composed of the pieces it is cut into, and of no others. -/
theorem composed_iff {cells : List (Cell α)} {found : List (Piece α)} :
    Composed cells found ↔ found = pieces cells :=
  ⟨Composed.eq_pieces, fun h => h ▸ composed_pieces cells⟩

/-! ### Where the code stands -/

/-- The code is found in the source, in order and with its labels. -/
theorem Composed.code_sublist {cells : List (Cell α)} {found : List (Piece α)}
    (h : Composed cells found) : found.filterMap Piece.code? <+ cells := by
  induction h with
  | nil => exact .slnil
  | code _ _ ih => exact ih.cons_cons _
  | line _ _ ih => exact ((ih.trans (List.sublist_append_right ..)).cons _).cons _
  | @block _ _ c d body rest _ _ _ ih =>
      have hrest : ('*', c) :: ('/', d) :: rest <+ body ++ ('*', c) :: ('/', d) :: rest :=
        List.sublist_append_right ..
      exact ((((ih.cons _).cons _).trans hrest).cons _).cons _
  | unclosed _ => exact List.nil_sublist _

/-- An open block comment starts with a slash and a star, and all code stands before it. -/
theorem Composed.exists_of_unclosed {cells : List (Cell α)} {found : List (Piece α)}
    (h : Composed cells found) {a : α} {inner : List Char} (hmem : .unclosed a inner ∈ found) :
    ∃ before b body, cells = before ++ ('/', a) :: ('*', b) :: body ∧
      found.filterMap Piece.code? <+ before := by
  induction h with
  | nil => simp at hmem
  | @code c d _ _ _ _ ih =>
      obtain ⟨before, b, body, rfl, hsub⟩ := ih (by simpa using hmem)
      exact ⟨(c, d) :: before, b, body, rfl, hsub.cons_cons _⟩
  | @line d e run _ _ _ _ ih =>
      obtain ⟨before, b, body, rfl, hsub⟩ := ih (by simpa using hmem)
      refine ⟨('/', d) :: ('/', e) :: (run ++ before), b, body, by simp, ?_⟩
      exact ((hsub.trans (List.sublist_append_right ..)).cons _).cons _
  | @block d e f g run _ _ _ _ ih =>
      obtain ⟨before, b, body, rfl, hsub⟩ := ih (by simpa using hmem)
      refine ⟨('/', d) :: ('*', e) :: (run ++ ('*', f) :: ('/', g) :: before), b, body,
        by simp, ?_⟩
      have hrest : ('*', f) :: ('/', g) :: before <+ run ++ ('*', f) :: ('/', g) :: before :=
        List.sublist_append_right ..
      exact ((((hsub.cons _).cons _).trans hrest).cons _).cons _
  | @unclosed _ b body _ =>
      obtain ⟨rfl, -⟩ : a = _ ∧ inner = _ := by simpa using hmem
      exact ⟨[], b, body, rfl, List.nil_sublist _⟩

/-! ### Stripping -/

/-- An open block comment is the last piece, so that it is the one that is found. -/
theorem Composed.findSome?_unclosed?_eq_some_iff {cells : List (Cell α)}
    {found : List (Piece α)} (h : Composed cells found) {a : α} :
    found.findSome? Piece.unclosed? = some a ↔ ∃ body, .unclosed a body ∈ found := by
  induction h with
  | nil => simp
  | code _ _ ih => simpa [List.findSome?_cons, Piece.unclosed?] using ih
  | line _ _ ih => simpa [List.findSome?_cons, Piece.unclosed?] using ih
  | block _ _ ih => simpa [List.findSome?_cons, Piece.unclosed?] using ih
  | unclosed _ => simp [List.findSome?_cons, Piece.unclosed?, eq_comm]

/-- **Comments are what the grammar says.** Every source is composed of code and comments in
exactly one way. Stripping it leaves the characters of code with their offsets, and reports a
block comment that is not closed at its start, and nothing else. -/
theorem existsUnique_composed_strip (source : String) :
    (∃! found, Composed (numbered source.toList) found) ∧
      ∀ found, Composed (numbered source.toList) found →
        ∃ stripped, (Text.ofString source).strip? = some stripped ∧
          stripped.text = .ofCells (found.filterMap Piece.code?) ∧
          (∀ start body, .unclosed start body ∈ found →
            stripped.diagnostics = [.unterminatedComment start]) ∧
          ((∀ start body, .unclosed start body ∉ found) → stripped.diagnostics = []) := by
  refine ⟨⟨_, composed_pieces _, fun _ h => h.eq_pieces⟩, fun found h => ?_⟩
  refine ⟨strip (numbered source.toList), ?_, ?_, ?_, ?_⟩
  · rw [Text.ofString_eq_ofCells, Text.strip?_ofCells]
  · rw [h.eq_pieces]
    rfl
  · intro start body hmem
    have hfirst := h.findSome?_unclosed?_eq_some_iff.mpr ⟨body, hmem⟩
    rw [h.eq_pieces] at hfirst
    rw [Stripped.diagnostics, strip, hfirst]
    rfl
  · intro hnone
    have hfirst : found.findSome? Piece.unclosed? = none := by
      refine Option.eq_none_iff_forall_ne_some.mpr fun start hstart => ?_
      obtain ⟨body, hmem⟩ := h.findSome?_unclosed?_eq_some_iff.mp hstart
      exact hnone start body hmem
    rw [h.eq_pieces] at hfirst
    rw [Stripped.diagnostics, strip, hfirst]
    rfl

end Comment

end CLex
