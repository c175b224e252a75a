import Mathlib.Data.List.Basic
import CLex.Proofs.Analysis.Sighting
import CLex.Proofs.Lexing.Parts
import CLex.Proofs.Text.Labels

/-!
# Items of a Text

Lexing puts tokens, problems and line ends in three lists, and gives each token and each problem
the origin of its first character. An **item** is a token or a problem together with the index in
the text at which it starts, so that the items of a text are its tokens and problems in one list,
in the order in which they were found.

Whatever the origins of a text and the line map are, the items start at the same indices, and at
these indices alone an origin is asked for: not at whitespace, nor at any later character of a
mark or a word. So lexing fails just where an item starts beyond the origins, and otherwise yields
what lexing the source with the same characters yields, but for offsets and positions.

## Main definitions

* `Item`: a token or a problem, and where it starts; `Item.nature` is what it is anywhere.
* `Text.Itemized`: whether items are those of what a text yields.
* `Text.items`: the items of a text.

## Main results

* `Text.lexing?_eq_some_iff`, `Text.lexing?_eq_none_iff`: when lexing a text succeeds.
* `Text.itemized_items`: the items of a text are those of what it yields.
* `Text.exists_itemized_ofString_content`: lexing in terms of the source.
-/

open scoped List

namespace CLex

variable {α : Type}

/-! ### Where segments start -/

/-- Labels of marks and words are not found if one has none. -/
theorem mapM_labelled?_eq_none_iff {segments : List (Segment (Option α))} :
    segments.mapM Segment.labelled? = none ↔ ∃ s ∈ segments, s.start? = some none := by
  induction segments with
  | nil => simp
  | cons s ss ih =>
      have hfirst : s.labelled? = none ↔ s.start? = some none := by
        cases s <;> simp [Segment.labelled?, Segment.start?]
      simp only [List.mapM_cons, List.mem_cons, exists_eq_or_imp, ← ih, ← hfirst]
      cases s.labelled? with
      | none => simp
      | some t => cases ss.mapM Segment.labelled? <;> simp

theorem Segment.start?_relabel {β : Type} (f : α → β) (s : Segment α) :
    (s.relabel f).start? = s.start?.map f := by
  cases s <;> rfl

theorem Segment.chars_relabel {β : Type} (f : α → β) (s : Segment α) :
    (s.relabel f).chars = s.chars := by
  cases s <;> rfl

theorem Segment.isSpace_relabel {β : Type} (f : α → β) (s : Segment α) :
    (s.relabel f).isSpace = s.isSpace := by
  cases s <;> rfl

/-- Whitespace has no start. -/
theorem Segment.start?_of_isSpace {s : Segment α} (h : s.isSpace = true) : s.start? = none := by
  cases s with
  | space c => rfl
  | mark chars a => simp [isSpace] at h
  | word chars a => simp [isSpace] at h

/-- Segments start at cells of the text, in order. -/
theorem Divided.starts_sublist {lexicon : Lexicon} {cells : List (Cell α)}
    {found : List (Segment α)} (h : Divided lexicon cells found) :
    found.filterMap Segment.start? <+ cells.map (·.2) := by
  induction h with
  | nil => exact .slnil
  | space _ _ ih => exact ih.cons _
  | pair _ _ _ ih => exact (ih.cons _).cons_cons _
  | single _ _ _ ih => exact ih.cons_cons _
  | @word c a run rest _ _ _ _ ih =>
      rw [List.map_cons, List.map_append]
      exact (ih.trans (List.sublist_append_right (run.map (·.2)) _)).cons_cons a
  | @decimal c a b run fraction rest _ _ _ _ _ ih =>
      rw [List.map_cons, List.map_append, List.map_cons, List.map_append]
      have hrest := ih.trans (List.sublist_append_right (fraction.map (·.2)) _)
      exact ((hrest.cons b).trans (List.sublist_append_right (run.map (·.2)) _)).cons_cons a

/-- A segment of a numbered text has its characters where it starts. -/
theorem exists_eq_of_start?_numbered {lexicon : Lexicon} {chars : List Char} {s : Segment Int}
    (hs : s ∈ segments lexicon (numbered chars)) {n : Int} (hn : n ∈ s.start?) :
    ∃ k : Nat, n = k ∧ s.chars ≠ [] ∧ s.chars <+: chars.drop k := by
  obtain ⟨spans, hsegments, hcells, hcovers⟩ :=
    (divided_segments lexicon (numbered chars)).exists_spans
  rw [← hsegments, List.mem_map] at hs
  obtain ⟨⟨s, cells⟩, hspan, rfl⟩ := hs
  obtain ⟨hchars, hstart⟩ := hcovers _ hspan
  obtain ⟨⟨c, label⟩, hhead, rfl⟩ := Option.map_eq_some_iff.mp (hstart n hn)
  obtain ⟨rest, rfl⟩ := List.head?_eq_some_iff.mp hhead
  obtain ⟨before, after, rfl⟩ := List.append_of_mem hspan
  have hsplit : numbered chars =
      before.flatMap (·.2) ++ (c, label) :: (rest ++ after.flatMap (·.2)) := by
    rw [← hcells, List.flatMap_append, List.flatMap_cons, List.cons_append]
  obtain ⟨hlabel, hwhole⟩ := eq_of_numbered_eq_append hsplit
  refine ⟨_, hlabel, ?_, ?_⟩
  · rw [← hchars]
    exact List.cons_ne_nil _ _
  · rw [← hchars, hwhole, List.drop_left' (by simp [charsOf]), charsOf_cons, charsOf_append,
      ← List.cons_append]
    exact List.prefix_append _ _

/-! ### Items -/

/-- A token or a problem, and the index in a text of its first character. -/
structure Item where
  /-- What was seen. -/
  seen : Token ⊕ Diagnostic
  /-- The index at which it starts. -/
  start : Nat

namespace Item

/-- The characters of the token, or those in question. -/
def lexeme (item : Item) : String :=
  item.seen.elim Token.lexeme (·.cause.lexeme)

/-- The position that is reported. -/
def position (item : Item) : Position :=
  item.seen.elim Token.position Diagnostic.position

/-- What was seen, wherever it was: the kind and the lexeme of a token, or what the problem is. -/
def nature (item : Item) : (Token.Kind × String) ⊕ Cause :=
  item.seen.map (fun t => (t.kind, t.lexeme)) (·.cause)

end Item

/-- What a segment amounts to that starts at an index, if a place is known for each index. -/
def Segment.item? (lexicon : Lexicon) (lines : LineMap) (place : Int → Int) (s : Segment Int) :
    Option Item :=
  s.start?.bind fun n =>
    ((s.relabel place).outcome lexicon lines).seen?.map fun seen => ⟨seen, n.toNat⟩

namespace Segment

variable {lexicon : Lexicon} {lines : LineMap} {place : Int → Int} {s : Segment Int}

/-- There is no item in whitespace. -/
theorem item?_of_isSpace (h : s.isSpace = true) : s.item? lexicon lines place = none := by
  rw [item?, start?_of_isSpace h, Option.bind_none]

/-- A mark or a word is an item. -/
theorem exists_item?_eq_some (lexicon : Lexicon) (lines : LineMap) (place : Int → Int)
    (h : s.isSpace = false) :
    ∃ n item, s.start? = some n ∧ s.item? lexicon lines place = some item ∧
      item.start = n.toNat ∧ item.lexeme = String.ofList s.chars ∧
      item.position = lines.locate (place n) ∧
      ∀ d ∈ item.seen.getRight?, d.offset = some (place n) := by
  rw [← isSpace_relabel place] at h
  obtain ⟨start, seen, hstart, hseen, hlexeme, hposition, hproblem⟩ :=
    exists_seen_of_not_isSpace lexicon lines h
  rw [start?_relabel, Option.map_eq_some_iff] at hstart
  obtain ⟨n, hn, rfl⟩ := hstart
  rw [chars_relabel] at hlexeme
  refine ⟨n, ⟨seen, n.toNat⟩, hn, ?_, rfl, hlexeme, hposition, fun d hd => (hproblem d hd).1⟩
  rw [item?, hn, Option.bind_some, hseen, Option.map_some]

/-- An item is what is seen in a segment. -/
theorem map_seen_item? (lexicon : Lexicon) (lines : LineMap) (place : Int → Int)
    (s : Segment Int) :
    (s.item? lexicon lines place).map Item.seen =
      ((s.relabel place).outcome lexicon lines).seen? := by
  cases hspace : s.isSpace with
  | true =>
      have hspace' : (s.relabel place).isSpace = true := by rw [isSpace_relabel, hspace]
      rw [item?_of_isSpace hspace, seen?_outcome_of_isSpace lexicon lines hspace', Option.map_none]
  | false =>
      obtain ⟨n, -, hn, -⟩ := exists_item?_eq_some lexicon lines place hspace
      rw [item?, hn, Option.bind_some, Option.map_map]
      exact congrFun Option.map_id _

/-- What is seen in a segment is the same at any place. -/
theorem map_nature_item? (lexicon : Lexicon) (lines lines' : LineMap) (place place' : Int → Int)
    (s : Segment Int) :
    (s.item? lexicon lines' place').map (fun item => (item.start, item.nature)) =
      (s.item? lexicon lines place).map fun item => (item.start, item.nature) := by
  cases hstart : s.start? with
  | none => rw [item?, item?, hstart, Option.bind_none, Option.bind_none]
  | some n =>
      -- the position of every offset is set to the one that is wanted here
      have hmoved : ∀ (lines : LineMap) (place : Int → Int),
          (s.relabel place).outcome lexicon lines =
            (s.outcome lexicon (.ofList [])).move (fun _ => lines.locate (place n)) place := by
        intro lines place
        refine outcome_relabel fun m hm => ?_
        obtain rfl : n = m := Option.some.inj (hstart.symm.trans hm)
        rfl
      simp only [item?, hstart, Option.bind_some, Option.map_map, hmoved]
      cases s.outcome lexicon (.ofList []) <;> rfl

end Segment

/-! ### The items of a text -/

namespace Text

/-- Whether these are the items of what a text yields: its tokens and its problems, in the order of
the indices at which they start, which are those of the marks and the words of the text; at each
index the text has the lexeme, and what is reported is the position of the origin that it has
there, and of a problem the origin itself. -/
structure Itemized (text : Text) (lexicon : Lexicon) (lines : LineMap) (lexing : Lexing)
    (items : List Item) : Prop where
  /-- The tokens are those among the items. -/
  tokens_eq : lexing.tokens = items.filterMap (·.seen.getLeft?)
  /-- The problems are those among the items. -/
  diagnostics_eq : lexing.diagnostics = items.filterMap (·.seen.getRight?)
  /-- They start one after the other. -/
  increasing : items.Pairwise (·.start < ·.start)
  /-- They are the marks and the words into which the text is divided. -/
  divided : ∀ found, Divided lexicon (numbered text.chars) found →
    items.map (fun item => ((item.start : Int), item.lexeme)) =
      found.filterMap fun s => s.start?.map (·, String.ofList s.chars)
  /-- The text has the lexeme where an item starts. -/
  spells : ∀ item ∈ items, item.lexeme ≠ "" ∧ item.lexeme.toList <+: text.chars.drop item.start
  /-- The position is that of the origin there, and so is the offset. -/
  stands : ∀ item ∈ items, ∃ origin, text.origins[item.start]? = some origin ∧
    item.position = lines.locate origin ∧ ∀ d ∈ item.seen.getRight?, d.offset = some origin

/-- The marks and the words of a text. -/
def pieces (lexicon : Lexicon) (text : Text) : List (Segment Int) :=
  segments lexicon (numbered text.chars)

/-- The origin that a text has at an index, or 0. -/
def place (text : Text) (n : Int) : Int :=
  (text.originAt? n).getD 0

/-- The items of a text. -/
def items (lexicon : Lexicon) (lines : LineMap) (text : Text) : List Item :=
  (text.pieces lexicon).filterMap (Segment.item? lexicon lines text.place)

variable {lexicon : Lexicon} {lines : LineMap} {text : Text}

/-! ### When lexing succeeds -/

theorem lexing?_eq_map : text.lexing? lexicon lines =
    (((text.pieces lexicon).map (Segment.relabel text.originAt?)).mapM Segment.labelled?).map
      (.ofSegments lexicon lines) := by
  rw [lexing?, padded_eq_relabel, segments_relabel, pieces]

/-- Lexing fails if a mark or a word starts where the text has no origin. -/
theorem lexing?_eq_none_iff : text.lexing? lexicon lines = none ↔
    ∃ s ∈ text.pieces lexicon, ∃ n ∈ s.start?, text.originAt? n = none := by
  rw [lexing?_eq_map, Option.map_eq_none_iff, mapM_labelled?_eq_none_iff]
  constructor
  · rintro ⟨_, hmem, hmissing⟩
    obtain ⟨s, hs, rfl⟩ := List.mem_map.mp hmem
    rw [Segment.start?_relabel, Option.map_eq_some_iff] at hmissing
    obtain ⟨n, hn, hnone⟩ := hmissing
    exact ⟨s, hs, n, hn, hnone⟩
  · rintro ⟨s, hs, n, hn, hnone⟩
    refine ⟨_, List.mem_map_of_mem hs, ?_⟩
    rw [Segment.start?_relabel, hn, Option.map_some, hnone]

/-- A segment has its label if there is an origin where it starts. -/
theorem relabel_originAt? {s : Segment Int}
    (h : ∀ n ∈ s.start?, text.originAt? n = some (text.place n)) :
    s.relabel text.originAt? = (s.relabel text.place).relabel some := by
  cases s with
  | space c => rfl
  | mark chars n => exact congrArg (Segment.mark chars) (h n rfl)
  | word chars n => exact congrArg (Segment.word chars) (h n rfl)

/-- Lexing yields what the cells yield that have the origins of the text, if there is an origin
wherever a mark or a word starts. -/
theorem lexing?_of_forall_start
    (h : ∀ s ∈ text.pieces lexicon, ∀ n ∈ s.start?, text.originAt? n = some (text.place n)) :
    text.lexing? lexicon lines =
      some (.ofCells lexicon lines (relabel text.place (numbered text.chars))) := by
  have hlabels : (text.pieces lexicon).map (Segment.relabel text.originAt?) =
      ((text.pieces lexicon).map (Segment.relabel text.place)).map (Segment.relabel some) := by
    rw [List.map_map]
    exact List.map_congr_left fun s hs => relabel_originAt? (h s hs)
  rw [lexing?_eq_map, hlabels, mapM_labelled?_relabel_some, Option.map_some, Lexing.ofCells,
    segments_relabel, pieces]

/-- Lexing succeeds if there is an origin wherever a mark or a word starts. -/
theorem lexing?_eq_some_iff {lexing : Lexing} : text.lexing? lexicon lines = some lexing ↔
    (∀ s ∈ text.pieces lexicon, ∀ n ∈ s.start?, text.originAt? n = some (text.place n)) ∧
      .ofCells lexicon lines (relabel text.place (numbered text.chars)) = lexing := by
  constructor
  · intro h
    have hall : ∀ s ∈ text.pieces lexicon, ∀ n ∈ s.start?,
        text.originAt? n = some (text.place n) := by
      intro s hs n hn
      cases horigin : text.originAt? n with
      | none =>
          have hnone : text.lexing? lexicon lines = none :=
            lexing?_eq_none_iff.mpr ⟨s, hs, n, hn, horigin⟩
          exact absurd (hnone.symm.trans h) (by simp)
      | some origin => rw [place, horigin, Option.getD_some]
    exact ⟨hall, Option.some.inj ((lexing?_of_forall_start hall).symm.trans h)⟩
  · rintro ⟨hall, rfl⟩
    exact lexing?_of_forall_start hall

/-! ### What the items of a text are -/

variable (lexicon lines text)

/-- An item is a mark or a word. -/
theorem exists_piece_of_mem_items {item : Item} (h : item ∈ text.items lexicon lines) :
    ∃ s ∈ text.pieces lexicon, ∃ k : Nat, (k : Int) ∈ s.start? ∧ item.start = k ∧
      item.lexeme = String.ofList s.chars ∧ item.position = lines.locate (text.place k) ∧
      ∀ d ∈ item.seen.getRight?, d.offset = some (text.place k) := by
  obtain ⟨s, hs, hitem⟩ := List.mem_filterMap.mp h
  cases hspace : s.isSpace with
  | true => exact absurd (Segment.item?_of_isSpace hspace ▸ hitem) (by simp)
  | false =>
      obtain ⟨n, item', hn, hitem', hstart, hlexeme, hposition, hproblem⟩ :=
        Segment.exists_item?_eq_some lexicon lines text.place hspace
      obtain rfl : item' = item := Option.some.inj (hitem'.symm.trans hitem)
      obtain ⟨k, rfl, -, -⟩ := exists_eq_of_start?_numbered hs hn
      exact ⟨s, hs, k, hn, hstart, hlexeme, hposition, hproblem⟩

/-- The items of a text tell its marks and words, and the positions of their origins. -/
theorem map_items :
    (text.items lexicon lines).map (fun item => ((item.start : Int), item.lexeme, item.position)) =
      (text.pieces lexicon).filterMap fun s =>
        s.start?.map fun n => (n, String.ofList s.chars, lines.locate (text.place n)) := by
  rw [items, List.map_filterMap]
  refine List.filterMap_congr fun s hs => ?_
  cases hspace : s.isSpace with
  | true =>
      rw [Segment.item?_of_isSpace hspace, Segment.start?_of_isSpace hspace, Option.map_none,
        Option.map_none]
  | false =>
      obtain ⟨n, item, hn, hitem, hstart, hlexeme, hposition, -⟩ :=
        Segment.exists_item?_eq_some lexicon lines text.place hspace
      obtain ⟨k, rfl, -, -⟩ := exists_eq_of_start?_numbered hs hn
      rw [hitem, hn, Option.map_some, Option.map_some, hstart, hlexeme, hposition,
        Int.toNat_natCast]

/-- The items of a text start where its marks and words do. -/
theorem map_start_items :
    (text.items lexicon lines).map (fun item => (item.start : Int)) =
      (text.pieces lexicon).filterMap Segment.start? := by
  have hitems := congrArg (List.map Prod.fst) (map_items lexicon lines text)
  rw [List.map_map, List.map_filterMap] at hitems
  refine hitems.trans (List.filterMap_congr fun s _ => ?_)
  rw [Option.map_map]
  exact congrFun Option.map_id _

/-- The items of a text start at increasing indices. -/
theorem pairwise_start_items : (text.items lexicon lines).Pairwise (·.start < ·.start) := by
  have hlabels := List.pairwise_map.mpr (pairwise_numbered text.chars)
  have hdivided := divided_segments lexicon (numbered text.chars)
  have hincreasing := hlabels.sublist hdivided.starts_sublist
  rw [← pieces, ← map_start_items lexicon lines, List.pairwise_map] at hincreasing
  exact hincreasing.imp Int.ofNat_lt.mp

/-- What is seen in the items of a text is what is seen in its outcomes. -/
theorem filterMap_seen_items {β : Type} (f : Token ⊕ Diagnostic → Option β) :
    (text.items lexicon lines).filterMap (fun item => f item.seen) =
      ((segments lexicon (relabel text.place (numbered text.chars))).map
        (·.outcome lexicon lines)).filterMap fun o => o.seen?.bind f := by
  rw [items, segments_relabel, List.filterMap_filterMap, List.filterMap_map, List.filterMap_map]
  refine List.filterMap_congr fun s _ => ?_
  rw [Function.comp_apply, Function.comp_apply, ← Segment.map_seen_item?, Option.bind_map]
  rfl

/-- The items of a text are those of what it yields. -/
theorem itemized_items {lexing : Lexing} (h : text.lexing? lexicon lines = some lexing) :
    text.Itemized lexicon lines lexing (text.items lexicon lines) := by
  obtain ⟨horigins, rfl⟩ := lexing?_eq_some_iff.mp h
  refine ⟨?_, ?_, pairwise_start_items lexicon lines text, fun found hfound => ?_,
    fun item hitem => ?_, fun item hitem => ?_⟩
  · rw [filterMap_seen_items, ← funext Outcome.token?_eq]
    rfl
  · rw [filterMap_seen_items, ← funext Outcome.problem?_eq]
    rfl
  · have hitems := congrArg (List.map fun x : Int × String × Position => (x.1, x.2.1))
      (map_items lexicon lines text)
    rw [List.map_map, List.map_filterMap] at hitems
    rw [hfound.eq_segments]
    refine hitems.trans (List.filterMap_congr fun s _ => ?_)
    rw [Option.map_map]
    rfl
  · obtain ⟨s, hs, k, hk, hstart, hlexeme, -, -⟩ :=
      exists_piece_of_mem_items lexicon lines text hitem
    obtain ⟨_, hk, hne, hprefix⟩ := exists_eq_of_start?_numbered hs hk
    obtain rfl := Int.ofNat_inj.mp hk
    rw [hstart, hlexeme, String.toList_ofList]
    exact ⟨fun hempty => hne (by simpa using congrArg String.toList hempty), hprefix⟩
  · obtain ⟨s, hs, k, hk, hstart, -, hposition, hproblem⟩ :=
      exists_piece_of_mem_items lexicon lines text hitem
    refine ⟨text.place k, ?_, hposition, hproblem⟩
    rw [hstart]
    exact horigins s hs k hk

/-! ### Lexing in terms of the source -/

/-- The source with the same characters has the same marks and words. -/
theorem pieces_ofString_content : (ofString text.content).pieces lexicon = text.pieces lexicon := by
  rw [pieces, pieces, ofString, content, String.toList_ofList]

/-- The source with the same characters can be lexed. -/
theorem lexing?_ofString_content :
    (ofString text.content).lexing? lexicon lines =
      some (.ofCells lexicon lines (numbered text.chars)) := by
  rw [ofString_eq_ofCells, lexing?_ofCells, content, String.toList_ofList]

/-- Lexing fails if an item of the source starts beyond the origins. -/
theorem lexing?_eq_none_iff_exists_item (lines' : LineMap) :
    text.lexing? lexicon lines = none ↔
      ∃ item ∈ (ofString text.content).items lexicon lines', text.origins.length ≤ item.start := by
  have hstarts := map_start_items lexicon lines' (ofString text.content)
  rw [pieces_ofString_content] at hstarts
  rw [lexing?_eq_none_iff]
  constructor
  · rintro ⟨s, hs, n, hn, hmissing⟩
    have hmem : n ∈ (text.pieces lexicon).filterMap Segment.start? :=
      List.mem_filterMap.mpr ⟨s, hs, hn⟩
    rw [← hstarts, List.mem_map] at hmem
    obtain ⟨item, hitem, rfl⟩ := hmem
    rw [originAt?_eq_none_iff (Int.natCast_nonneg _)] at hmissing
    exact ⟨item, hitem, Int.ofNat_le.mp hmissing⟩
  · rintro ⟨item, hitem, hbeyond⟩
    have hmem : (item.start : Int) ∈ (text.pieces lexicon).filterMap Segment.start? :=
      hstarts ▸ List.mem_map_of_mem hitem
    obtain ⟨s, hs, hn⟩ := List.mem_filterMap.mp hmem
    refine ⟨s, hs, _, hn, ?_⟩
    rw [originAt?_eq_none_iff (Int.natCast_nonneg _)]
    exact Int.ofNat_le.mpr hbeyond

/-- The items of a text are those of the source with the same characters, at other places. -/
theorem map_nature_items (lines' : LineMap) :
    (text.items lexicon lines).map (fun item => (item.start, item.nature)) =
      ((ofString text.content).items lexicon lines').map fun item =>
        (item.start, item.nature) := by
  rw [items, items, pieces_ofString_content, List.map_filterMap, List.map_filterMap]
  exact List.filterMap_congr fun s _ => Segment.map_nature_item? lexicon _ _ _ _ s

/-- **Lexing asks for the origins of items alone.** Compare a text with the source that has its
characters, whatever the keywords, the operators and the line map are. Lexing the source succeeds,
and its items start at increasing indices. Lexing the text fails just if one of these indices lies
beyond its origins. Otherwise it yields the same breaks, and the same items at the same indices:
tokens of the same kinds and lexemes and problems with the same causes, each at the position of the
origin that the text has where it starts, which is also the offset of a problem. -/
theorem exists_itemized_ofString_content :
    ∃ plain items,
      (ofString text.content).lexing? lexicon (.ofString text.content) = some plain ∧
      (ofString text.content).Itemized lexicon (.ofString text.content) plain items ∧
      (text.lexing? lexicon lines = none ↔ ∃ item ∈ items, text.origins.length ≤ item.start) ∧
      ∀ lexing, text.lexing? lexicon lines = some lexing →
        lexing.breaks = plain.breaks ∧
          ∃ found, text.Itemized lexicon lines lexing found ∧
            found.map (fun item => (item.start, item.nature)) =
              items.map fun item => (item.start, item.nature) := by
  have hplain := lexing?_ofString_content lexicon (.ofString text.content) text
  refine ⟨_, _, hplain, itemized_items _ _ _ hplain, lexing?_eq_none_iff_exists_item _ _ _ _,
    fun lexing h => ⟨?_, _, itemized_items _ _ _ h, map_nature_items _ _ _ _⟩⟩
  obtain ⟨-, rfl⟩ := lexing?_eq_some_iff.mp h
  exact (Lexing.ofCells_congr (charsOf_relabel _ _) lexicon _ _).2.2

/-- A text with origins in no order, the last of which is that of a number: the characters behind
its first one have none. -/
theorem exists_itemized_ofString_content_of_few_origins :
    ∃ (text : Text) (lines : LineMap) (plain lexing : Lexing) (items found : List Item),
      text = ⟨"a =\n`b+=1.5 \t\n".toList, [4, 0, 2, 0, -4, 2, 2, 0, 9]⟩ ∧
      (ofString text.content).lexing? .standard (.ofString text.content) = some plain ∧
      text.lexing? .standard lines = some lexing ∧
      lexing.diagnostics =
        [{ cause := .unrecognized "`" .operator, offset := some (-4), position := ⟨1, 1⟩ }] ∧
      lexing.breaks = [2, 5] ∧ lexing.breaks = plain.breaks ∧
      text.Itemized .standard lines lexing found ∧
      found.map (fun item => (item.start, item.nature)) =
        items.map (fun item => (item.start, item.nature)) := by
  have hlexing : lexing? .standard (.ofString "x\ny\nz")
      ⟨"a =\n`b+=1.5 \t\n".toList, [4, 0, 2, 0, -4, 2, 2, 0, 9]⟩ = some
        { tokens := [⟨.identifier, "a", ⟨3, 1⟩⟩, ⟨.operator, "=", ⟨2, 1⟩⟩,
            ⟨.identifier, "b", ⟨2, 1⟩⟩, ⟨.operator, "+=", ⟨2, 1⟩⟩,
            ⟨.numericConstant, "1.5", ⟨3, 2⟩⟩]
          diagnostics :=
            [{ cause := .unrecognized "`" .operator, offset := some (-4), position := ⟨1, 1⟩ }]
          breaks := [2, 5] } := by
    decide +kernel
  obtain ⟨plain, items, hplain, -, -, hyields⟩ :=
    exists_itemized_ofString_content .standard (.ofString "x\ny\nz")
      ⟨"a =\n`b+=1.5 \t\n".toList, [4, 0, 2, 0, -4, 2, 2, 0, 9]⟩
  obtain ⟨hbreaks, found, hfound, hnature⟩ := hyields _ hlexing
  exact ⟨_, _, plain, _, items, found, rfl, hplain, hlexing, rfl, rfl, hbreaks, hfound, hnature⟩

end Text

end CLex
