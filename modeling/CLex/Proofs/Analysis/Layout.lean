import CLex.Proofs.Analysis.Sighting
import CLex.Proofs.Position.Lines
import CLex.Proofs.Segment.Lexeme
import CLex.Proofs.Segment.Spacing

/-!
# Lexemes in a Layout

A **layout** writes down lexemes one after the other, with whitespace of any kind between them
and perhaps around them. The analysis of what is written finds the lexemes again: each gives a
token or a problem at its position, there is nothing else, and the line ends are where the
whitespace has line feeds.

## Main definitions

* `Layout`: lexemes and whitespace; `Layout.source` is what is written.
* `Layout.seen`: what is to be found, one thing for each lexeme.

## Main results

* `Layout.ofCells_written`: what a layout yields.
* `Analysis.ofSource_layout`: the analysis of a layout.
-/

namespace CLex

/-! ### Layouts -/

/-- A lexeme, and the whitespace after it. -/
structure Layout.Item where
  /-- The lexeme. -/
  lexeme : List Char
  /-- The whitespace. -/
  gap : List Char
  /-- It is a lexeme if it stands alone. -/
  isLexeme : IsLexeme lexeme
  /-- There is nothing but whitespace after it. -/
  isWhitespace_gap : ∀ c ∈ gap, isWhitespace c = true

/-- Lexemes with whitespace between them. -/
structure Layout where
  /-- The whitespace before all lexemes. -/
  lead : List Char
  /-- The lexemes, each with the whitespace after it. -/
  items : List Layout.Item
  /-- There is nothing but whitespace before them. -/
  isWhitespace_lead : ∀ c ∈ lead, isWhitespace c = true
  /-- There is whitespace between any two lexemes. -/
  apart : ∀ item ∈ items.dropLast, item.gap ≠ []

namespace Layout

/-- The characters of a lexeme and of the whitespace after it. -/
def Item.chars (item : Item) : List Char :=
  item.lexeme ++ item.gap

/-- What is written: whitespace, and then each lexeme with the whitespace after it. -/
def written (lead : List Char) (items : List Item) : List Char :=
  lead ++ items.flatMap Item.chars

/-- What is seen in lexemes that are written after a text, one thing in each. -/
def seenIn (before : List Char) : List Item → List (Token ⊕ Diagnostic)
  | [] => []
  | item :: items => seenAfter before item.lexeme :: seenIn (before ++ item.chars) items

/-- For each line feed in the gaps in order, how many tokens are seen before it. The first gap
is before all that is seen, and each of the others comes after one more. -/
def lineEnds (gaps : List (List Char)) (seen : List (Token ⊕ Diagnostic)) : List Nat :=
  gaps.zipIdx.flatMap fun (gap, i) =>
    List.replicate (gap.count '\n') ((seen.take i).countP Sum.isLeft)

variable (layout : Layout)

/-- The source that is written. -/
def source : String :=
  String.ofList (written layout.lead layout.items)

/-- What is seen in the lexemes, in order. -/
def seen : List (Token ⊕ Diagnostic) :=
  seenIn layout.lead layout.items

/-- All whitespace, in order. -/
def gaps : List (List Char) :=
  layout.lead :: layout.items.map Item.gap

/-! ### Line ends -/

/-- A gap that nothing comes after. -/
theorem lineEnds_singleton (gap : List Char) :
    lineEnds [gap] [] = List.replicate (gap.count '\n') 0 := by
  simp [lineEnds]

/-- What is seen first is before all line ends but those of the first gap. -/
theorem lineEnds_cons (gap : List Char) (gaps : List (List Char)) (s : Token ⊕ Diagnostic)
    (seen : List (Token ⊕ Diagnostic)) :
    lineEnds (gap :: gaps) (s :: seen) =
      List.replicate (gap.count '\n') 0 ++
        (lineEnds gaps seen).map ((Lexing.ofSeen s).tokens.length + ·) := by
  have hcount : ∀ i, ((s :: seen).take (i + 1)).countP Sum.isLeft =
      (Lexing.ofSeen s).tokens.length + (seen.take i).countP Sum.isLeft := by
    intro i
    cases s with
    | inl t => simp [Lexing.ofSeen, List.countP_cons, Nat.add_comm]
    | inr d => simp [Lexing.ofSeen]
  rw [lineEnds, List.zipIdx_cons, List.flatMap_cons, List.zipIdx_succ, List.flatMap_map, lineEnds,
    List.map_flatMap]
  simp only [hcount, List.map_replicate, List.take_zero, List.countP_nil]

/-! ### Lexing -/

/-- What gaps yield, and what is seen between them. -/
def lexing (gaps : List (List Char)) (seen : List (Token ⊕ Diagnostic)) : Lexing where
  tokens := seen.filterMap Sum.getLeft?
  diagnostics := seen.filterMap Sum.getRight?
  breaks := lineEnds gaps seen

theorem lexing_singleton (gap : List Char) :
    lexing [gap] [] = { breaks := List.replicate (gap.count '\n') 0 } :=
  Lexing.ext rfl rfl (lineEnds_singleton gap)

/-- The first gap comes first, then what is seen first, and then the others. -/
theorem lexing_cons (gap : List Char) (gaps : List (List Char)) (s : Token ⊕ Diagnostic)
    (seen : List (Token ⊕ Diagnostic)) :
    lexing (gap :: gaps) (s :: seen) =
      ({ breaks := List.replicate (gap.count '\n') 0 } : Lexing) ++
        (Lexing.ofSeen s ++ lexing gaps seen) := by
  refine Lexing.ext ?_ ?_ ?_
  · cases s <;> rfl
  · cases s <;> rfl
  · have hbreaks : (Lexing.ofSeen s).breaks = [] := by cases s <;> rfl
    have hlineEnds := lineEnds_cons gap gaps s seen
    simpa [lexing, hbreaks, Function.comp_def] using hlineEnds

/-- The first lexeme is written after the whitespace, and the others after it. -/
theorem written_cons (lead : List Char) (item : Item) (items : List Item) :
    written lead (item :: items) = lead ++ (item.lexeme ++ written item.gap items) := by
  simp [written, Item.chars]

/-- What follows a lexeme starts with whitespace. -/
theorem isWhitespace_head?_written {item : Item} {items : List Item}
    (hapart : ∀ i ∈ (item :: items).dropLast, i.gap ≠ []) :
    ∀ c ∈ (written item.gap items).head?, isWhitespace c = true := by
  intro c hc
  cases hgap : item.gap with
  | cons d gap =>
      obtain rfl : d = c := by simpa [written, hgap] using hc
      exact item.isWhitespace_gap d (by simp [hgap])
  | nil =>
      cases items with
      | nil => simp [written, hgap] at hc
      -- only the last lexeme may have no gap
      | cons next items => exact absurd hgap (hapart item (by simp))

/-- Lexemes after the first one are still apart. -/
theorem apart_tail {item : Item} {items : List Item}
    (hapart : ∀ i ∈ (item :: items).dropLast, i.gap ≠ []) :
    ∀ i ∈ items.dropLast, i.gap ≠ [] := by
  intro i hi
  cases items with
  | nil => simp at hi
  | cons next items => exact hapart i (List.mem_cons_of_mem _ hi)

/-- **What a layout yields.** Lexemes and whitespace between them yield what is seen in the
lexemes, and the line ends of the whitespace. -/
theorem ofCells_written {before lead : List Char} {items : List Item}
    (hlead : ∀ c ∈ lead, isWhitespace c = true)
    (hapart : ∀ item ∈ items.dropLast, item.gap ≠ []) :
    Lexing.ofCells .standard (.ofList (before ++ written lead items))
        (numberedFrom before.length (written lead items)) =
      lexing (lead :: items.map Item.gap) (seenIn (before ++ lead) items) := by
  induction items generalizing before lead with
  | nil =>
      have hcells : numberedFrom before.length (written lead []) =
          numberedFrom before.length lead ++ [] := by
        simp [written]
      rw [hcells, Lexing.ofCells_spaces_append _ (by simpa using hlead), charsOf_numberedFrom,
        Lexing.ofCells_nil, List.map_nil, seenIn, lexing_singleton]
      exact Lexing.ext rfl rfl (List.append_nil _)
  | cons item items ih =>
      -- after the first lexeme comes a shorter layout, led by the gap, with more text before it
      have hsource : before ++ written lead (item :: items) =
          before ++ lead ++ item.lexeme ++ written item.gap items := by
        simp [written_cons]
      have hcells : numberedFrom before.length (written lead (item :: items)) =
          numberedFrom before.length lead ++
            (numberedFrom (before ++ lead).length item.lexeme ++
              numberedFrom (before ++ lead ++ item.lexeme).length (written item.gap items)) := by
        simp only [written_cons, numberedFrom_append, List.length_append]
      have hposition : (LineMap.ofList (before ++ written lead (item :: items))).locate
          (before ++ lead).length = Position.after (before ++ lead) := by
        rw [hsource, List.append_assoc (before ++ lead)]
        exact LineMap.locate_length_append _ _
      have hspace : ∀ c ∈ (charsOf (numberedFrom (before ++ lead ++ item.lexeme).length
          (written item.gap items))).head?, isWhitespace c = true := by
        rw [charsOf_numberedFrom]
        exact isWhitespace_head?_written hapart
      have hitems := @ih (before ++ lead ++ item.lexeme) item.gap item.isWhitespace_gap
        (apart_tail hapart)
      rw [hcells, Lexing.ofCells_spaces_append _ (by simpa using hlead), charsOf_numberedFrom,
        Lexing.ofCells_append _ Lexicon.isSolid_standard _ hspace,
        Lexing.ofCells_lexeme hposition item.isLexeme, hsource, hitems, List.map_cons, seenIn,
        lexing_cons, Item.chars, List.append_assoc (before ++ lead)]

/-! ### No comments -/

/-- No comment opens in a layout. -/
theorem opensNowhere_written {lead : List Char} {items : List Item}
    (hlead : ∀ c ∈ lead, isWhitespace c = true)
    (hapart : ∀ item ∈ items.dropLast, item.gap ≠ []) :
    Comment.OpensNowhere (written lead items) := by
  induction items generalizing lead with
  | nil => exact (Comment.opensNowhere_spaces_append hlead).mpr Comment.opensNowhere_nil
  | cons item items ih =>
      rw [written_cons, Comment.opensNowhere_spaces_append hlead]
      refine item.isLexeme.opensNowhere.append (ih item.isWhitespace_gap (apart_tail hapart)) ?_
      intro c hc
      have hspace := isWhitespace_head?_written hapart c hc
      constructor
      · rintro rfl
        exact absurd hspace (by decide)
      · rintro rfl
        exact absurd hspace (by decide)

end Layout

/-! ### The analysis -/

variable (layout : Layout)

/-- The characters of a layout. -/
theorem Layout.toList_source : layout.source.toList = Layout.written layout.lead layout.items :=
  String.toList_ofList

namespace Stages

/-- There are no comments to strip from a layout. -/
theorem stripped_layout :
    (ofSource layout.source).stripped =
      { kept := numbered layout.source.toList, opened := [], unclosed := none } := by
  refine Comment.strip_of_opensNowhere ?_
  rw [charsOf_numbered, Layout.toList_source]
  exact Layout.opensNowhere_written layout.isWhitespace_lead layout.apart

/-- Lexing finds what is seen in a layout, and does not see how its spacing is collapsed. -/
theorem lexed_layout :
    (ofSource layout.source).lexed = Layout.lexing layout.gaps layout.seen := by
  have hlexed : (ofSource layout.source).lexed = .ofCells .standard (.ofString layout.source)
      (Spacing.collapse (ofSource layout.source).stripped.kept) := rfl
  rw [hlexed, stripped_layout, Lexing.ofCells_collapse Lexicon.isSolid_standard,
    LineMap.ofString, Layout.toList_source]
  exact @Layout.ofCells_written [] _ _ layout.isWhitespace_lead layout.apart

end Stages

/-- **Written lexemes are read again.** The analysis of a layout finds the tokens and the
problems that are seen in its lexemes, one in each and at its position, and the line ends of
its whitespace. There are no others. -/
theorem Analysis.ofSource_layout :
    (ofSource layout.source).tokens = layout.seen.filterMap Sum.getLeft? ∧
      (ofSource layout.source).diagnostics = layout.seen.filterMap Sum.getRight? ∧
      (ofSource layout.source).breaks =
        (Layout.lineEnds layout.gaps layout.seen).map Int.ofNat := by
  have hlexed := Stages.lexed_layout layout
  refine ⟨congrArg Lexing.tokens hlexed, ?_, ?_⟩
  · rw [diagnostics_ofSource, Comment.Stripped.diagnostics, Stages.stripped_layout, hlexed,
      Option.toList_none, List.map_nil, List.map_nil, List.append_nil, Layout.lexing]
  · exact congrArg (fun lexing => lexing.breaks.map Int.ofNat) hlexed

/-- Two slashes that are apart, after a number that is none. -/
theorem Analysis.ofSource_layout_of_slashes :
    ∃ layout : Layout, layout.source = "\n3.14x -> /\n\n/ @\t1.5" ∧
      (ofSource layout.source).tokens =
        [{ kind := .operator, lexeme := "->", position := ⟨2, 7⟩ },
         { kind := .operator, lexeme := "/", position := ⟨2, 10⟩ },
         { kind := .operator, lexeme := "/", position := ⟨4, 1⟩ },
         { kind := .numericConstant, lexeme := "1.5", position := ⟨4, 5⟩ }] ∧
      (ofSource layout.source).diagnostics =
        [{ cause := .unrecognized "3.14x" .malformed, offset := some 1, position := ⟨2, 1⟩ },
         { cause := .unrecognized "@" .operator, offset := some 15, position := ⟨4, 3⟩ }] ∧
      (ofSource layout.source).breaks = [0, 2, 2] := by
  let layout : Layout :=
    { lead := ['\n']
      items :=
        [⟨['3', '.', '1', '4', 'x'], [' '],
            @IsLexeme.decimal ['3'] ['4', 'x'] '1' (by decide) (List.all_eq_true.mp rfl) rfl
              (List.all_eq_true.mp rfl), List.all_eq_true.mp rfl⟩,
         ⟨['-', '>'], [' '], .operator (by decide), List.all_eq_true.mp rfl⟩,
         ⟨['/'], ['\n', '\n'], .operator (by decide), List.all_eq_true.mp rfl⟩,
         ⟨['/'], [' '], .punctuation rfl, List.all_eq_true.mp rfl⟩,
         ⟨['@'], ['\t'], .punctuation rfl, List.all_eq_true.mp rfl⟩,
         ⟨['1', '.', '5'], [],
            @IsLexeme.decimal ['1'] [] '5' (by decide) (List.all_eq_true.mp rfl) rfl
              (List.all_eq_true.mp rfl), List.all_eq_true.mp rfl⟩]
      isWhitespace_lead := List.all_eq_true.mp rfl
      apart := by decide }
  obtain ⟨htokens, hdiagnostics, hbreaks⟩ := ofSource_layout layout
  refine ⟨layout, rfl, htokens.trans ?_, hdiagnostics.trans ?_, hbreaks.trans ?_⟩
  · decide +kernel
  · decide +kernel
  · decide +kernel

end CLex
