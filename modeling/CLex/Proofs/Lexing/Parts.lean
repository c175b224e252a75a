import CLex.Proofs.Segment.Parts

/-!
# Lexings of Parts

What a text yields is put together from what its parts yield: their tokens and problems one
after the other, and their line ends, where the tokens of the earlier parts come before the
line ends of the later ones. A part may have been taken from somewhere else; then only the
positions and the offsets in what it yields are different.

## Main definitions

* `Lexing.append`: what two parts yield together.
* `Lexing.move`: the same with other positions and offsets.

## Main results

* `Lexing.ofCells_append`: the lexing of two parts.
* `Lexing.ofCells_spaces_append`, `Lexing.ofCells_append_newline`: whitespace before a part, and
  a line end between two.
* `Lexing.ofCells_relabel`: the lexing of cells from elsewhere.
* `Lexing.ofCells_congr`: what the characters alone determine.
-/

namespace CLex

/-! ### Parts -/

attribute [ext] Lexing

namespace Lexing

/-- What two parts of a text yield, one after the other. -/
def append (a b : Lexing) : Lexing where
  tokens := a.tokens ++ b.tokens
  diagnostics := a.diagnostics ++ b.diagnostics
  breaks := a.breaks ++ b.breaks.map (a.tokens.length + ·)

instance : Append Lexing := ⟨append⟩

@[simp] theorem tokens_append (a b : Lexing) : (a ++ b).tokens = a.tokens ++ b.tokens := rfl

@[simp] theorem diagnostics_append (a b : Lexing) :
    (a ++ b).diagnostics = a.diagnostics ++ b.diagnostics := rfl

@[simp] theorem breaks_append (a b : Lexing) :
    (a ++ b).breaks = a.breaks ++ b.breaks.map (a.tokens.length + ·) := rfl

/-- Nothing comes before what is yielded. -/
theorem empty_append (a : Lexing) : ({} : Lexing) ++ a = a :=
  Lexing.ext rfl rfl (by simp)

/-- Three parts may be put together from either side. -/
theorem append_assoc (a b c : Lexing) : a ++ b ++ c = a ++ (b ++ c) :=
  Lexing.ext (List.append_assoc ..) (List.append_assoc ..)
    (by simp [Function.comp_def, Nat.add_assoc])

/-- The outcomes of two parts. -/
theorem ofOutcomes_append (os ps : List Outcome) :
    ofOutcomes (os ++ ps) = ofOutcomes os ++ ofOutcomes ps := by
  simp only [ofOutcomes, List.filterMap_append, lineBreaks_append]
  rfl

variable (lexicon : Lexicon) (lines : LineMap)

/-- The segments of two parts. -/
theorem ofSegments_append (ss ts : List (Segment Int)) :
    ofSegments lexicon lines (ss ++ ts) =
      ofSegments lexicon lines ss ++ ofSegments lexicon lines ts := by
  rw [ofSegments, List.map_append, ofOutcomes_append]
  rfl

/-- The first segment and the others. -/
theorem ofSegments_cons (s : Segment Int) (ss : List (Segment Int)) :
    ofSegments lexicon lines (s :: ss) =
      ofOutcomes [s.outcome lexicon lines] ++ ofSegments lexicon lines ss :=
  ofSegments_append lexicon lines [s] ss

/-- An empty text yields nothing. -/
theorem ofCells_nil : ofCells lexicon lines [] = {} := by
  rw [ofCells, segments_nil]
  rfl

variable {lexicon} (hsolid : lexicon.IsSolid)

include hsolid in
/-- A text that is taken apart before whitespace yields what its parts yield. -/
theorem ofCells_append (xs : List (Cell Int)) {ys : List (Cell Int)}
    (hspace : ∀ c ∈ (charsOf ys).head?, isWhitespace c = true) :
    ofCells lexicon lines (xs ++ ys) = ofCells lexicon lines xs ++ ofCells lexicon lines ys := by
  rw [ofCells, segments_append hsolid hspace, ofSegments_append]
  rfl

/-- Whitespace before a text yields no more than its line ends. -/
theorem ofCells_spaces_append {spaces : List (Cell Int)}
    (h : ∀ c ∈ charsOf spaces, isWhitespace c = true) (rest : List (Cell Int)) :
    ofCells lexicon lines (spaces ++ rest) =
      ({ breaks := List.replicate ((charsOf spaces).count '\n') 0 } : Lexing) ++
        ofCells lexicon lines rest := by
  induction spaces with
  | nil => exact (empty_append _).symm
  | cons x spaces ih =>
      obtain ⟨c, offset⟩ := x
      obtain ⟨hc, hspaces⟩ := List.forall_mem_cons.mp h
      have hcons : ofCells lexicon lines ((c, offset) :: (spaces ++ rest)) =
          ofOutcomes [(Segment.space c).outcome lexicon lines] ++
            ofCells lexicon lines (spaces ++ rest) := by
        rw [ofCells, segments_cons, nextSegment_space hc, ofSegments_cons]
        rfl
      rw [List.cons_append, hcons, ih hspaces, ← append_assoc]
      refine congrArg (· ++ ofCells lexicon lines rest) ?_
      by_cases hnewline : c = '\n'
      · rw [Segment.outcome, if_pos hnewline, hnewline, charsOf_cons, List.count_cons_self,
          List.replicate_succ]
        exact Lexing.ext rfl rfl (by simp [ofOutcomes, lineBreaks_lineEnd, Outcome.token?])
      · rw [Segment.outcome, if_neg hnewline, charsOf_cons, List.count_cons_of_ne hnewline]
        exact empty_append _

include hsolid in
/-- What two texts yield that have a line end between them. -/
theorem ofCells_append_newline (xs : List (Cell Int)) (offset : Int) (ys : List (Cell Int)) :
    ofCells lexicon lines (xs ++ ('\n', offset) :: ys) =
      ofCells lexicon lines xs ++ (({ breaks := [0] } : Lexing) ++ ofCells lexicon lines ys) := by
  have hspaces : ∀ c ∈ charsOf [('\n', offset)], isWhitespace c = true := by simp [isWhitespace]
  rw [ofCells_append lines hsolid xs (by simp [isWhitespace])]
  exact congrArg _ (ofCells_spaces_append lines hspaces ys)

end Lexing

/-! ### Other positions -/

/-- The same token at another position. -/
def Token.move (f : Position → Position) (t : Token) : Token :=
  { t with position := f t.position }

/-- The same diagnostic at another offset and another position. -/
def Diagnostic.move (f : Position → Position) (g : Int → Int) (d : Diagnostic) : Diagnostic :=
  { d with offset := d.offset.map g, position := f d.position }

/-- The same outcome at another offset and another position. -/
def Outcome.move (f : Position → Position) (g : Int → Int) : Outcome → Outcome
  | token t => token (t.move f)
  | problem d => problem (d.move f g)
  | lineEnd => lineEnd
  | gap => gap

/-- The same yield at other offsets and other positions. -/
def Lexing.move (f : Position → Position) (g : Int → Int) (a : Lexing) : Lexing where
  tokens := a.tokens.map (·.move f)
  diagnostics := a.diagnostics.map (·.move f g)
  breaks := a.breaks

/-- A segment that starts elsewhere has the same outcome there. -/
theorem Segment.outcome_relabel {lexicon : Lexicon} {lines lines' : LineMap}
    {f : Position → Position} {g : Int → Int} {s : Segment Int}
    (h : ∀ n ∈ s.start?, lines'.locate (g n) = f (lines.locate n)) :
    (s.relabel g).outcome lexicon lines' = (s.outcome lexicon lines).move f g := by
  cases s with
  | space c =>
      by_cases hc : c = '\n' <;> simp [Segment.relabel, Segment.outcome, Outcome.move, hc]
  | mark chars n =>
      have h : lines'.locate (g n) = f (lines.locate n) := h n rfl
      simp only [Segment.relabel, Segment.outcome, h]
      by_cases hop : lexicon.isOperator chars = true
      · rw [if_pos hop, if_pos hop]
        rfl
      · rw [if_neg hop, if_neg hop]
        rfl
  | word chars n =>
      have h : lines'.locate (g n) = f (lines.locate n) := h n rfl
      simp only [Segment.relabel, Segment.outcome, h]
      cases Token.Kind.ofWord? lexicon.keywords (String.ofList chars) with
      | some kind => rfl
      | none => rfl

namespace Lexing

/-- Outcomes elsewhere yield the same elsewhere. -/
theorem ofOutcomes_move (f : Position → Position) (g : Int → Int) (os : List Outcome) :
    ofOutcomes (os.map (·.move f g)) = (ofOutcomes os).move f g := by
  induction os with
  | nil => rfl
  | cons o os ih =>
      have hcons : ∀ ps : List Outcome, ofOutcomes (o :: ps) = ofOutcomes [o] ++ ofOutcomes ps :=
        fun ps => ofOutcomes_append [o] ps
      have hcons' : ∀ ps : List Outcome,
          ofOutcomes (o.move f g :: ps) = ofOutcomes [o.move f g] ++ ofOutcomes ps :=
        fun ps => ofOutcomes_append [o.move f g] ps
      rw [List.map_cons, hcons', ih, hcons]
      cases o <;> rfl

/-- Segments that start elsewhere yield the same there. -/
theorem ofSegments_relabel {lexicon : Lexicon} {lines lines' : LineMap}
    {f : Position → Position} {g : Int → Int} {segments : List (Segment Int)}
    (h : ∀ s ∈ segments, ∀ n ∈ s.start?, lines'.locate (g n) = f (lines.locate n)) :
    ofSegments lexicon lines' (segments.map (Segment.relabel g)) =
      (ofSegments lexicon lines segments).move f g := by
  rw [ofSegments, ofSegments, ← ofOutcomes_move, List.map_map, List.map_map]
  exact congrArg ofOutcomes (List.map_congr_left fun s hs => Segment.outcome_relabel (h s hs))

/-- Cells from elsewhere yield the same there. -/
theorem ofCells_relabel {lexicon : Lexicon} {lines lines' : LineMap}
    {f : Position → Position} {g : Int → Int} {cells : List (Cell Int)}
    (h : ∀ x ∈ cells, lines'.locate (g x.2) = f (lines.locate x.2)) :
    ofCells lexicon lines' (relabel g cells) = (ofCells lexicon lines cells).move f g := by
  rw [ofCells, segments_relabel]
  refine ofSegments_relabel fun s hs n hn => ?_
  obtain ⟨x, hx, rfl⟩ := exists_mem_of_start? hs hn
  exact h x hx

/-- Only where the lexemes start a line map is looked into. -/
theorem ofCells_congr_lines {lexicon : Lexicon} {lines lines' : LineMap} {cells : List (Cell Int)}
    (h : ∀ x ∈ cells, lines'.locate x.2 = lines.locate x.2) :
    ofCells lexicon lines' cells = ofCells lexicon lines cells := by
  have hcells : relabel id cells = cells := List.map_id _
  have hmove : (ofCells lexicon lines cells).move id id = ofCells lexicon lines cells := by
    simp [move, Token.move, Diagnostic.move]
  rw [← hmove, ← ofCells_relabel (f := id) (g := id) h, hcells]

/-- What the characters of a text determine: all but positions and offsets. -/
theorem ofCells_congr {xs ys : List (Cell Int)} (h : charsOf xs = charsOf ys)
    (lexicon : Lexicon) (lines lines' : LineMap) :
    (ofCells lexicon lines xs).tokens.map (fun t => (t.kind, t.lexeme)) =
        (ofCells lexicon lines' ys).tokens.map (fun t => (t.kind, t.lexeme)) ∧
      (ofCells lexicon lines xs).diagnostics.map (·.cause) =
        (ofCells lexicon lines' ys).diagnostics.map (·.cause) ∧
      (ofCells lexicon lines xs).breaks = (ofCells lexicon lines' ys).breaks := by
  -- both texts with the same label everywhere, and a source in which it has a position
  let nowhere : LineMap := .ofList []
  have hmove : ∀ (lines : LineMap) (cells : List (Cell Int)),
      ofCells lexicon nowhere (relabel (fun _ => 0) cells) =
        (ofCells lexicon lines cells).move (fun _ => nowhere.locate 0) (fun _ => 0) :=
    fun lines cells => ofCells_relabel fun _ _ => rfl
  have hlabels : relabel (fun _ : Int => (0 : Int)) xs = relabel (fun _ => 0) ys := by
    rw [relabel_const, relabel_const, h]
  have heq := (hmove lines xs).symm.trans ((congrArg _ hlabels).trans (hmove lines' ys))
  obtain ⟨htokens, hproblems, hbreaks⟩ := Lexing.mk.inj heq
  refine ⟨?_, ?_, hbreaks⟩
  · simpa [Function.comp_def, Token.move] using
      congrArg (List.map fun t : Token => (t.kind, t.lexeme)) htokens
  · simpa [Function.comp_def, Diagnostic.move] using
      congrArg (List.map fun d : Diagnostic => d.cause) hproblems

end Lexing

end CLex
