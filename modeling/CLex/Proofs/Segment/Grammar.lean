import Mathlib.Logic.ExistsUnique
import CLex.Proofs.Run
import CLex.Proofs.Text.Origins

/-!
# The Grammar of Segments

How a text falls into whitespace, marks and words is said here by conditions on neighbouring
segments: a text is **divided** into single whitespace characters, pairs that are operators,
other single punctuation characters, and longest runs of word characters, of which two may
form a decimal number around a point. The conditions leave no choice, so that a text is
divided in one way only, and cutting finds that way, whatever the keywords and operators are.

An operator of two characters need not consist of punctuation: only its first character must
be a punctuation character for the pair to be looked up.

## Main results

* `divided_iff`: a text is divided into its segments, and in no other way.
* `yields_ofSegments`: what a division yields is what is collected from its segments.
* `existsUnique_divided_lexing`: lexing a source in terms of how it is divided.
-/

namespace CLex

variable {α : Type}

/-! ### The grammar -/

/-- Whether a text begins with a point and a digit. -/
def StartsFraction (chars : List Char) : Prop :=
  ∃ d rest, chars = '.' :: d :: rest ∧ d.isDigit = true

/-- A text is divided into whitespace, marks and words. A word ends where its run of word
characters ends, except that a run of digits goes on over a point before a digit, and over
the run after that point. -/
inductive Divided (lexicon : Lexicon) : List (Cell α) → List (Segment α) → Prop
  | nil : Divided lexicon [] []
  | space {c : Char} {a : α} {rest : List (Cell α)} {segments : List (Segment α)} :
      isWhitespace c = true → Divided lexicon rest segments →
      Divided lexicon ((c, a) :: rest) (.space c :: segments)
  | pair {c d : Char} {a b : α} {rest : List (Cell α)} {segments : List (Segment α)} :
      isPunctuation c = true → String.ofList [c, d] ∈ lexicon.operators →
      Divided lexicon rest segments →
      Divided lexicon ((c, a) :: (d, b) :: rest) (.mark [c, d] a :: segments)
  | single {c : Char} {a : α} {rest : List (Cell α)} {segments : List (Segment α)} :
      isPunctuation c = true →
      (∀ d ∈ (charsOf rest).head?, String.ofList [c, d] ∉ lexicon.operators) →
      Divided lexicon rest segments →
      Divided lexicon ((c, a) :: rest) (.mark [c] a :: segments)
  | word {c : Char} {a : α} {run rest : List (Cell α)} {segments : List (Segment α)} :
      IsLongestRun isWordChar (c :: charsOf run) (charsOf rest) →
      ¬ ((∀ d ∈ c :: charsOf run, d.isDigit = true) ∧ StartsFraction (charsOf rest)) →
      Divided lexicon rest segments →
      Divided lexicon ((c, a) :: (run ++ rest)) (.word (c :: charsOf run) a :: segments)
  | decimal {c : Char} {a b : α} {run fraction rest : List (Cell α)}
      {segments : List (Segment α)} :
      (∀ d ∈ c :: charsOf run, d.isDigit = true) →
      StartsFraction ('.' :: charsOf fraction) →
      IsLongestRun isWordChar (charsOf fraction) (charsOf rest) →
      Divided lexicon rest segments →
      Divided lexicon ((c, a) :: (run ++ ('.', b) :: (fraction ++ rest)))
        (.word (c :: (charsOf run ++ '.' :: charsOf fraction)) a :: segments)

/-! ### The conditions as they are tested -/

/-- A fraction is not ended by what follows it. -/
theorem StartsFraction.append {chars : List Char} (h : StartsFraction chars) (more : List Char) :
    StartsFraction (chars ++ more) := by
  obtain ⟨d, rest, rfl, hd⟩ := h
  exact ⟨d, rest ++ more, rfl, hd⟩

/-- Characters form an operator if the lexicon lists them. -/
theorem Lexicon.isOperator_eq_true_iff {lexicon : Lexicon} {chars : List Char} :
    lexicon.isOperator chars = true ↔ String.ofList chars ∈ lexicon.operators := by
  rw [isOperator, List.contains_iff_mem]

/-- A number goes on if it has digits only and a fraction follows. -/
theorem continuesNumber_eq_true_iff {run : List Char} {rest : List (Cell α)} :
    continuesNumber run rest = true ↔
      (∀ d ∈ run, d.isDigit = true) ∧ StartsFraction (charsOf rest) := by
  rw [continuesNumber, Bool.and_eq_true, Bool.and_eq_true, List.all_eq_true, and_assoc]
  refine and_congr_right fun _ => ?_
  cases rest with
  | nil => simp [StartsFraction]
  | cons x rest =>
      cases rest with
      | nil => simp [StartsFraction]
      | cons y rest => simp [StartsFraction, and_assoc]

/-- Digits are followed by a point where they end. -/
theorem isLongestRun_digits {run : List Char} {rest : List Char}
    (h : ∀ d ∈ run, d.isDigit = true) : IsLongestRun isWordChar run ('.' :: rest) := by
  refine ⟨fun d hd => isWordChar_of_isDigit (h d hd), fun d hd => ?_⟩
  obtain rfl : '.' = d := by simpa using hd
  decide

/-! ### The first segment -/

/-- Whitespace stands for itself. -/
theorem nextSegment_space {lexicon : Lexicon} {c : Char} {a : α} {rest : List (Cell α)}
    (h : isWhitespace c = true) : nextSegment lexicon (c, a) rest = (.space c, rest) := by
  rw [nextSegment, if_pos h]

/-- A punctuation character that starts an operator of two characters takes both. -/
theorem nextSegment_pair {lexicon : Lexicon} {c d : Char} {a b : α} {rest : List (Cell α)}
    (hc : isPunctuation c = true) (hop : String.ofList [c, d] ∈ lexicon.operators) :
    nextSegment lexicon (c, a) ((d, b) :: rest) = (.mark [c, d] a, rest) := by
  have hw : isWhitespace c = false := isWhitespace_of_isPunctuation hc
  rw [nextSegment, if_neg (by simp [hw]), if_pos hc, takeMark,
    if_pos (Lexicon.isOperator_eq_true_iff.mpr hop)]

/-- Any other punctuation character stands alone. -/
theorem nextSegment_single {lexicon : Lexicon} {c : Char} {a : α} {rest : List (Cell α)}
    (hc : isPunctuation c = true)
    (hop : ∀ d ∈ (charsOf rest).head?, String.ofList [c, d] ∉ lexicon.operators) :
    nextSegment lexicon (c, a) rest = (.mark [c] a, rest) := by
  have hw : isWhitespace c = false := isWhitespace_of_isPunctuation hc
  rw [nextSegment, if_neg (by simp [hw]), if_pos hc]
  cases rest with
  | nil => rfl
  | cons y rest =>
      have hy : String.ofList [c, y.1] ∉ lexicon.operators := hop y.1 rfl
      rw [takeMark, if_neg (mt Lexicon.isOperator_eq_true_iff.mp hy)]

/-- A word character starts a word. -/
private theorem nextSegment_of_isWordChar {lexicon : Lexicon} {c : Char} {a : α}
    {rest : List (Cell α)} (h : isWordChar c = true) :
    nextSegment lexicon (c, a) rest =
      (.word (takeWord (c, a) rest).1 a, (takeWord (c, a) rest).2) := by
  obtain ⟨hw, hp⟩ := isWordChar_iff.mp h
  rw [nextSegment, if_neg (by simp [hw]), if_neg (by simp [hp])]

/-- A word is a longest run of word characters, if that run is no number with a fraction. -/
theorem nextSegment_word {lexicon : Lexicon} {c : Char} {a : α} {run rest : List (Cell α)}
    (hrun : IsLongestRun isWordChar (c :: charsOf run) (charsOf rest))
    (hnumber : ¬ ((∀ d ∈ c :: charsOf run, d.isDigit = true) ∧ StartsFraction (charsOf rest))) :
    nextSegment lexicon (c, a) (run ++ rest) = (.word (c :: charsOf run) a, rest) := by
  have hc : isWordChar c = true := hrun.1 c (List.mem_cons_self ..)
  have hcells : IsLongestRun inWord run rest :=
    (isLongestRun_map (f := Prod.fst)).mp ⟨fun d hd => hrun.1 d (List.mem_cons_of_mem _ hd), hrun.2⟩
  rw [nextSegment_of_isWordChar hc, takeWord, hcells.takeWhile_eq, hcells.dropWhile_eq,
    if_neg (mt continuesNumber_eq_true_iff.mp hnumber)]

/-- A number with a fraction is a run of digits, a point, and a longest run of word
characters that starts with a digit. -/
theorem nextSegment_decimal {lexicon : Lexicon} {c : Char} {a b : α}
    {run fraction rest : List (Cell α)} (hdigits : ∀ d ∈ c :: charsOf run, d.isDigit = true)
    (hfraction : StartsFraction ('.' :: charsOf fraction))
    (hrun : IsLongestRun isWordChar (charsOf fraction) (charsOf rest)) :
    nextSegment lexicon (c, a) (run ++ ('.', b) :: (fraction ++ rest)) =
      (.word (c :: (charsOf run ++ '.' :: charsOf fraction)) a, rest) := by
  have hc : isWordChar c = true :=
    isWordChar_of_isDigit (hdigits c (List.mem_cons_self ..))
  have hwhole : IsLongestRun inWord run (('.', b) :: (fraction ++ rest)) :=
    (isLongestRun_map (f := Prod.fst)).mp
      (isLongestRun_digits fun d hd => hdigits d (List.mem_cons_of_mem _ hd))
  have hpart : IsLongestRun inWord fraction rest := (isLongestRun_map (f := Prod.fst)).mp hrun
  have hnumber : continuesNumber (c :: charsOf run) (('.', b) :: (fraction ++ rest)) = true := by
    refine continuesNumber_eq_true_iff.mpr ⟨hdigits, ?_⟩
    rw [charsOf_cons, charsOf_append, ← List.cons_append]
    exact hfraction.append (charsOf rest)
  rw [nextSegment_of_isWordChar hc, takeWord, hwhole.takeWhile_eq, hwhole.dropWhile_eq,
    if_pos hnumber, List.tail_cons, hpart.takeWhile_eq, hpart.dropWhile_eq]
  rfl

/-! ### Existence and uniqueness -/

/-- Cells that start with a fraction. -/
private theorem exists_of_startsFraction {cells : List (Cell α)}
    (h : StartsFraction (charsOf cells)) :
    ∃ b rest, cells = ('.', b) :: rest ∧ StartsFraction ('.' :: charsOf rest) := by
  obtain ⟨d, after, hafter, hd⟩ := h
  cases cells with
  | nil => simp at hafter
  | cons x rest =>
      obtain ⟨c, b⟩ := x
      rw [charsOf_cons, List.cons.injEq] at hafter
      obtain ⟨hpoint, hrest⟩ := hafter
      obtain rfl : c = '.' := hpoint
      exact ⟨b, rest, rfl, d, after, by rw [hrest], hd⟩

/-- The longest run after a point starts with a digit if the text does. -/
private theorem StartsFraction.takeWhile {rest : List (Cell α)}
    (h : StartsFraction ('.' :: charsOf rest)) :
    StartsFraction ('.' :: charsOf (rest.takeWhile inWord)) := by
  obtain ⟨d, after, hafter, hd⟩ := h
  obtain ⟨-, hrest⟩ := List.cons.inj hafter
  cases rest with
  | nil => simp at hrest
  | cons x rest =>
      obtain ⟨rfl, -⟩ := List.cons.inj hrest
      have hx : inWord x = true := isWordChar_of_isDigit hd
      exact ⟨x.1, charsOf (rest.takeWhile inWord), by simp [hx], hd⟩

/-- A text is divided if a mark is taken from it and the rest is divided. -/
private theorem divided_of_isPunctuation {lexicon : Lexicon} {c : Char} {a : α}
    {rest : List (Cell α)} (hc : isPunctuation c = true)
    (ih : Divided lexicon (nextSegment lexicon (c, a) rest).2
      (segments lexicon (nextSegment lexicon (c, a) rest).2)) :
    Divided lexicon ((c, a) :: rest) (segments lexicon ((c, a) :: rest)) := by
  rw [segments_cons]
  by_cases hop : ∃ d ∈ (charsOf rest).head?, String.ofList [c, d] ∈ lexicon.operators
  · obtain ⟨d, hd, hop⟩ := hop
    cases rest with
    | nil => simp at hd
    | cons y rest =>
        obtain ⟨e, b⟩ := y
        obtain rfl : e = d := by simpa using hd
        rw [nextSegment_pair hc hop] at ih ⊢
        exact .pair hc hop ih
  · have hop : ∀ d ∈ (charsOf rest).head?, String.ofList [c, d] ∉ lexicon.operators :=
      fun d hd hmem => hop ⟨d, hd, hmem⟩
    rw [nextSegment_single hc hop] at ih ⊢
    exact .single hc hop ih

/-- A text is divided if a word is taken from it and the rest is divided. -/
private theorem divided_of_isWordChar {lexicon : Lexicon} {c : Char} {a : α}
    {rest : List (Cell α)} (hc : isWordChar c = true)
    (ih : Divided lexicon (nextSegment lexicon (c, a) rest).2
      (segments lexicon (nextSegment lexicon (c, a) rest).2)) :
    Divided lexicon ((c, a) :: rest) (segments lexicon ((c, a) :: rest)) := by
  have hcells : IsLongestRun inWord (rest.takeWhile inWord) (rest.dropWhile inWord) :=
    .takeWhile_dropWhile inWord rest
  rw [segments_cons]
  generalize hrun : rest.takeWhile inWord = run at hcells
  generalize hafter : rest.dropWhile inWord = after at hcells
  obtain rfl : rest = run ++ after := by
    rw [← hrun, ← hafter, List.takeWhile_append_dropWhile]
  have hchars : IsLongestRun isWordChar (charsOf run) (charsOf after) :=
    (isLongestRun_map (f := Prod.fst)).mpr hcells
  have hword : IsLongestRun isWordChar (c :: charsOf run) (charsOf after) :=
    ⟨List.forall_mem_cons.mpr ⟨hc, hchars.1⟩, hchars.2⟩
  by_cases hnumber : (∀ d ∈ c :: charsOf run, d.isDigit = true) ∧ StartsFraction (charsOf after)
  · obtain ⟨hdigits, hfraction⟩ := hnumber
    obtain ⟨b, rest, rfl, hstart⟩ := exists_of_startsFraction hfraction
    have hpart : IsLongestRun isWordChar (charsOf (rest.takeWhile inWord))
        (charsOf (rest.dropWhile inWord)) :=
      (isLongestRun_map (f := Prod.fst)).mpr (.takeWhile_dropWhile inWord rest)
    have hstart' := hstart.takeWhile
    rw [← List.takeWhile_append_dropWhile (p := inWord) (l := rest),
      nextSegment_decimal hdigits hstart' hpart] at ih ⊢
    exact .decimal hdigits hstart' hpart ih
  · rw [nextSegment_word hword hnumber] at ih ⊢
    exact .word hword hnumber ih

/-- A text is divided into its segments. -/
theorem divided_segments (lexicon : Lexicon) (cells : List (Cell α)) :
    Divided lexicon cells (segments lexicon cells) := by
  induction cells using (segmentCutter lexicon α).pieces_induction with
  | nil =>
      rw [segments_nil]
      exact .nil
  | cons x rest ih =>
      have ih : Divided lexicon (nextSegment lexicon x rest).2
        (segments lexicon (nextSegment lexicon x rest).2) := ih
      obtain ⟨c, a⟩ := x
      cases hw : isWhitespace c with
      | true =>
          rw [segments_cons]
          rw [nextSegment_space hw] at ih ⊢
          exact .space hw ih
      | false =>
          cases hp : isPunctuation c with
          | true => exact divided_of_isPunctuation hp ih
          | false => exact divided_of_isWordChar (isWordChar_iff.mpr ⟨hw, hp⟩) ih

/-- A text is divided in no other way. -/
theorem Divided.eq_segments {lexicon : Lexicon} {cells : List (Cell α)}
    {found : List (Segment α)} (h : Divided lexicon cells found) :
    found = segments lexicon cells := by
  induction h with
  | nil => rw [segments_nil]
  | space hc _ ih => rw [segments_cons, nextSegment_space hc, ← ih]
  | pair hc hop _ ih => rw [segments_cons, nextSegment_pair hc hop, ← ih]
  | single hc hop _ ih => rw [segments_cons, nextSegment_single hc hop, ← ih]
  | word hrun hnumber _ ih => rw [segments_cons, nextSegment_word hrun hnumber, ← ih]
  | decimal hdigits hstart hrun _ ih =>
      rw [segments_cons, nextSegment_decimal hdigits hstart hrun, ← ih]

/-- A text is divided into its segments, and in no other way. -/
theorem divided_iff {lexicon : Lexicon} {cells : List (Cell α)} {found : List (Segment α)} :
    Divided lexicon cells found ↔ found = segments lexicon cells :=
  ⟨Divided.eq_segments, fun h => h ▸ divided_segments lexicon cells⟩

/-! ### Marks and words -/

/-- A mark is a punctuation character, or an operator of two characters that starts with one. -/
theorem Divided.mark_eq {lexicon : Lexicon} {cells : List (Cell α)} {found : List (Segment α)}
    (h : Divided lexicon cells found) {chars : List Char} {a : α} (hmark : .mark chars a ∈ found) :
    ∃ c, isPunctuation c = true ∧
      (chars = [c] ∨ ∃ d, chars = [c, d] ∧ String.ofList [c, d] ∈ lexicon.operators) := by
  induction h with
  | nil => simp at hmark
  | space _ _ ih => exact ih (by simpa using hmark)
  | @pair c d _ _ _ _ hc hop _ ih =>
      rcases List.mem_cons.mp hmark with hmark | hmark
      · obtain ⟨rfl, -⟩ := Segment.mark.inj hmark
        exact ⟨c, hc, .inr ⟨d, rfl, hop⟩⟩
      · exact ih hmark
  | @single c _ _ _ hc _ _ ih =>
      rcases List.mem_cons.mp hmark with hmark | hmark
      · obtain ⟨rfl, -⟩ := Segment.mark.inj hmark
        exact ⟨c, hc, .inl rfl⟩
      · exact ih hmark
  | word _ _ _ ih => exact ih (by simpa using hmark)
  | decimal _ _ _ _ ih => exact ih (by simpa using hmark)

/-- Every segment has a character. -/
theorem Divided.chars_ne_nil {lexicon : Lexicon} {cells : List (Cell α)}
    {found : List (Segment α)} (h : Divided lexicon cells found) :
    ∀ s ∈ found, s.chars ≠ [] := by
  induction h with
  | nil => simp
  | space _ _ ih => exact List.forall_mem_cons.mpr ⟨List.cons_ne_nil _ _, ih⟩
  | pair _ _ _ ih => exact List.forall_mem_cons.mpr ⟨List.cons_ne_nil _ _, ih⟩
  | single _ _ _ ih => exact List.forall_mem_cons.mpr ⟨List.cons_ne_nil _ _, ih⟩
  | word _ _ _ ih => exact List.forall_mem_cons.mpr ⟨List.cons_ne_nil _ _, ih⟩
  | decimal _ _ _ _ ih => exact List.forall_mem_cons.mpr ⟨List.cons_ne_nil _ _, ih⟩

/-! ### What a division yields -/

/-- What the segments of a text yield in order, when `count` tokens come before them. A mark
is an operator or a problem, a word is a token of its kind or a problem, a line feed notes
how many tokens come before it, and other whitespace yields nothing. -/
inductive Yields (lexicon : Lexicon) (lines : LineMap) :
    Nat → List (Segment Int) → Lexing → Prop
  | nil {count : Nat} : Yields lexicon lines count [] {}
  | operator {count : Nat} {chars : List Char} {start : Int} {segments : List (Segment Int)}
      {rest : Lexing} :
      String.ofList chars ∈ lexicon.operators →
      Yields lexicon lines (count + 1) segments rest →
      Yields lexicon lines count (.mark chars start :: segments)
        { rest with
          tokens :=
            { kind := .operator, lexeme := String.ofList chars, position := lines.locate start } ::
              rest.tokens }
  | strange {count : Nat} {chars : List Char} {start : Int} {segments : List (Segment Int)}
      {rest : Lexing} :
      String.ofList chars ∉ lexicon.operators → Yields lexicon lines count segments rest →
      Yields lexicon lines count (.mark chars start :: segments)
        { rest with
          diagnostics :=
            { cause := .unrecognized (String.ofList chars) .operator, offset := some start
              position := lines.locate start } :: rest.diagnostics }
  | word {count : Nat} {chars : List Char} {start : Int} {kind : Token.Kind}
      {segments : List (Segment Int)} {rest : Lexing} :
      Token.Kind.ofWord? lexicon.keywords (String.ofList chars) = some kind →
      Yields lexicon lines (count + 1) segments rest →
      Yields lexicon lines count (.word chars start :: segments)
        { rest with
          tokens :=
            { kind, lexeme := String.ofList chars, position := lines.locate start } ::
              rest.tokens }
  | malformed {count : Nat} {chars : List Char} {start : Int} {segments : List (Segment Int)}
      {rest : Lexing} :
      Token.Kind.ofWord? lexicon.keywords (String.ofList chars) = none →
      Yields lexicon lines count segments rest →
      Yields lexicon lines count (.word chars start :: segments)
        { rest with
          diagnostics :=
            { cause := .unrecognized (String.ofList chars) .malformed, offset := some start
              position := lines.locate start } :: rest.diagnostics }
  | newline {count : Nat} {segments : List (Segment Int)} {rest : Lexing} :
      Yields lexicon lines count segments rest →
      Yields lexicon lines count (.space '\n' :: segments)
        { rest with breaks := count :: rest.breaks }
  | gap {count : Nat} {c : Char} {segments : List (Segment Int)} {rest : Lexing} :
      c ≠ '\n' → Yields lexicon lines count segments rest →
      Yields lexicon lines count (.space c :: segments) rest

/-- A token in front of others is counted at every line end after it. -/
private theorem map_lineBreaks_token (count : Nat) (t : Token) (os : List Outcome) :
    (lineBreaks (.token t :: os)).map (count + ·) = (lineBreaks os).map (count + 1 + ·) := by
  rw [lineBreaks_token, List.map_map]
  refine List.map_congr_left fun n _ => ?_
  rw [Function.comp_apply, Nat.add_assoc]

/-- What a division yields is collected from its outcomes, with the tokens before it added to
each count. -/
theorem yields_ofSegments (lexicon : Lexicon) (lines : LineMap) (count : Nat)
    (segments : List (Segment Int)) :
    Yields lexicon lines count segments
      { Lexing.ofSegments lexicon lines segments with
        breaks := (Lexing.ofSegments lexicon lines segments).breaks.map (count + ·) } := by
  induction segments generalizing count with
  | nil => exact .nil
  | cons s ss ih =>
      simp only [Lexing.ofSegments, Lexing.ofOutcomes] at ih ⊢
      rw [List.map_cons]
      cases s with
      | space c =>
          by_cases hc : c = '\n'
          · subst hc
            have houtcome : Segment.outcome lexicon lines (.space '\n') = .lineEnd := rfl
            rw [houtcome, lineBreaks_lineEnd]
            exact .newline (ih count)
          · have houtcome : Segment.outcome lexicon lines (.space c) = .gap := by
              rw [Segment.outcome, if_neg hc]
            rw [houtcome, lineBreaks_gap]
            exact .gap hc (ih count)
      | mark chars start =>
          by_cases hop : lexicon.isOperator chars = true
          · rw [Segment.outcome, if_pos hop, map_lineBreaks_token]
            exact .operator (Lexicon.isOperator_eq_true_iff.mp hop) (ih (count + 1))
          · rw [Segment.outcome, if_neg hop, lineBreaks_problem]
            exact .strange (mt Lexicon.isOperator_eq_true_iff.mpr hop) (ih count)
      | word chars start =>
          cases hkind : Token.Kind.ofWord? lexicon.keywords (String.ofList chars) with
          | some kind =>
              rw [Segment.outcome, hkind, map_lineBreaks_token]
              exact .word hkind (ih (count + 1))
          | none =>
              rw [Segment.outcome, hkind, lineBreaks_problem]
              exact .malformed hkind (ih count)

/-- **Lexing is greedy division.** Every text is divided in exactly one way, whatever the
keywords and operators are. Lexing it never fails, and what it yields is read off the
segments in their order, each at the position of its first character. -/
theorem existsUnique_divided_lexing (lexicon : Lexicon) (lines : LineMap) (source : String) :
    (∃! found, Divided lexicon (numbered source.toList) found) ∧
      ∀ found, Divided lexicon (numbered source.toList) found →
        ∃ lexing, (Text.ofString source).lexing? lexicon lines = some lexing ∧
          Yields lexicon lines 0 found lexing := by
  refine ⟨⟨_, divided_segments _ _, fun _ h => h.eq_segments⟩, fun found h => ?_⟩
  refine ⟨.ofCells lexicon lines (numbered source.toList), ?_, ?_⟩
  · rw [Text.ofString_eq_ofCells, Text.lexing?_ofCells]
  · have hyields := yields_ofSegments lexicon lines 0 (segments lexicon (numbered source.toList))
    simp only [Nat.zero_add, List.map_id'] at hyields
    rw [h.eq_segments]
    exact hyields

end CLex
