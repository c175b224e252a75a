import CLex.Proofs.Comment.Marks
import CLex.Proofs.Lexing.Parts

/-!
# Lexemes That Stand Alone

Where whitespace stands around them, characters form a single lexeme if they are an operator,
another punctuation character, a word, or a decimal number, which may go on as a word. What
is seen there is told by the lexeme and the text before it: a token of its kind, or a problem.

## Main definitions

* `IsLexeme`: the characters of single lexemes.
* `seenAfter`: what is seen in a lexeme after a text.

## Main results

* `Lexing.ofCells_lexeme`: what a lexeme yields that stands alone.
* `IsLexeme.opensNowhere`: no comment opens in a lexeme.
-/

open scoped List

namespace CLex

/-! ### Lexemes -/

/-- Whether this is a single punctuation character. -/
def isPunctuationMark : List Char → Bool
  | [c] => isPunctuation c
  | _ => false

/-- Whether characters are a lexeme if whitespace stands around them: an operator, a single
punctuation character, a word, or a number with a point and a digit, after which there may be
any other word characters. -/
inductive IsLexeme : List Char → Prop
  | operator {chars : List Char} :
      String.ofList chars ∈ Lexicon.standardOperators → IsLexeme chars
  | punctuation {c : Char} : isPunctuation c = true → IsLexeme [c]
  | word {chars : List Char} :
      chars ≠ [] → (∀ c ∈ chars, isWordChar c = true) → IsLexeme chars
  | decimal {digits rest : List Char} {d : Char} :
      digits ≠ [] → (∀ c ∈ digits, c.isDigit = true) → d.isDigit = true →
      (∀ c ∈ rest, isWordChar c = true) → IsLexeme (digits ++ '.' :: d :: rest)

/-- What is seen in a lexeme that stands after a text: a token if it is an operator or a word
of some kind, or else what is wrong with it. -/
def seenAfter (before lexeme : List Char) : Token ⊕ Diagnostic :=
  let position := Position.after before
  let problem (reason : Reason) : Diagnostic :=
    { cause := .unrecognized (String.ofList lexeme) reason
      offset := some before.length, position }
  if String.ofList lexeme ∈ Lexicon.standardOperators then
    .inl { kind := .operator, lexeme := String.ofList lexeme, position }
  else if isPunctuationMark lexeme then .inr (problem .operator)
  else
    match Token.Kind.ofWord? Lexicon.standardKeywords (String.ofList lexeme) with
    | some kind => .inl { kind, lexeme := String.ofList lexeme, position }
    | none => .inr (problem .malformed)

/-! ### Marks and words -/

/-- An operator is one punctuation character, or two of them. -/
theorem eq_of_mem_standardOperators {chars : List Char}
    (h : String.ofList chars ∈ Lexicon.standardOperators) :
    (∃ c, chars = [c] ∧ isPunctuation c = true) ∨
      ∃ c d, chars = [c, d] ∧ isPunctuation c = true ∧ isPunctuation d = true := by
  have hall : ∀ op ∈ Lexicon.standardOperators, op.toList.all isPunctuation = true ∧
      (op.toList.length = 1 ∨ op.toList.length = 2) := by decide
  obtain ⟨hpunctuation, hlength⟩ := hall _ h
  rw [String.toList_ofList] at hpunctuation hlength
  rcases chars with - | ⟨c, - | ⟨d, - | ⟨e, chars⟩⟩⟩
  · simp at hlength
  · exact .inl ⟨c, rfl, by simpa using hpunctuation⟩
  · exact .inr ⟨c, d, rfl, by simpa using hpunctuation⟩
  · simp at hlength

/-- What starts with a word character is no operator. -/
theorem not_mem_standardOperators {c : Char} (hc : isWordChar c = true) (chars : List Char) :
    String.ofList (c :: chars) ∉ Lexicon.standardOperators := by
  have hpunctuation := (isWordChar_iff.mp hc).2
  intro hmem
  rcases eq_of_mem_standardOperators hmem with ⟨d, heq, hd⟩ | ⟨d, e, heq, hd, -⟩
  · obtain ⟨rfl, -⟩ := List.cons.inj heq
    exact Bool.false_ne_true (hpunctuation.symm.trans hd)
  · obtain ⟨rfl, -⟩ := List.cons.inj heq
    exact Bool.false_ne_true (hpunctuation.symm.trans hd)

/-- What starts with a word character is no punctuation character. -/
theorem not_isPunctuationMark {c : Char} (hc : isWordChar c = true) (chars : List Char) :
    isPunctuationMark (c :: chars) = false := by
  cases chars with
  | nil => exact (isWordChar_iff.mp hc).2
  | cons d chars => rfl

/-- What is seen in a word depends on its kind. -/
theorem seenAfter_of_isWordChar {c : Char} (hc : isWordChar c = true) (before chars : List Char) :
    seenAfter before (c :: chars) =
      match Token.Kind.ofWord? Lexicon.standardKeywords (String.ofList (c :: chars)) with
      | some kind =>
        .inl { kind, lexeme := String.ofList (c :: chars), position := Position.after before }
      | none =>
        .inr { cause := .unrecognized (String.ofList (c :: chars)) .malformed
               offset := some before.length, position := Position.after before } := by
  rw [seenAfter, if_neg (not_mem_standardOperators hc chars),
    if_neg (Bool.eq_false_iff.mp (not_isPunctuationMark hc chars))]

/-! ### Lexing -/

namespace Lexing

/-- What a token or a problem yields. -/
def ofSeen : Token ⊕ Diagnostic → Lexing
  | .inl t => { tokens := [t] }
  | .inr d => { diagnostics := [d] }

variable {lines : LineMap} {before : List Char} {cells : List (Cell Int)}
  (hposition : lines.locate before.length = Position.after before)

include hposition

/-- A text that is one mark yields what is seen in it. -/
theorem ofCells_of_divided_mark {mark : List Char}
    (hmark : String.ofList mark ∈ Lexicon.standardOperators ∨ isPunctuationMark mark = true)
    (h : Divided .standard cells [.mark mark (before.length : Int)]) :
    ofCells .standard lines cells = ofSeen (seenAfter before mark) := by
  have hstart : lines.locate (before.length : Int) = Position.after before := hposition
  rw [ofCells, ← h.eq_segments, seenAfter, ← hstart]
  by_cases hop : String.ofList mark ∈ Lexicon.standardOperators
  · have hop' : Lexicon.standard.isOperator mark = true := Lexicon.isOperator_eq_true_iff.mpr hop
    rw [if_pos hop, ofSegments, List.map_singleton, Segment.outcome, if_pos hop']
    rfl
  · have hop' : ¬ Lexicon.standard.isOperator mark = true :=
      mt Lexicon.isOperator_eq_true_iff.mp hop
    rw [if_neg hop, if_pos (hmark.resolve_left hop), ofSegments, List.map_singleton,
      Segment.outcome, if_neg hop']
    rfl

/-- A text that is one word yields what is seen in it. -/
theorem ofCells_of_divided_word {c : Char} {chars : List Char} (hc : isWordChar c = true)
    (h : Divided .standard cells [.word (c :: chars) (before.length : Int)]) :
    ofCells .standard lines cells = ofSeen (seenAfter before (c :: chars)) := by
  have hstart : lines.locate (before.length : Int) = Position.after before := hposition
  have hkeywords : Lexicon.standard.keywords = Lexicon.standardKeywords := rfl
  rw [ofCells, ← h.eq_segments, seenAfter_of_isWordChar hc, ← hstart, ofSegments,
    List.map_singleton, Segment.outcome, hkeywords]
  cases Token.Kind.ofWord? Lexicon.standardKeywords (String.ofList (c :: chars)) with
  | some kind => rfl
  | none => rfl

/-- A lexeme that stands alone yields what is seen in it. -/
theorem ofCells_lexeme {lexeme : List Char} (h : IsLexeme lexeme) :
    ofCells .standard lines (numberedFrom before.length lexeme) =
      ofSeen (seenAfter before lexeme) := by
  cases h with
  | operator hop =>
      rcases eq_of_mem_standardOperators hop with ⟨c, rfl, hc⟩ | ⟨c, d, rfl, hc, -⟩
      · exact ofCells_of_divided_mark hposition (.inl hop) (.single hc (by simp) .nil)
      · exact ofCells_of_divided_mark hposition (.inl hop) (.pair hc hop .nil)
  | punctuation hc =>
      exact ofCells_of_divided_mark hposition (.inr hc) (.single hc (by simp) .nil)
  | word hne hword =>
      obtain ⟨c, run, rfl⟩ := List.exists_cons_of_ne_nil hne
      refine ofCells_of_divided_word hposition (hword c (List.mem_cons_self ..)) ?_
      have hdivided : Divided .standard
          ((c, (before.length : Int)) :: (numberedFrom (before.length + 1) run ++ [])) _ :=
        .word ⟨by simpa using hword, by simp⟩ (by simp [StartsFraction]) .nil
      simpa [numberedFrom_cons] using hdivided
  | @decimal digits rest d hne hdigits hd hrest =>
      obtain ⟨c, run, rfl⟩ := List.exists_cons_of_ne_nil hne
      have hc := isWordChar_of_isDigit (hdigits c (List.mem_cons_self ..))
      refine ofCells_of_divided_word hposition hc ?_
      have hfraction : ∀ e ∈ d :: rest, isWordChar e = true :=
        List.forall_mem_cons.mpr ⟨isWordChar_of_isDigit hd, hrest⟩
      have hdivided : Divided .standard ((c, (before.length : Int)) ::
          (numberedFrom (before.length + 1) run ++
            ('.', ((before.length + 1 + run.length : Nat) : Int)) ::
              (numberedFrom (before.length + 1 + run.length + 1) (d :: rest) ++ []))) _ :=
        .decimal (by simpa using hdigits) ⟨d, rest, by simp, hd⟩
          ⟨by simpa using hfraction, by simp⟩ .nil
      simpa [numberedFrom_cons, numberedFrom_append] using hdivided

end Lexing

/-! ### No comments -/

/-- A slash is no word character. -/
theorem not_mem_slash_of_isWordChar {chars : List Char} (h : ∀ c ∈ chars, isWordChar c = true) :
    '/' ∉ chars :=
  fun hmem => absurd (h '/' hmem) (by decide)

/-- No comment opens in a lexeme. -/
theorem IsLexeme.opensNowhere {lexeme : List Char} (h : IsLexeme lexeme) :
    Comment.OpensNowhere lexeme := by
  cases h with
  | operator hop =>
      -- the pairs that open comments are no operators
      have hmark : ∀ op ∈ Lexicon.standardOperators, op ≠ "//" ∧ op ≠ "/*" := by decide
      obtain ⟨hline, hblock⟩ := hmark _ hop
      rcases eq_of_mem_standardOperators hop with ⟨c, rfl, -⟩ | ⟨c, d, rfl, -⟩
      · exact Comment.opensNowhere_singleton c
      · refine Comment.opensNowhere_cons_iff.mpr ⟨?_, ?_⟩
        · rw [Comment.opens_cons_iff]
          rintro ⟨rfl, hmark | hmark⟩
          · obtain rfl : d = '/' := by simpa using hmark
            exact hline rfl
          · obtain rfl : d = '*' := by simpa using hmark
            exact hblock rfl
        · exact Comment.opensNowhere_singleton d
  | punctuation _ => exact Comment.opensNowhere_singleton _
  | word _ hword => exact Comment.opensNowhere_of_notMem (not_mem_slash_of_isWordChar hword)
  | @decimal digits rest d _ hdigits hd hrest =>
      have hdigits : '/' ∉ digits :=
        not_mem_slash_of_isWordChar fun c hc => isWordChar_of_isDigit (hdigits c hc)
      have hrest : '/' ∉ d :: rest := not_mem_slash_of_isWordChar
        (List.forall_mem_cons.mpr ⟨isWordChar_of_isDigit hd, hrest⟩)
      refine Comment.opensNowhere_of_notMem ?_
      rw [List.mem_append, List.mem_cons]
      rintro (hmem | hmem | hmem)
      · exact hdigits hmem
      · exact absurd hmem (by decide)
      · exact hrest hmem

end CLex
