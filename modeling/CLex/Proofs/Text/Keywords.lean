import Mathlib.Data.List.Forall2
import CLex.Proofs.Text.Items
import CLex.Proofs.Token.Language

/-!
# Two Sets of Keywords

A text is divided into marks and words without asking for the keywords, which only tell what kind
a word is. So with two sets of keywords the same items are found, at the same indices and
positions. If all keywords are identifiers, an item that is a token with one set is a token with
the other as well, and the two differ at most in that one is a keyword and the other an identifier.
Other keywords may turn a problem into a token, which is then counted at the line ends after it.

## Main definitions

* `Token.Relabelled`, `Outcome.Relabelled`: tokens and outcomes with two sets of keywords.

## Main results

* `Lexing.ofOutcomes_relabelled`: what is yielded with two sets of keywords that are identifiers.
* `Text.map_items_keywords`: the items with any two sets of keywords.
* `Text.exists_lexing?_keywords`: lexing a text with two sets of keywords.
-/

namespace CLex

/-! ### Spelling -/

/-- An identifier does not start with a punctuation character. -/
theorem not_isPunctuation_of_isIdentifierStart {c : Char} (h : isIdentifierStart c = true) :
    isPunctuation c = false := by
  have hrest : isIdentifierRest c = true :=
    isIdentifierRest_iff.mpr ((isIdentifierStart_iff.mp h).imp_right .inr)
  exact (isWordChar_iff.mp (isWordChar_of_isIdentifierRest hrest)).2

/-- An identifier is no number. -/
theorem not_isNumericConstant_of_isIdentifier {word : List Char} (h : isIdentifier word = true) :
    isNumericConstant word = false := by
  have hname : IsName word := isIdentifier_iff.mp h
  exact Bool.eq_false_iff.mpr (mt isNumericConstant_iff.mp hname.not_isNumber)

/-- A word that is spelled like an identifier is a keyword or an identifier. -/
theorem Token.Kind.ofWord?_of_isIdentifier {word : String} (h : isIdentifier word.toList = true)
    (keywords : List String) :
    ofWord? keywords word = some (if word ∈ keywords then .keyword else .identifier) := by
  rw [ofWord?]
  by_cases hmem : word ∈ keywords
  · rw [if_pos hmem, if_pos hmem]
  · rw [if_neg hmem, if_neg hmem, not_isNumericConstant_of_isIdentifier h,
      if_neg Bool.false_ne_true, if_pos h]

/-- Only for a keyword the set of keywords matters. -/
theorem Token.Kind.ofWord?_of_notMem {word : String} {keywords keywords' : List String}
    (h : word ∉ keywords) (h' : word ∉ keywords') :
    ofWord? keywords word = ofWord? keywords' word := by
  rw [ofWord?, ofWord?, if_neg h, if_neg h']

/-! ### Tokens and outcomes -/

variable {K₁ K₂ : List String}

/-- Whether two tokens are the same but for what two sets of keywords say: where the lexeme is in
just one of the sets, it is a keyword with that set and an identifier with the other. -/
structure Token.Relabelled (K₁ K₂ : List String) (t u : Token) : Prop where
  /-- The lexeme is the same. -/
  lexeme_eq : u.lexeme = t.lexeme
  /-- The position is the same. -/
  position_eq : u.position = t.position
  /-- The kind is the same if both sets or neither have the lexeme. -/
  kind_eq : (t.lexeme ∈ K₁ ↔ t.lexeme ∈ K₂) → u.kind = t.kind
  /-- The kinds if only the first set has the lexeme. -/
  of_mem_left : t.lexeme ∈ K₁ → t.lexeme ∉ K₂ → t.kind = .keyword ∧ u.kind = .identifier
  /-- The kinds if only the second set has the lexeme. -/
  of_mem_right : t.lexeme ∉ K₁ → t.lexeme ∈ K₂ → t.kind = .identifier ∧ u.kind = .keyword

/-- A token is the same if neither set has its lexeme. -/
theorem Token.relabelled_self {t : Token} (h₁ : t.lexeme ∉ K₁) (h₂ : t.lexeme ∉ K₂) :
    t.Relabelled K₁ K₂ t :=
  ⟨rfl, rfl, fun _ => rfl, fun h => absurd h h₁, fun _ h => absurd h h₂⟩

/-- Outcomes with two sets of keywords: tokens that are the same but for these, or else the same
outcome. -/
inductive Outcome.Relabelled (K₁ K₂ : List String) : Outcome → Outcome → Prop
  | token {t u : Token} : t.Relabelled K₁ K₂ u → Relabelled K₁ K₂ (.token t) (.token u)
  | problem (d : Diagnostic) : Relabelled K₁ K₂ (.problem d) (.problem d)
  | lineEnd : Relabelled K₁ K₂ .lineEnd .lineEnd
  | gap : Relabelled K₁ K₂ .gap .gap

/-- A word with two sets of keywords that are identifiers. -/
private theorem outcome_word_relabelled
    (hwords : ∀ word, word ∈ K₁ ∨ word ∈ K₂ → isIdentifier word.toList = true)
    (operators : List String) (lines : LineMap) (chars : List Char) (n : Int) :
    ((Segment.word chars n).outcome ⟨K₁, operators⟩ lines).Relabelled K₁ K₂
      ((Segment.word chars n).outcome ⟨K₂, operators⟩ lines) := by
  simp only [Segment.outcome]
  by_cases hmem : String.ofList chars ∈ K₁ ∨ String.ofList chars ∈ K₂
  · rw [Token.Kind.ofWord?_of_isIdentifier (hwords _ hmem),
      Token.Kind.ofWord?_of_isIdentifier (hwords _ hmem)]
    refine .token ⟨rfl, rfl, fun hiff => ?_, fun h₁ h₂ => ?_, fun h₁ h₂ => ?_⟩
    · simp only [hiff]
    · exact ⟨if_pos h₁, if_neg h₂⟩
    · exact ⟨if_neg h₁, if_pos h₂⟩
  · rw [not_or] at hmem
    rw [Token.Kind.ofWord?_of_notMem hmem.1 hmem.2]
    cases Token.Kind.ofWord? K₂ (String.ofList chars) with
    | some kind => exact .token (Token.relabelled_self hmem.1 hmem.2)
    | none => exact .problem _

/-- A mark is no keyword if all keywords are identifiers. -/
private theorem outcome_mark_relabelled
    (hwords : ∀ word, word ∈ K₁ ∨ word ∈ K₂ → isIdentifier word.toList = true)
    (operators : List String) (lines : LineMap) {c : Char} (hc : isPunctuation c = true)
    (rest : List Char) (n : Int) :
    ((Segment.mark (c :: rest) n).outcome ⟨K₁, operators⟩ lines).Relabelled K₁ K₂
      ((Segment.mark (c :: rest) n).outcome ⟨K₂, operators⟩ lines) := by
  have hmem : ¬ (String.ofList (c :: rest) ∈ K₁ ∨ String.ofList (c :: rest) ∈ K₂) := by
    intro hmem
    have hword := hwords _ hmem
    rw [String.toList_ofList, isIdentifier, Bool.and_eq_true] at hword
    have hstart := not_isPunctuation_of_isIdentifierStart hword.1
    exact Bool.false_ne_true (hstart.symm.trans hc)
  rw [not_or] at hmem
  have hop : Lexicon.isOperator ⟨K₁, operators⟩ (c :: rest) =
      Lexicon.isOperator ⟨K₂, operators⟩ (c :: rest) := rfl
  simp only [Segment.outcome, hop]
  split
  · exact .token (Token.relabelled_self hmem.1 hmem.2)
  · exact .problem _

/-- The outcomes of a divided text with two sets of keywords that are identifiers. -/
theorem Divided.forall₂_outcome_relabelled
    (hwords : ∀ word, word ∈ K₁ ∨ word ∈ K₂ → isIdentifier word.toList = true)
    {operators : List String} (lines : LineMap) {cells : List (Cell Int)}
    {found : List (Segment Int)} (h : Divided ⟨K₁, operators⟩ cells found) :
    List.Forall₂ (Outcome.Relabelled K₁ K₂) (found.map (·.outcome ⟨K₁, operators⟩ lines))
      (found.map (·.outcome ⟨K₂, operators⟩ lines)) := by
  rw [List.forall₂_map_left_iff, List.forall₂_map_right_iff, List.forall₂_same]
  intro s hs
  cases s with
  | space c =>
      simp only [Segment.outcome]
      split
      · exact .lineEnd
      · exact .gap
  | mark chars n =>
      obtain ⟨c, hc, rfl | ⟨d, rfl, -⟩⟩ := h.mark_eq hs
      · exact outcome_mark_relabelled hwords operators lines hc [] n
      · exact outcome_mark_relabelled hwords operators lines hc [d] n
  | word chars n => exact outcome_word_relabelled hwords operators lines chars n

/-! ### What is yielded -/

/-- Outcomes that differ in their labels only have the same problems and breaks, and tokens that
differ in their labels only. -/
theorem Lexing.ofOutcomes_relabelled {os ps : List Outcome}
    (h : List.Forall₂ (Outcome.Relabelled K₁ K₂) os ps) :
    (ofOutcomes ps).diagnostics = (ofOutcomes os).diagnostics ∧
      (ofOutcomes ps).breaks = (ofOutcomes os).breaks ∧
      List.Forall₂ (Token.Relabelled K₁ K₂) (ofOutcomes os).tokens (ofOutcomes ps).tokens := by
  induction h with
  | nil => exact ⟨rfl, rfl, .nil⟩
  | @cons o p os ps hfirst _ ih =>
      obtain ⟨hproblems, hbreaks, htokens⟩ := ih
      simp only [ofOutcomes] at hproblems hbreaks htokens ⊢
      cases hfirst with
      | token ht =>
          refine ⟨hproblems, ?_, .cons ht htokens⟩
          rw [lineBreaks_token, lineBreaks_token, hbreaks]
      | problem d => exact ⟨congrArg (d :: ·) hproblems, hbreaks, htokens⟩
      | lineEnd =>
          refine ⟨hproblems, ?_, htokens⟩
          rw [lineBreaks_lineEnd, lineBreaks_lineEnd, hbreaks]
      | gap => exact ⟨hproblems, hbreaks, htokens⟩

namespace Text

variable (K₁ K₂) (operators : List String) (lines : LineMap) (text : Text)

/-- With any two sets of keywords the same items are found. -/
theorem map_items_keywords :
    (text.items ⟨K₂, operators⟩ lines).map (fun item => (item.start, item.lexeme, item.position)) =
      (text.items ⟨K₁, operators⟩ lines).map fun item =>
        (item.start, item.lexeme, item.position) := by
  -- the marks and words do not depend on the keywords
  have hpieces : text.pieces ⟨K₂, operators⟩ = text.pieces ⟨K₁, operators⟩ := rfl
  have hitems := map_items ⟨K₂, operators⟩ lines text
  rw [hpieces, ← map_items ⟨K₁, operators⟩ lines text] at hitems
  have hstarts := congrArg (List.map fun x : Int × String × Position => (x.1.toNat, x.2)) hitems
  rw [List.map_map, List.map_map] at hstarts
  exact hstarts

/-- **Keywords only relabel words.** Let lexing a text succeed with a set of keywords. Then it
succeeds with any other one. If all keywords of both sets are identifiers, the problems and the
breaks are the same and so are the tokens, except that one whose lexeme is in just one of the sets
is a keyword with that set and an identifier with the other. Whatever the keywords are, the tokens
and problems in the order of where they start in the text have the same lexemes and positions. -/
theorem exists_lexing?_keywords {a : Lexing} (h : text.lexing? ⟨K₁, operators⟩ lines = some a) :
    ∃ b, text.lexing? ⟨K₂, operators⟩ lines = some b ∧
      ((∀ word ∈ K₁ ++ K₂, isIdentifier word.toList = true) →
        b.diagnostics = a.diagnostics ∧ b.breaks = a.breaks ∧
          List.Forall₂ (Token.Relabelled K₁ K₂) a.tokens b.tokens) ∧
      ∃ found found', text.Itemized ⟨K₁, operators⟩ lines a found ∧
        text.Itemized ⟨K₂, operators⟩ lines b found' ∧
        found'.map (fun item => (item.start, item.lexeme, item.position)) =
          found.map fun item => (item.start, item.lexeme, item.position) := by
  obtain ⟨horigins, ha⟩ := lexing?_eq_some_iff.mp h
  have hb : text.lexing? ⟨K₂, operators⟩ lines =
      some (.ofCells ⟨K₂, operators⟩ lines (relabel text.place (numbered text.chars))) :=
    lexing?_eq_some_iff.mpr ⟨horigins, rfl⟩
  refine ⟨_, hb, fun hwords => ?_, _, _, itemized_items _ _ _ h, itemized_items _ _ _ hb,
    map_items_keywords K₁ K₂ operators lines text⟩
  rw [← ha]
  have hdivided := divided_segments ⟨K₁, operators⟩ (relabel text.place (numbered text.chars))
  exact Lexing.ofOutcomes_relabelled
    (hdivided.forall₂_outcome_relabelled (fun word hmem => hwords word (List.mem_append.mpr hmem))
      lines)

/-- A name that only the second set has, in a text whose last character has no origin. -/
theorem exists_lexing?_keywords_of_names :
    ∃ (text : Text) (a b : Lexing), text = ⟨"if x1\n?<xy".toList, [5, 4, 3, 0, 0, 7, 1, 2, 2]⟩ ∧
      text.lexing? ⟨["if", "a"], ["<"]⟩ (.ofString "") = some a ∧
      text.lexing? ⟨["if", "xy"], ["<"]⟩ (.ofString "") = some b ∧
      a.tokens.map (·.kind) = [.keyword, .identifier, .operator, .identifier] ∧
      b.tokens.map (·.kind) = [.keyword, .identifier, .operator, .keyword] ∧
      b.diagnostics = a.diagnostics ∧ b.breaks = a.breaks ∧
      List.Forall₂ (Token.Relabelled ["if", "a"] ["if", "xy"]) a.tokens b.tokens := by
  have ha : lexing? ⟨["if", "a"], ["<"]⟩ (.ofString "")
      ⟨"if x1\n?<xy".toList, [5, 4, 3, 0, 0, 7, 1, 2, 2]⟩ = some
        { tokens := [⟨.keyword, "if", ⟨1, 1⟩⟩, ⟨.identifier, "x1", ⟨1, 1⟩⟩,
            ⟨.operator, "<", ⟨1, 1⟩⟩, ⟨.identifier, "xy", ⟨1, 1⟩⟩]
          diagnostics :=
            [{ cause := .unrecognized "?" .operator, offset := some 1, position := ⟨1, 1⟩ }]
          breaks := [2] } := by
    decide +kernel
  have hb : lexing? ⟨["if", "xy"], ["<"]⟩ (.ofString "")
      ⟨"if x1\n?<xy".toList, [5, 4, 3, 0, 0, 7, 1, 2, 2]⟩ = some
        { tokens := [⟨.keyword, "if", ⟨1, 1⟩⟩, ⟨.identifier, "x1", ⟨1, 1⟩⟩,
            ⟨.operator, "<", ⟨1, 1⟩⟩, ⟨.keyword, "xy", ⟨1, 1⟩⟩]
          diagnostics :=
            [{ cause := .unrecognized "?" .operator, offset := some 1, position := ⟨1, 1⟩ }]
          breaks := [2] } := by
    decide +kernel
  obtain ⟨b, hb', hwords, -⟩ :=
    exists_lexing?_keywords ["if", "a"] ["if", "xy"] ["<"] (.ofString "") _ ha
  obtain rfl := Option.some.inj (hb'.symm.trans hb)
  obtain ⟨hproblems, hbreaks, htokens⟩ := hwords (by decide)
  exact ⟨_, _, _, rfl, ha, hb, rfl, rfl, hproblems, hbreaks, htokens⟩

end Text

end CLex
