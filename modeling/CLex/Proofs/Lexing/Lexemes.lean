import CLex.Proofs.Text.Items
import CLex.Proofs.Token.Language

/-!
# The Lexemes of Tokens

Every kind of token has its language: the keywords and the operators of the lexicon, the numbers,
and the names. The kind of a word says that the word is in that language. An operator is found
where a punctuation character stands, and consists of this character or of two. So a token has a
lexeme in the language of its kind, whatever the text and the lexicon are, and nothing that is
found is empty. The lexemes of C89 are written in visible ASCII characters.

## Main definitions

* `Token.Kind.Admits`: the language of a kind.
* `IsVisible`: whether a text is written in visible ASCII characters.

## Main results

* `Lexing.admits_of_mem_tokens`: the lexeme of a token is in the language of its kind.
* `Token.Kind.Admits.isVisible`: the lexemes of C89.
* `Token.Kind.recognizes_languages`: the kinds of words, and the tokens of texts.
-/

namespace CLex

/-! ### Languages -/

/-- Whether a lexeme is in the language of a kind. Keywords are neither numbers nor names. -/
def Token.Kind.Admits (lexicon : Lexicon) : Token.Kind → String → Prop
  | keyword, lexeme => lexeme ∈ lexicon.keywords
  | operator, lexeme =>
    lexeme ∈ lexicon.operators ∧ (lexeme.length = 1 ∨ lexeme.length = 2) ∧
      ∃ c ∈ lexeme.toList.head?, isPunctuation c = true
  | numericConstant, lexeme => lexeme ∉ lexicon.keywords ∧ IsNumber lexeme.toList
  | identifier, lexeme => lexeme ∉ lexicon.keywords ∧ IsName lexeme.toList

/-- A word is in the language of its kind. -/
theorem Token.Kind.admits_of_ofWord? {lexicon : Lexicon} {word : String} {kind : Token.Kind}
    (h : ofWord? lexicon.keywords word = some kind) : kind.Admits lexicon word := by
  obtain ⟨hkeyword, hnumber, hname, -, hoperator⟩ := ofWord?_eq_iff lexicon.keywords word
  cases kind with
  | keyword => exact hkeyword.mp h
  | operator => exact absurd h hoperator
  | numericConstant => exact hnumber.mp h
  | identifier => exact ⟨(hname.mp h).1, (hname.mp h).2.2⟩

/-! ### Visible characters -/

/-- Whether a text is written in ASCII characters that are printed and are not blank. -/
def IsVisible (s : String) : Prop :=
  ∀ c ∈ s.toList, 0x21 ≤ c.toNat ∧ c.toNat ≤ 0x7e

instance (s : String) : Decidable (IsVisible s) :=
  List.decidableBAll (fun c : Char => 0x21 ≤ c.toNat ∧ c.toNat ≤ 0x7e) s.toList

/-- Numbers and names are visible. -/
theorem isVisible_of_spelled {s : String} (h : IsNumber s.toList ∨ IsName s.toList) :
    IsVisible s := by
  intro c hc
  have hrange : ∀ {low high : Nat}, 0x21 ≤ low → high ≤ 0x7e → low ≤ c.toNat ∧ c.toNat ≤ high →
      0x21 ≤ c.toNat ∧ c.toNat ≤ 0x7e :=
    fun hlow hhigh hc => ⟨Nat.le_trans hlow hc.1, Nat.le_trans hc.2 hhigh⟩
  have hspelled := spelled_of_mem h hc
  simp only [IsLetter, IsNumeral, Char.le_def, UInt32.le_iff_toNat_le] at hspelled
  rcases hspelled with (hupper | hlower) | hnumeral | rfl | rfl
  · exact hrange (by decide) (by decide) hupper
  · exact hrange (by decide) (by decide) hlower
  · exact hrange (by decide) (by decide) hnumeral
  · decide
  · decide

/-- The lexemes of C89 are visible. -/
theorem Token.Kind.Admits.isVisible {kind : Token.Kind} {lexeme : String}
    (h : kind.Admits .standard lexeme) : IsVisible lexeme := by
  have hwords : ∀ word ∈ Lexicon.standardKeywords ++ Lexicon.standardOperators,
      IsVisible word := by decide
  cases kind with
  | keyword => exact hwords lexeme (List.mem_append_left _ h)
  | operator => exact hwords lexeme (List.mem_append_right _ h.1)
  | numericConstant => exact isVisible_of_spelled (.inl h.2)
  | identifier => exact isVisible_of_spelled (.inr h.2)

/-! ### What is found in a segment -/

namespace Segment

variable {lexicon : Lexicon} {lines : LineMap} {s : Segment Int}

/-- A token is a mark that is an operator, or a word of its kind. -/
theorem eq_of_outcome_eq_token {t : Token} (h : s.outcome lexicon lines = .token t) :
    t.lexeme = String.ofList s.chars ∧
      ((t.kind = .operator ∧ t.lexeme ∈ lexicon.operators ∧ ∃ start, s = .mark s.chars start) ∨
        Token.Kind.ofWord? lexicon.keywords t.lexeme = some t.kind) := by
  cases s with
  | space c =>
      rw [outcome] at h
      split at h <;> simp at h
  | mark chars start =>
      rw [outcome] at h
      split at h
      · next hop =>
          obtain rfl := Outcome.token.inj h
          exact ⟨rfl, .inl ⟨rfl, Lexicon.isOperator_eq_true_iff.mp hop, start, rfl⟩⟩
      · simp at h
  | word chars start =>
      rw [outcome] at h
      cases hkind : Token.Kind.ofWord? lexicon.keywords (String.ofList chars) with
      | some kind =>
          rw [hkind] at h
          obtain rfl := Outcome.token.inj h
          exact ⟨rfl, .inr hkind⟩
      | none =>
          rw [hkind] at h
          simp at h

/-- What forms no token are the characters of the segment. -/
theorem lexeme_of_outcome_eq_problem {d : Diagnostic} (h : s.outcome lexicon lines = .problem d) :
    d.cause.lexeme = String.ofList s.chars := by
  cases hspace : s.isSpace with
  | true => simpa [h, Outcome.seen?] using seen?_outcome_of_isSpace lexicon lines hspace
  | false =>
      obtain ⟨-, seen, -, hseen, hlexeme, -⟩ := exists_seen_of_not_isSpace lexicon lines hspace
      rw [h, Outcome.seen?, Option.some.injEq] at hseen
      rw [← hlexeme, ← hseen, Sum.elim_inr]

end Segment

/-! ### What is found in a text -/

namespace Lexing

variable {lexicon : Lexicon} {lines : LineMap} {cells : List (Cell Int)}

/-- The characters of a segment make up a text. -/
private theorem ofList_chars_ne_empty {s : Segment Int} (hs : s ∈ segments lexicon cells) :
    String.ofList s.chars ≠ "" := by
  intro hempty
  refine (divided_segments lexicon cells).chars_ne_nil s hs ?_
  simpa using congrArg String.toList hempty

/-- The lexeme of a token is in the language of its kind, and not empty. -/
theorem admits_of_mem_tokens {t : Token} (ht : t ∈ (ofCells lexicon lines cells).tokens) :
    t.kind.Admits lexicon t.lexeme ∧ t.lexeme ≠ "" := by
  obtain ⟨o, ho, htoken⟩ := List.mem_filterMap.mp ht
  obtain ⟨s, hs, rfl⟩ := List.mem_map.mp ho
  have houtcome : s.outcome lexicon lines = .token t := by
    cases hcase : s.outcome lexicon lines <;> simp_all [Outcome.token?]
  obtain ⟨hlexeme, hkind⟩ := Segment.eq_of_outcome_eq_token houtcome
  refine ⟨?_, hlexeme ▸ ofList_chars_ne_empty hs⟩
  rcases hkind with ⟨hoperator, hmem, start, hmark⟩ | hkind
  · rw [hoperator]
    -- a pair that is an operator may end with any character, but it starts like a mark
    obtain ⟨c, hc, hchars⟩ := (divided_segments lexicon cells).mark_eq (hmark ▸ hs)
    refine ⟨hmem, ?_⟩
    rw [hlexeme, String.length_ofList, String.toList_ofList]
    rcases hchars with hchars | ⟨d, hchars, -⟩
    · rw [hchars]
      exact ⟨.inl rfl, c, rfl, hc⟩
    · rw [hchars]
      exact ⟨.inr rfl, c, rfl, hc⟩
  · exact Token.Kind.admits_of_ofWord? hkind

/-- What forms no token is not empty. -/
theorem lexeme_ne_empty_of_mem_diagnostics {d : Diagnostic}
    (hd : d ∈ (ofCells lexicon lines cells).diagnostics) : d.cause.lexeme ≠ "" := by
  obtain ⟨o, ho, hproblem⟩ := List.mem_filterMap.mp hd
  obtain ⟨s, hs, rfl⟩ := List.mem_map.mp ho
  have houtcome : s.outcome lexicon lines = .problem d := by
    cases hcase : s.outcome lexicon lines <;> simp_all [Outcome.problem?]
  rw [Segment.lexeme_of_outcome_eq_problem houtcome]
  exact ofList_chars_ne_empty hs

end Lexing

/-! ### Classification and lexing -/

namespace Token.Kind

/-- **Kinds recognize their languages.** A word of the set is a keyword; any other word is a number
or an identifier if it is spelled like a number or a name, and else of no kind. So it is of no kind
if it has a strange character, a point at its end or a second point. With any lexicon every source
can be lexed, and the lexemes of the tokens of any text are in the languages of their kinds; no
lexeme of a token or a problem is empty. The tokens of C89 are visible. -/
theorem recognizes_languages :
    (∀ (keywords : List String) (word : String),
      (ofWord? keywords word = some .keyword ↔ word ∈ keywords) ∧
      (ofWord? keywords word = some .numericConstant ↔
        word ∉ keywords ∧ IsNumber word.toList) ∧
      (ofWord? keywords word = some .identifier ↔
        word ∉ keywords ∧ ¬ IsNumber word.toList ∧ IsName word.toList) ∧
      (ofWord? keywords word = none ↔
        word ∉ keywords ∧ ¬ IsNumber word.toList ∧ ¬ IsName word.toList) ∧
      (word ∉ keywords →
        (∃ c ∈ word.toList, ¬ (IsLetter c ∨ IsNumeral c ∨ c = '_' ∨ c = '.')) ∨
            word.toList.getLast? = some '.' ∨ 2 ≤ word.toList.count '.' →
          ofWord? keywords word = none)) ∧
    (∀ (lexicon : Lexicon) (lines : LineMap),
      (∀ source : String, ∃ lexing, (Text.ofString source).lexing? lexicon lines = some lexing) ∧
      ∀ (text : Text) (lexing : Lexing), text.lexing? lexicon lines = some lexing →
        (∀ t ∈ lexing.tokens, t.kind.Admits lexicon t.lexeme ∧ t.lexeme ≠ "") ∧
        ∀ d ∈ lexing.diagnostics, d.cause.lexeme ≠ "") ∧
    ∀ (lines : LineMap) (text : Text) (lexing : Lexing),
      text.lexing? .standard lines = some lexing →
        ∀ t ∈ lexing.tokens, t.lexeme ≠ "" ∧ IsVisible t.lexeme := by
  refine ⟨fun keywords word => ?_, fun lexicon lines => ⟨fun source => ?_, ?_⟩, ?_⟩
  · obtain ⟨hkeyword, hnumber, hname, hnone, -⟩ := ofWord?_eq_iff keywords word
    exact ⟨hkeyword, hnumber, hname, hnone,
      fun hmem hstrange => hnone.mpr ⟨hmem, not_spelled hstrange⟩⟩
  · rw [Text.ofString_eq_ofCells, Text.lexing?_ofCells]
    exact ⟨_, rfl⟩
  · intro text lexing h
    obtain ⟨-, rfl⟩ := Text.lexing?_eq_some_iff.mp h
    exact ⟨fun t ht => Lexing.admits_of_mem_tokens ht,
      fun d hd => Lexing.lexeme_ne_empty_of_mem_diagnostics hd⟩
  · intro lines text lexing h t ht
    obtain ⟨-, rfl⟩ := Text.lexing?_eq_some_iff.mp h
    obtain ⟨hadmits, hne⟩ := Lexing.admits_of_mem_tokens ht
    exact ⟨hne, hadmits.isVisible⟩

/-- A lexicon with a number and a foreign word for keywords and a letter in an operator, a word with
a foreign digit, and a number with two points. -/
theorem recognizes_languages_of_strange_lexicon :
    ("1.\u0662" ∉ ["1", "\u00e9"] ∧ '\u0662' ∈ "1.\u0662".toList ∧
        ¬ (IsLetter '\u0662' ∨ IsNumeral '\u0662' ∨ '\u0662' = '_' ∨ '\u0662' = '.') ∧
        ofWord? ["1", "\u00e9"] "1.\u0662" = none) ∧
      (∃ (text : Text) (lexing : Lexing),
        text = ⟨"1 \u00e9 2.50?$x.7.5".toList, List.replicate 14 3⟩ ∧
        text.lexing? ⟨["1", "\u00e9"], ["?$", "$x"]⟩ (.ofString "") = some lexing ∧
        lexing.tokens.map (fun t => (t.kind, t.lexeme)) =
          [(.keyword, "1"), (.keyword, "\u00e9"), (.numericConstant, "2.50"), (.operator, "?$"),
            (.identifier, "x"), (.numericConstant, "7.5")] ∧
        (∀ t ∈ lexing.tokens,
          t.kind.Admits ⟨["1", "\u00e9"], ["?$", "$x"]⟩ t.lexeme ∧ t.lexeme ≠ "") ∧
        ∀ d ∈ lexing.diagnostics, d.cause.lexeme ≠ "") ∧
      ∃ (text : Text) (lexing : Lexing),
        text = ⟨"if\x0b_\u00e9+=1.5;".toList, List.replicate 12 0⟩ ∧
        text.lexing? .standard (.ofString "") = some lexing ∧
        lexing.tokens.map (·.lexeme) = ["if", "+=", "1.5"] ∧
        ∀ t ∈ lexing.tokens, t.lexeme ≠ "" ∧ IsVisible t.lexeme := by
  obtain ⟨hwords, htexts, hstandard⟩ := recognizes_languages
  refine ⟨⟨by decide, by decide, by decide, ?_⟩, ?_, ?_⟩
  · exact (hwords ["1", "\u00e9"] "1.\u0662").2.2.2.2 (by decide)
      (.inl ⟨'\u0662', by decide, by decide⟩)
  · have hlexing : Text.lexing? ⟨["1", "\u00e9"], ["?$", "$x"]⟩ (.ofString "")
        ⟨"1 \u00e9 2.50?$x.7.5".toList, List.replicate 14 3⟩ = some
          { tokens := [⟨.keyword, "1", ⟨1, 1⟩⟩, ⟨.keyword, "\u00e9", ⟨1, 1⟩⟩,
              ⟨.numericConstant, "2.50", ⟨1, 1⟩⟩, ⟨.operator, "?$", ⟨1, 1⟩⟩,
              ⟨.identifier, "x", ⟨1, 1⟩⟩, ⟨.numericConstant, "7.5", ⟨1, 1⟩⟩]
            diagnostics :=
              [{ cause := .unrecognized "." .operator, offset := some 3, position := ⟨1, 1⟩ }]
            breaks := [] } := by
      decide +kernel
    obtain ⟨htokens, hproblems⟩ := (htexts _ _).2 _ _ hlexing
    exact ⟨_, _, rfl, hlexing, rfl, htokens, hproblems⟩
  · have hlexing : Text.lexing? .standard (.ofString "")
        ⟨"if\x0b_\u00e9+=1.5;".toList, List.replicate 12 0⟩ = some
          { tokens := [⟨.keyword, "if", ⟨1, 1⟩⟩, ⟨.operator, "+=", ⟨1, 1⟩⟩,
              ⟨.numericConstant, "1.5", ⟨1, 1⟩⟩]
            diagnostics :=
              [{ cause := .unrecognized "_\u00e9" .malformed
                 offset := some 0
                 position := ⟨1, 1⟩ },
                { cause := .unrecognized ";" .operator, offset := some 0, position := ⟨1, 1⟩ }]
            breaks := [] } := by
      decide +kernel
    exact ⟨_, _, rfl, hlexing, rfl, hstandard _ _ _ hlexing⟩

end Token.Kind

end CLex
