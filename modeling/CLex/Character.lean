/-!
# Character Classes

Every character belongs to exactly one of three classes: **whitespace** separates lexemes,
**punctuation** stands alone or in operators, and everything else is a **word character**.
Whitespace is what C's `isspace` accepts in the "C" locale; punctuation is ASCII
punctuation without the underscore, which belongs to words. Letters and digits outside ASCII
are word characters, but neither digits nor identifier characters.

## Main definitions

* `isWhitespace`, `isPunctuation`, `isWordChar`: the three classes.
* `isBlank`: whitespace within a line.
* `isIdentifierStart`, `isIdentifierRest`: the characters of identifiers.
* `asciiWhere`: a class of ASCII characters as a list in code point order.
-/

namespace CLex

/-! ### The three classes -/

/-- Space, tab, line feed, vertical tab, form feed and carriage return. -/
def isWhitespace (c : Char) : Bool :=
  c == ' ' || c == '\t' || c == '\n' || c == '\x0b' || c == '\x0c' || c == '\r'

/-- Whitespace other than the line feed, which ends a line. -/
def isBlank (c : Char) : Bool :=
  isWhitespace c && c != '\n'

/-- The ASCII punctuation characters without the underscore: four ranges of code points, the
third of which has a hole at U+005F. -/
def isPunctuation (c : Char) : Bool :=
  let n := c.toNat
  (0x21 ≤ n && n ≤ 0x2f) || (0x3a ≤ n && n ≤ 0x40) ||
    (0x5b ≤ n && n ≤ 0x60 && n != 0x5f) || (0x7b ≤ n && n ≤ 0x7e)

/-- A character that is neither whitespace nor punctuation. -/
def isWordChar (c : Char) : Bool :=
  !isWhitespace c && !isPunctuation c

/-- An ASCII letter or the underscore. -/
def isIdentifierStart (c : Char) : Bool :=
  c.isAlpha || c == '_'

/-- An ASCII letter, an ASCII digit or the underscore. -/
def isIdentifierRest (c : Char) : Bool :=
  c.isAlphanum || c == '_'

/-! ### The classes as lists -/

/-- The ASCII characters with a property, in code point order. -/
def asciiWhere (p : Char → Bool) : List Char :=
  ((List.range 128).map Char.ofNat).filter p

/-! ### Relations between the classes -/

theorem isWhitespace_iff {c : Char} :
    isWhitespace c = true ↔
      c = ' ' ∨ c = '\t' ∨ c = '\n' ∨ c = '\x0b' ∨ c = '\x0c' ∨ c = '\r' := by
  simp [isWhitespace, or_assoc]

/-- Whitespace is a blank or the line feed. -/
theorem isWhitespace_eq (c : Char) : isWhitespace c = (isBlank c || c == '\n') := by
  cases h : c == '\n' with
  | true => rw [beq_iff_eq.1 h]; rfl
  | false => simp [isBlank, bne, h]

theorem isBlank_newline : isBlank '\n' = false := rfl

/-- Whitespace and punctuation are disjoint. -/
theorem isPunctuation_of_isWhitespace {c : Char} (h : isWhitespace c = true) :
    isPunctuation c = false := by
  rcases isWhitespace_iff.1 h with rfl | rfl | rfl | rfl | rfl | rfl <;> rfl

theorem isWhitespace_of_isPunctuation {c : Char} (h : isPunctuation c = true) :
    isWhitespace c = false := by
  cases hw : isWhitespace c with
  | false => rfl
  | true => rw [isPunctuation_of_isWhitespace hw] at h; exact absurd h (by simp)

theorem isWordChar_iff {c : Char} :
    isWordChar c = true ↔ isWhitespace c = false ∧ isPunctuation c = false := by
  simp [isWordChar]

/-- A character of an identifier is a word character. -/
theorem isWordChar_of_isIdentifierRest {c : Char} (h : isIdentifierRest c = true) :
    isWordChar c = true := by
  have hn : ∀ d : Char, c = d → c.toNat = d.toNat := fun d hd => by rw [hd]
  have hc : c.toNat = 0x5f ∨ (0x30 ≤ c.toNat ∧ c.toNat ≤ 0x39) ∨
      (0x41 ≤ c.toNat ∧ c.toNat ≤ 0x5a) ∨ (0x61 ≤ c.toNat ∧ c.toNat ≤ 0x7a) := by
    change (((decide (c.val ≥ 'A'.val ∧ c.val ≤ 'Z'.val) ||
      (decide (c.val ≥ 'a'.val) && decide (c.val ≤ 'z'.val))) ||
      (decide (c.val ≥ '0'.val) && decide (c.val ≤ '9'.val))) || c == '_') = true at h
    simp only [Bool.or_eq_true, Bool.and_eq_true, decide_eq_true_eq, beq_iff_eq, ge_iff_le,
      UInt32.le_iff_toNat_le] at h
    rcases h with ((⟨h₁, h₂⟩ | ⟨h₁, h₂⟩) | ⟨h₁, h₂⟩) | h
    · exact .inr (.inr (.inl ⟨h₁, h₂⟩))
    · exact .inr (.inr (.inr ⟨h₁, h₂⟩))
    · exact .inr (.inl ⟨h₁, h₂⟩)
    · exact .inl (hn '_' h)
  rw [isWordChar_iff]
  constructor
  · cases hw : isWhitespace c with
    | false => rfl
    | true =>
      rcases isWhitespace_iff.1 hw with h | h | h | h | h | h <;> subst h <;> simp at hc
  · simp only [isPunctuation]
    rcases hc with hc | hc | hc | hc <;> simp <;> omega

/-- An ASCII digit is a word character. -/
theorem isWordChar_of_isDigit {c : Char} (h : c.isDigit = true) : isWordChar c = true :=
  isWordChar_of_isIdentifierRest (by simp [isIdentifierRest, Char.isAlphanum, h])

end CLex
