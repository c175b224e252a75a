import CLex.Proofs.Run
import CLex.Token

/-!
# The Languages of Words

A word in the set of keywords is a keyword. Of any other word the spelling decides: it is a number
if it consists of digits, with or without a point between them, and a name if it starts with a
letter or an underscore and goes on with letters, digits and underscores. All of these are ASCII,
and the whole word has to be spelled like this, so that digits and letters of other scripts, a line
feed at the end, a point at the end and a second point are turned down.

## Main definitions

* `IsLetter`, `IsNumeral`: letters and digits as ranges of characters.
* `IsNumber`, `IsName`: the two languages.

## Main results

* `isNumericConstant_iff`, `isIdentifier_iff`: what is tested are these languages.
* `not_spelled`: what is turned down.
* `Token.Kind.ofWord?_eq_iff`: which kind a word is of.
-/

namespace CLex

/-! ### Letters and digits -/

/-- An ASCII letter. -/
def IsLetter (c : Char) : Prop :=
  ('A' ≤ c ∧ c ≤ 'Z') ∨ ('a' ≤ c ∧ c ≤ 'z')

/-- An ASCII digit. -/
def IsNumeral (c : Char) : Prop :=
  '0' ≤ c ∧ c ≤ '9'

instance (c : Char) : Decidable (IsLetter c) :=
  inferInstanceAs (Decidable (_ ∨ _))

instance (c : Char) : Decidable (IsNumeral c) :=
  inferInstanceAs (Decidable (_ ∧ _))

theorem isDigit_iff {c : Char} : c.isDigit = true ↔ IsNumeral c := by
  rw [Char.isDigit_iff_toNat]
  rfl

theorem isAlpha_iff {c : Char} : c.isAlpha = true ↔ IsLetter c := by
  have hupper : c.isUpper = true ↔ 'A' ≤ c ∧ c ≤ 'Z' := decide_eq_true_iff
  have hlower : c.isLower = true ↔ 'a' ≤ c ∧ c ≤ 'z' :=
    Bool.and_eq_true_iff.trans (and_congr decide_eq_true_iff decide_eq_true_iff)
  exact Bool.or_eq_true_iff.trans (or_congr hupper hlower)

theorem isIdentifierStart_iff {c : Char} :
    isIdentifierStart c = true ↔ IsLetter c ∨ c = '_' := by
  rw [isIdentifierStart, Bool.or_eq_true, isAlpha_iff, beq_iff_eq]

theorem isIdentifierRest_iff {c : Char} :
    isIdentifierRest c = true ↔ IsLetter c ∨ IsNumeral c ∨ c = '_' := by
  rw [isIdentifierRest, Bool.or_eq_true, Char.isAlphanum, Bool.or_eq_true, isAlpha_iff,
    isDigit_iff, beq_iff_eq, or_assoc]

/-! ### Numbers and names -/

/-- One or more digits. -/
def IsDigits (word : List Char) : Prop :=
  word ≠ [] ∧ ∀ c ∈ word, IsNumeral c

/-- Digits, or digits, a point and digits. -/
inductive IsNumber : List Char → Prop
  | whole {digits : List Char} : IsDigits digits → IsNumber digits
  | decimal {digits fraction : List Char} :
      IsDigits digits → IsDigits fraction → IsNumber (digits ++ '.' :: fraction)

/-- A letter or an underscore, and then letters, digits and underscores. -/
def IsName (word : List Char) : Prop :=
  ∃ first rest, word = first :: rest ∧ (IsLetter first ∨ first = '_') ∧
    ∀ c ∈ rest, IsLetter c ∨ IsNumeral c ∨ c = '_'

/-- Digits end where a word ends or a point follows. -/
private theorem IsDigits.isLongestRun {digits rest : List Char} (h : IsDigits digits)
    (hrest : ∀ c ∈ rest.head?, c = '.') : IsLongestRun Char.isDigit digits rest :=
  ⟨fun c hc => isDigit_iff.mpr (h.2 c hc), fun c hc => hrest c hc ▸ rfl⟩

/-- Digits are not empty. -/
private theorem IsDigits.isEmpty_eq_false {digits : List Char} (h : IsDigits digits) :
    digits.isEmpty = false :=
  List.isEmpty_eq_false_iff.mpr h.1

/-- What is tested for numbers is their language. -/
theorem isNumericConstant_iff {word : List Char} :
    isNumericConstant word = true ↔ IsNumber word := by
  constructor
  · intro h
    have hrun := IsLongestRun.takeWhile_dropWhile Char.isDigit word
    rw [isNumericConstant, Bool.and_eq_true] at h
    obtain ⟨hne, hrest⟩ := h
    rw [← List.takeWhile_append_dropWhile (p := Char.isDigit) (l := word)]
    generalize word.takeWhile Char.isDigit = digits at hrun hne ⊢
    generalize word.dropWhile Char.isDigit = rest at hrun hrest ⊢
    have hdigits : IsDigits digits :=
      ⟨by simpa using hne, fun c hc => isDigit_iff.mp (hrun.1 c hc)⟩
    cases rest with
    | nil =>
        rw [List.append_nil]
        exact .whole hdigits
    | cons point fraction =>
        simp only [Bool.and_eq_true, beq_iff_eq, Bool.not_eq_true', List.isEmpty_eq_false_iff,
          List.all_eq_true] at hrest
        obtain ⟨⟨rfl, hne⟩, hfraction⟩ := hrest
        exact .decimal hdigits ⟨hne, fun c hc => isDigit_iff.mp (hfraction c hc)⟩
  · intro h
    cases h with
    | whole hdigits =>
        have hrun : IsLongestRun Char.isDigit word [] := hdigits.isLongestRun (by simp)
        have htake := hrun.takeWhile_eq
        have hdrop := hrun.dropWhile_eq
        rw [List.append_nil] at htake hdrop
        rw [isNumericConstant, htake, hdrop, hdigits.isEmpty_eq_false]
        rfl
    | @decimal digits fraction hdigits hfraction =>
        have hrun : IsLongestRun Char.isDigit digits ('.' :: fraction) :=
          hdigits.isLongestRun (by simp)
        have hall : fraction.all Char.isDigit = true :=
          List.all_eq_true.mpr fun c hc => isDigit_iff.mpr (hfraction.2 c hc)
        rw [isNumericConstant, hrun.takeWhile_eq, hrun.dropWhile_eq, hdigits.isEmpty_eq_false]
        simp only [hfraction.isEmpty_eq_false, hall]
        rfl

/-- What is tested for names is their language. -/
theorem isIdentifier_iff {word : List Char} : isIdentifier word = true ↔ IsName word := by
  cases word with
  | nil => simp [isIdentifier, IsName]
  | cons first rest =>
      rw [isIdentifier, Bool.and_eq_true, isIdentifierStart_iff, List.all_eq_true]
      constructor
      · rintro ⟨hfirst, hrest⟩
        exact ⟨first, rest, rfl, hfirst, fun c hc => isIdentifierRest_iff.mp (hrest c hc)⟩
      · rintro ⟨_, _, hcons, hfirst, hrest⟩
        obtain ⟨rfl, rfl⟩ := List.cons.inj hcons
        exact ⟨hfirst, fun c hc => isIdentifierRest_iff.mpr (hrest c hc)⟩

instance (word : List Char) : Decidable (IsNumber word) :=
  decidable_of_iff _ isNumericConstant_iff

instance (word : List Char) : Decidable (IsName word) :=
  decidable_of_iff _ isIdentifier_iff

/-! ### Marks of misspelling -/

/-- Letters are no digits, and neither of them is an underscore or a point. -/
private theorem IsNumeral.not_nameStart {c : Char} (h : IsNumeral c) :
    ¬ (IsLetter c ∨ c = '_') ∧ c ≠ '.' := by
  simp only [IsNumeral, IsLetter, Char.le_def, UInt32.le_iff_toNat_le] at h ⊢
  obtain ⟨hlow, hhigh⟩ := h
  refine ⟨?_, ?_⟩
  · rintro ((⟨hletter, -⟩ | ⟨hletter, -⟩) | rfl)
    · exact absurd (Nat.le_trans hletter hhigh) (by decide)
    · exact absurd (Nat.le_trans hletter hhigh) (by decide)
    · exact absurd hhigh (by decide)
  · rintro rfl
    exact absurd hlow (by decide)

/-- There is no point among digits. -/
private theorem IsDigits.count_point {digits : List Char} (h : IsDigits digits) :
    digits.count '.' = 0 :=
  List.count_eq_zero.mpr fun hpoint => (h.2 '.' hpoint).not_nameStart.2 rfl

/-- Digits end in a digit, whatever stands before them. -/
private theorem IsDigits.getLast?_append_ne {digits : List Char} (h : IsDigits digits)
    (before : List Char) : (before ++ digits).getLast? ≠ some '.' := by
  intro hlast
  rw [List.getLast?_append, Option.or_eq_some_iff, List.getLast?_eq_none_iff] at hlast
  have hpoint : '.' ∈ digits := List.mem_of_getLast? (hlast.resolve_right fun h' => h.1 h'.1)
  exact (h.2 '.' hpoint).not_nameStart.2 rfl

/-- A number starts with a digit. -/
theorem IsNumber.exists_head {word : List Char} (h : IsNumber word) :
    ∃ first rest, word = first :: rest ∧ IsNumeral first := by
  cases h with
  | whole hdigits =>
      obtain ⟨first, rest, rfl⟩ := List.exists_cons_of_ne_nil hdigits.1
      exact ⟨first, rest, rfl, hdigits.2 first (List.mem_cons_self ..)⟩
  | decimal hdigits _ =>
      obtain ⟨first, rest, rfl⟩ := List.exists_cons_of_ne_nil hdigits.1
      exact ⟨first, _, rfl, hdigits.2 first (List.mem_cons_self ..)⟩

/-- No word is spelled like a number and like a name. -/
theorem IsName.not_isNumber {word : List Char} (h : IsName word) : ¬ IsNumber word := by
  intro hnumber
  obtain ⟨first, rest, hcons, hfirst, -⟩ := h
  obtain ⟨digit, _, hcons', hdigit⟩ := hnumber.exists_head
  obtain ⟨rfl, -⟩ := List.cons.inj (hcons.symm.trans hcons')
  exact hdigit.not_nameStart.1 hfirst

/-- The characters of names. -/
theorem IsName.of_mem {word : List Char} (h : IsName word) {c : Char} (hc : c ∈ word) :
    IsLetter c ∨ IsNumeral c ∨ c = '_' := by
  obtain ⟨first, rest, rfl, hfirst, hrest⟩ := h
  rcases List.mem_cons.mp hc with rfl | hc
  · exact hfirst.imp_right .inr
  · exact hrest c hc

/-- There is no point in a name. -/
theorem IsName.point_notMem {word : List Char} (h : IsName word) : '.' ∉ word :=
  fun hpoint => absurd (h.of_mem hpoint) (by decide)

/-- The characters of numbers. -/
theorem IsNumber.of_mem {word : List Char} (h : IsNumber word) {c : Char} (hc : c ∈ word) :
    IsNumeral c ∨ c = '.' := by
  cases h with
  | whole hdigits => exact .inl (hdigits.2 c hc)
  | decimal hdigits hfraction =>
      rcases List.mem_append.mp hc with hc | hc
      · exact .inl (hdigits.2 c hc)
      · rcases List.mem_cons.mp hc with rfl | hc
        · exact .inr rfl
        · exact .inl (hfraction.2 c hc)

/-- The characters of numbers and names. -/
theorem spelled_of_mem {word : List Char} (h : IsNumber word ∨ IsName word) {c : Char}
    (hc : c ∈ word) : IsLetter c ∨ IsNumeral c ∨ c = '_' ∨ c = '.' := by
  rcases h with hnumber | hname
  · exact .inr ((hnumber.of_mem hc).imp_right .inr)
  · exact (hname.of_mem hc).imp_right (Or.imp_right .inl)

/-- A number does not end with a point, and has one at most. -/
theorem IsNumber.point {word : List Char} (h : IsNumber word) :
    word.getLast? ≠ some '.' ∧ word.count '.' ≤ 1 := by
  cases h with
  | whole hdigits =>
      exact ⟨hdigits.getLast?_append_ne [], by rw [hdigits.count_point]; exact Nat.zero_le 1⟩
  | @decimal digits fraction hdigits hfraction =>
      refine ⟨?_, ?_⟩
      · rw [List.append_cons]
        exact hfraction.getLast?_append_ne _
      · have hone : (digits ++ '.' :: fraction).count '.' = 1 := by
          rw [List.count_append, List.count_cons_self, hdigits.count_point, hfraction.count_point]
        exact Nat.le_of_eq hone

/-- A strange character, a point at the end and a second point are turned down. -/
theorem not_spelled {word : List Char}
    (h : (∃ c ∈ word, ¬ (IsLetter c ∨ IsNumeral c ∨ c = '_' ∨ c = '.')) ∨
      word.getLast? = some '.' ∨ 2 ≤ word.count '.') : ¬ IsNumber word ∧ ¬ IsName word := by
  rcases h with ⟨c, hc, hstrange⟩ | hlast | hcount
  · exact ⟨fun hnumber => hstrange (spelled_of_mem (.inl hnumber) hc),
      fun hname => hstrange (spelled_of_mem (.inr hname) hc)⟩
  · exact ⟨fun hnumber => hnumber.point.1 hlast,
      fun hname => hname.point_notMem (List.mem_of_getLast? hlast)⟩
  · refine ⟨fun hnumber => ?_, fun hname => hname.point_notMem (List.count_pos_iff.mp (by omega))⟩
    have hone := hnumber.point.2
    omega

/-! ### The kind of a word -/

namespace Token.Kind

/-- A word is of the first kind whose language has it, and of none if no language has it. -/
theorem ofWord?_cases (keywords : List String) (word : String) :
    (word ∈ keywords ∧ ofWord? keywords word = some .keyword) ∨
      (word ∉ keywords ∧ IsNumber word.toList ∧
        ofWord? keywords word = some .numericConstant) ∨
      (word ∉ keywords ∧ ¬ IsNumber word.toList ∧ IsName word.toList ∧
        ofWord? keywords word = some .identifier) ∨
      (word ∉ keywords ∧ ¬ IsNumber word.toList ∧ ¬ IsName word.toList ∧
        ofWord? keywords word = none) := by
  rw [← isNumericConstant_iff, ← isIdentifier_iff, ofWord?]
  by_cases hkeyword : word ∈ keywords
  · exact .inl ⟨hkeyword, if_pos hkeyword⟩
  · rw [if_neg hkeyword]
    by_cases hnumber : isNumericConstant word.toList = true
    · exact .inr (.inl ⟨hkeyword, hnumber, if_pos hnumber⟩)
    · rw [if_neg hnumber]
      by_cases hname : isIdentifier word.toList = true
      · exact .inr (.inr (.inl ⟨hkeyword, hnumber, hname, if_pos hname⟩))
      · exact .inr (.inr (.inr ⟨hkeyword, hnumber, hname, if_neg hname⟩))

/-- The kinds of words are exactly their languages, and no word is an operator. -/
theorem ofWord?_eq_iff (keywords : List String) (word : String) :
    (ofWord? keywords word = some .keyword ↔ word ∈ keywords) ∧
      (ofWord? keywords word = some .numericConstant ↔
        word ∉ keywords ∧ IsNumber word.toList) ∧
      (ofWord? keywords word = some .identifier ↔
        word ∉ keywords ∧ ¬ IsNumber word.toList ∧ IsName word.toList) ∧
      (ofWord? keywords word = none ↔
        word ∉ keywords ∧ ¬ IsNumber word.toList ∧ ¬ IsName word.toList) ∧
      ofWord? keywords word ≠ some .operator := by
  rcases ofWord?_cases keywords word with
    ⟨hkeyword, hkind⟩ | ⟨hkeyword, hnumber, hkind⟩ | ⟨hkeyword, hnumber, hname, hkind⟩ |
    ⟨hkeyword, hnumber, hname, hkind⟩ <;>
  simp [*]

end Token.Kind

end CLex
