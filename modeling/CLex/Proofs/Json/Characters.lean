import CLex.Json

/-!
# The Characters of a JSON Text

Whatever the strings of a value hold, its text is printable ASCII, but for the line feeds
between its lines. Everything else is escaped.

## Main results

* `Json.toList_toString`: the text of an integer in decimal digits.
* `Json.isAscii_of_mem_print`: the characters of the text of a value.
-/

namespace CLex

namespace Json

/-- Whether a character is a line feed or printable ASCII. -/
def IsAscii (c : Char) : Prop :=
  c = '\n' ∨ 0x20 ≤ c.toNat ∧ c.toNat ≤ 0x7e

instance (c : Char) : Decidable (IsAscii c) :=
  inferInstanceAs (Decidable (_ ∨ _))

/-! ### Numbers -/

/-- The text of an integer: its digits, after a sign if it is negative. -/
theorem toList_toString (n : Int) :
    (toString n).toList =
      (if n < 0 then ['-'] else []) ++ Nat.toDigits 10 n.natAbs := by
  rw [Int.toString_eq_repr]
  cases n with
  | ofNat m =>
      rw [if_neg (by simp)]
      simp [Int.repr, Nat.repr_eq_ofList_toDigits]
  | negSucc m =>
      rw [if_pos (Int.negSucc_lt_zero m)]
      simp [Int.repr, Nat.repr_eq_ofList_toDigits]

/-- The text of an integer starts with a sign or a digit, and goes on with digits. -/
theorem exists_cons_of_toString (n : Int) :
    ∃ c cs, (toString n).toList = c :: cs ∧ (c = '-' ∨ c.isDigit = true) ∧
      ∀ d ∈ cs, d.isDigit = true := by
  have hdigits : ∀ d ∈ Nat.toDigits 10 n.natAbs, d.isDigit = true :=
    fun d hd => Nat.isDigit_of_mem_toDigits (by omega) (by omega) hd
  rw [toList_toString]
  by_cases hneg : n < 0
  · rw [if_pos hneg]
    exact ⟨'-', _, rfl, .inl rfl, hdigits⟩
  · rw [if_neg hneg, List.nil_append]
    obtain ⟨c, cs, hcons⟩ := List.exists_cons_of_ne_nil (@Nat.toDigits_ne_nil n.natAbs 10)
    rw [hcons] at hdigits ⊢
    obtain ⟨hc, hcs⟩ := List.forall_mem_cons.mp hdigits
    exact ⟨c, cs, rfl, .inr hc, hcs⟩

/-- The text of an integer is ASCII. -/
theorem isAscii_of_mem_toString {n : Int} {c : Char} (h : c ∈ (toString n).toList) :
    IsAscii c := by
  have hdigit : ∀ d : Char, d.isDigit = true → IsAscii d := by
    intro d hd
    simp only [Char.isDigit, Bool.and_eq_true, decide_eq_true_eq, UInt32.le_iff_toNat_le] at hd
    have hlow : 0x30 ≤ d.toNat := hd.1
    have hhigh : d.toNat ≤ 0x39 := hd.2
    exact .inr ⟨by omega, by omega⟩
  obtain ⟨d, ds, hcons, hd, hds⟩ := exists_cons_of_toString n
  rw [hcons, List.mem_cons] at h
  rcases h with rfl | h
  · rcases hd with rfl | hd
    · decide
    · exact hdigit c hd
  · exact hdigit c (hds c h)

/-! ### Strings -/

/-- Hexadecimal digits are ASCII. -/
private theorem isAscii_of_mem_hexDigits {width n : Nat} {c : Char}
    (h : c ∈ Text.hexDigits width n) : IsAscii c := by
  induction width generalizing n with
  | zero => simp [Text.hexDigits] at h
  | succ width ih =>
      rw [Text.hexDigits, List.mem_append, List.mem_singleton] at h
      rcases h with h | rfl
      · exact ih h
      · obtain ⟨hlow, hhigh⟩ := Text.toNat_hexDigit_bounds (Nat.mod_lt n (by omega : 0 < 16))
        exact .inr ⟨by omega, by omega⟩

/-- What stands for a character in a string is ASCII. -/
theorem isAscii_of_mem_escape {c d : Char} (h : d ∈ escape c) : IsAscii d := by
  have hpair : ∀ e : Char, IsAscii e → d ∈ ['\\', e] → IsAscii d := by
    intro e he hd
    rw [List.mem_cons, List.mem_singleton] at hd
    rcases hd with rfl | rfl
    · decide
    · exact he
  unfold escape at h
  split at h
  · next hc =>
    refine hpair c ?_ h
    rcases hc with rfl | rfl <;> decide
  · split at h
    · exact hpair 'n' (by decide) h
    · split at h
      · exact hpair 'r' (by decide) h
      · split at h
        · exact hpair 't' (by decide) h
        · split at h
          · exact hpair 'b' (by decide) h
          · split at h
            · exact hpair 'f' (by decide) h
            · split at h
              · next hprintable =>
                obtain rfl := List.mem_singleton.mp h
                exact .inr hprintable
              · obtain ⟨n, -, hn⟩ := List.mem_flatMap.mp h
                rw [escapeUnit, List.mem_cons, List.mem_cons] at hn
                rcases hn with rfl | rfl | hn
                · decide
                · decide
                · exact isAscii_of_mem_hexDigits hn

/-- A quoted string is ASCII. -/
theorem isAscii_of_mem_quote {s : String} {c : Char} (h : c ∈ quote s) : IsAscii c := by
  rw [quote, List.cons_append, List.mem_cons, List.mem_append, List.mem_singleton] at h
  rcases h with rfl | h | rfl
  · decide
  · obtain ⟨d, -, hd⟩ := List.mem_flatMap.mp h
    exact isAscii_of_mem_escape hd
  · decide

/-! ### Values -/

/-- A line feed and an indentation are ASCII. -/
private theorem isAscii_of_mem_newline {level : Nat} {c : Char} (h : c ∈ newline level) :
    IsAscii c := by
  rw [newline, List.mem_cons, List.mem_replicate] at h
  rcases h with rfl | ⟨-, rfl⟩
  · exact .inl rfl
  · decide

/-- What stands between two items is ASCII if it is between all. -/
private theorem isAscii_of_mem_intercalate {level : Nat} {items : List (List Char)} {c : Char}
    (h : ∀ item ∈ items, ∀ d ∈ item, IsAscii d)
    (hc : c ∈ (',' :: newline level).intercalate items) : IsAscii c := by
  induction items with
  | nil => simp at hc
  | cons item items ih =>
      obtain ⟨hitem, hitems⟩ := List.forall_mem_cons.mp h
      cases items with
      | nil => exact hitem c (by simpa using hc)
      | cons next items =>
          rw [List.intercalate_cons_cons, List.mem_append, List.mem_append, List.mem_cons] at hc
          rcases hc with (hc | rfl | hc) | hc
          · exact hitem c hc
          · decide
          · exact isAscii_of_mem_newline hc
          · exact ih hitems hc

/-- Items in brackets are ASCII if each of them is. -/
theorem isAscii_of_mem_enclose {opening closing : Char} {level : Nat} {items : List (List Char)}
    {c : Char} (hopening : IsAscii opening) (hclosing : IsAscii closing)
    (h : ∀ item ∈ items, ∀ d ∈ item, IsAscii d) (hc : c ∈ enclose opening closing level items) :
    IsAscii c := by
  unfold enclose at hc
  split at hc
  · rw [List.mem_cons, List.mem_singleton] at hc
    rcases hc with rfl | rfl
    · exact hopening
    · exact hclosing
  · rw [List.mem_append, List.mem_append, List.cons_append, List.mem_cons, List.mem_append,
      List.mem_singleton] at hc
    rcases hc with ((rfl | hc | hc) | hc) | rfl
    · exact hopening
    · exact isAscii_of_mem_newline hc
    · exact isAscii_of_mem_intercalate h hc
    · exact isAscii_of_mem_newline hc
    · exact hclosing

/-- **The text of a value is ASCII.** Its only control characters are line feeds. -/
theorem isAscii_of_mem_print {level : Nat} {value : Json} {c : Char}
    (h : c ∈ value.print level) : IsAscii c := by
  induction level, value using print.induct generalizing c with
  | case1 level s =>
      rw [print] at h
      exact isAscii_of_mem_quote h
  | case2 level n =>
      rw [print] at h
      exact isAscii_of_mem_toString h
  | case3 level elements ih =>
      rw [print] at h
      refine isAscii_of_mem_enclose (by decide) (by decide) (fun item hitem d hd => ?_) h
      obtain ⟨element, helement, rfl⟩ := List.mem_map.mp hitem
      exact ih element helement hd
  | case4 level members ih =>
      rw [print] at h
      refine isAscii_of_mem_enclose (by decide) (by decide) (fun item hitem d hd => ?_) h
      obtain ⟨member, hmember, rfl⟩ := List.mem_map.mp hitem
      rw [List.mem_append, List.mem_cons, List.mem_cons] at hd
      rcases hd with hd | rfl | rfl | hd
      · exact isAscii_of_mem_quote hd
      · decide
      · decide
      · exact ih member hmember hd

end Json

end CLex
