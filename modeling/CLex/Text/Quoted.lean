import CLex.Text.Hexadecimal
import CLex.Text.Printable

/-!
# Quoted Text

A text is quoted on one line: between two quote marks, with a backslash before the mark and
the backslash, and with escapes for every character that is not printable. The mark is the
apostrophe, unless the text holds an apostrophe and no double quote, which is then the mark.

## Main definitions

* `quoteMark`, `escape`, `encode`: quoting.
* `decode`: reading a quoted text.

## Main results

* `decode_encode`: a quoted text reads back as the text.
* `isPrintable_of_mem_encode`: a quoted text holds printable characters only.
-/

namespace CLex.Text.Quoted

/-! ### Quoting -/

/-- The mark around a text. -/
def quoteMark (cs : List Char) : Char :=
  if '\x27' ∈ cs ∧ '\x22' ∉ cs then '\x22' else '\x27'

/-- The escape that writes a code point: two, four or eight hexadecimal digits, as few as
suffice. -/
def escapeCodePoint (n : Nat) : List Char :=
  if n < 0x100 then '\\' :: 'x' :: hexDigits 2 n
  else if n < 0x10000 then '\\' :: 'u' :: hexDigits 4 n
  else '\\' :: 'U' :: hexDigits 8 n

/-- A character between the given marks. -/
def escape (mark c : Char) : List Char :=
  if c = mark ∨ c = '\\' then ['\\', c]
  else if c = '\n' then ['\\', 'n']
  else if c = '\r' then ['\\', 'r']
  else if c = '\t' then ['\\', 't']
  else if isPrintable c then [c]
  else escapeCodePoint c.toNat

/-- The quoted text. -/
def encode (cs : List Char) : List Char :=
  quoteMark cs :: cs.flatMap (escape (quoteMark cs)) ++ [quoteMark cs]

/-- The quoted text of a string. -/
def quote (s : String) : String :=
  String.ofList (encode s.toList)

/-! ### Reading -/

/-- The number of hexadecimal digits after a backslash and the given character. -/
def escapeWidth? (c : Char) : Option Nat :=
  if c = 'x' then some 2 else if c = 'u' then some 4 else if c = 'U' then some 8 else none

/-- The character written by a backslash and the given one. -/
def namedEscape? (c : Char) : Option Char :=
  if c = 'n' then some '\n' else if c = 'r' then some '\r' else if c = 't' then some '\t'
  else if c = '\\' ∨ c = '\x27' ∨ c = '\x22' then some c
  else none

/-- The text up to the closing mark, which must end the list. -/
def decodeBody (mark : Char) : List Char → Option (List Char)
  | [] => none
  | c :: cs =>
    if c = mark then if cs.isEmpty then some [] else none
    else if c = '\\' then
      match cs with
      | [] => none
      | d :: ds =>
        match escapeWidth? d with
        | some width =>
          (readHex (ds.take width)).bind fun n =>
            if n.isValidChar then (decodeBody mark (ds.drop width)).map (Char.ofNat n :: ·)
            else none
        | none =>
          (namedEscape? d).bind fun e => (decodeBody mark ds).map (e :: ·)
    else (decodeBody mark cs).map (c :: ·)
termination_by cs => cs.length

/-- The text that a quoted text stands for. -/
def decode : List Char → Option (List Char)
  | [] => none
  | mark :: cs => if mark = '\x27' ∨ mark = '\x22' then decodeBody mark cs else none

/-! ### A quoted text reads back -/

theorem quoteMark_eq_or (cs : List Char) : quoteMark cs = '\x27' ∨ quoteMark cs = '\x22' := by
  unfold quoteMark
  split <;> simp

private theorem decodeBody_escapeCodePoint {mark : Char} (hm : mark = '\x27' ∨ mark = '\x22')
    (c : Char) (rest : List Char) :
    decodeBody mark (escapeCodePoint c.toNat ++ rest) =
      (decodeBody mark rest).map (c :: ·) := by
  have hb : '\\' ≠ mark := by rcases hm with rfl | rfl <;> decide
  have step : ∀ (d : Char) (width : Nat), escapeWidth? d = some width →
      c.toNat < Nat.pow 16 width →
      decodeBody mark ('\\' :: d :: hexDigits width c.toNat ++ rest) =
        (decodeBody mark rest).map (c :: ·) := by
    intro d width hw hlt
    have htake : (hexDigits width c.toNat ++ rest).take width = hexDigits width c.toNat := by
      rw [List.take_append_of_le_length (by simp), List.take_of_length_le (by simp)]
    have hdrop : (hexDigits width c.toNat ++ rest).drop width = rest := by
      rw [List.drop_append_of_le_length (by simp), List.drop_of_length_le (by simp)]
      rfl
    have hvalid : c.toNat.isValidChar := c.valid
    simp [decodeBody, hb, hw, htake, hdrop, readHex_hexDigits hlt, hvalid]
  have hmax : c.toNat < 0x110000 := by
    have : c.toNat.isValidChar := c.valid
    simp only [Nat.isValidChar] at this
    omega
  have hpow : Nat.pow 16 2 = 0x100 ∧ Nat.pow 16 4 = 0x10000 ∧ Nat.pow 16 8 = 0x100000000 :=
    ⟨rfl, rfl, rfl⟩
  rw [escapeCodePoint]
  split
  · exact step 'x' 2 rfl (by omega)
  · split
    · exact step 'u' 4 rfl (by omega)
    · exact step 'U' 8 rfl (by omega)

/-- An escaped character reads back as the character. -/
theorem decodeBody_escape {mark : Char} (hm : mark = '\x27' ∨ mark = '\x22') (c : Char)
    (rest : List Char) :
    decodeBody mark (escape mark c ++ rest) = (decodeBody mark rest).map (c :: ·) := by
  have hb : '\\' ≠ mark := by rcases hm with rfl | rfl <;> decide
  have named : ∀ d e : Char, escapeWidth? d = none → namedEscape? d = some e →
      decodeBody mark ('\\' :: d :: rest) = (decodeBody mark rest).map (e :: ·) := by
    intro d e hw hn
    simp [decodeBody, hb, hw, hn]
  unfold escape
  split
  · next h =>
    refine named c c ?_ ?_
    · rcases h with rfl | rfl
      · rcases hm with rfl | rfl <;> rfl
      · rfl
    · rcases h with rfl | rfl
      · rcases hm with rfl | rfl <;> rfl
      · rfl
  · next h =>
    split
    · next hc => subst hc; exact named 'n' '\n' rfl rfl
    · split
      · next hc => subst hc; exact named 'r' '\r' rfl rfl
      · split
        · next hc => subst hc; exact named 't' '\t' rfl rfl
        · split
          · rw [not_or] at h
            conv => lhs; rw [List.singleton_append, decodeBody.eq_def]
            simp only [if_neg h.1, if_neg h.2]
          · exact decodeBody_escapeCodePoint hm c rest

/-- A quoted text reads back as the text. -/
theorem decode_encode (cs : List Char) : decode (encode cs) = some cs := by
  have hm := quoteMark_eq_or cs
  have body : ∀ ds : List Char,
      decodeBody (quoteMark cs) (ds.flatMap (escape (quoteMark cs)) ++ [quoteMark cs]) =
        some ds := by
    intro ds
    induction ds with
    | nil => simp [decodeBody]
    | cons d ds ih =>
      rw [List.flatMap_cons, List.append_assoc, decodeBody_escape hm, ih]
      rfl
  simp only [encode, decode, List.cons_append]
  rw [if_pos hm, body]

/-! ### A quoted text is printable -/

private theorem isPrintable_of_mem_hexDigits {width n : Nat} {c : Char}
    (h : c ∈ hexDigits width n) : isPrintable c = true := by
  induction width generalizing n with
  | zero => simp [hexDigits] at h
  | succ width ih =>
    rw [hexDigits, List.mem_append, List.mem_singleton] at h
    rcases h with h | h
    · exact ih h
    · obtain ⟨h₁, h₂⟩ := toNat_hexDigit_bounds (Nat.mod_lt n (by omega : 0 < 16))
      rw [h]
      exact isPrintable_of_ascii (by omega) (by omega)

/-- What stands for a character is printable. -/
theorem isPrintable_of_mem_escape {mark c d : Char} (hm : mark = '\x27' ∨ mark = '\x22')
    (h : d ∈ escape mark c) : isPrintable d = true := by
  have backslash : isPrintable '\\' = true := isPrintable_of_ascii (by decide) (by decide)
  have coded : ∀ (x : Char) (width n : Nat), 0x20 ≤ x.toNat → x.toNat ≤ 0x7e →
      d ∈ '\\' :: x :: hexDigits width n → isPrintable d = true := by
    intro x width n h₁ h₂ hd
    rw [List.mem_cons, List.mem_cons] at hd
    rcases hd with rfl | rfl | hd
    · exact backslash
    · exact isPrintable_of_ascii h₁ h₂
    · exact isPrintable_of_mem_hexDigits hd
  unfold escape at h
  split at h
  · next hc =>
    rw [List.mem_cons, List.mem_singleton] at h
    rcases h with rfl | rfl
    · exact backslash
    · rcases hc with rfl | rfl
      · rcases hm with rfl | rfl <;> exact isPrintable_of_ascii (by decide) (by decide)
      · exact backslash
  · split at h
    · exact coded 'n' 0 0 (by decide) (by decide) h
    · split at h
      · exact coded 'r' 0 0 (by decide) (by decide) h
      · split at h
        · exact coded 't' 0 0 (by decide) (by decide) h
        · split at h
          · next hp => rw [List.mem_singleton] at h; rwa [h]
          · unfold escapeCodePoint at h
            split at h
            · exact coded 'x' 2 _ (by decide) (by decide) h
            · split at h
              · exact coded 'u' 4 _ (by decide) (by decide) h
              · exact coded 'U' 8 _ (by decide) (by decide) h

/-- A quoted text holds printable characters only. -/
theorem isPrintable_of_mem_encode {cs : List Char} {c : Char} (h : c ∈ encode cs) :
    isPrintable c = true := by
  have hm := quoteMark_eq_or cs
  have mark : isPrintable (quoteMark cs) = true := by
    rcases hm with h | h <;> rw [h] <;> exact isPrintable_of_ascii (by decide) (by decide)
  simp only [encode, List.cons_append, List.mem_cons, List.mem_append, List.mem_flatMap,
    List.not_mem_nil, or_false] at h
  rcases h with rfl | ⟨d, -, hd⟩ | rfl
  · exact mark
  · exact isPrintable_of_mem_escape hm hd
  · exact mark

end CLex.Text.Quoted
