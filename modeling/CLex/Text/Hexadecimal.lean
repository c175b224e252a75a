/-!
# Hexadecimal Digits

Code points are written with lower-case hexadecimal digits in a fixed width, the most
significant digit first.

## Main results

* `readHex_hexDigits`: a number that fits its width is read back from its digits.
-/

namespace CLex.Text

/-- The lower-case hexadecimal digit of a number below sixteen. -/
def hexDigit (n : Nat) : Char :=
  Char.ofNat (if n < 10 then 0x30 + n else 0x57 + n)

/-- The last `width` hexadecimal digits of a number, the most significant first. -/
def hexDigits : Nat → Nat → List Char
  | 0, _ => []
  | width + 1, n => hexDigits width (n / 16) ++ [hexDigit (n % 16)]

/-- The value of a lower-case hexadecimal digit. -/
def hexValue? (c : Char) : Option Nat :=
  if '0' ≤ c ∧ c ≤ '9' then some (c.toNat - 0x30)
  else if 'a' ≤ c ∧ c ≤ 'f' then some (c.toNat - 0x57)
  else none

/-- The number that a list of hexadecimal digits writes, after the digits of `n`. -/
def readHexFrom (n : Nat) : List Char → Option Nat
  | [] => some n
  | c :: cs => (hexValue? c).bind fun d => readHexFrom (16 * n + d) cs

/-- The number that a list of hexadecimal digits writes. -/
def readHex (cs : List Char) : Option Nat :=
  readHexFrom 0 cs

/-! ### Reading back -/

@[simp] theorem length_hexDigits (width n : Nat) : (hexDigits width n).length = width := by
  induction width generalizing n with
  | zero => rfl
  | succ width ih => simp [hexDigits, ih]

theorem hexValue?_hexDigit {n : Nat} (h : n < 16) : hexValue? (hexDigit n) = some n := by
  have : ∀ n < 16, hexValue? (hexDigit n) = some n := by decide
  exact this n h

theorem readHexFrom_append (n : Nat) (cs ds : List Char) :
    readHexFrom n (cs ++ ds) = (readHexFrom n cs).bind fun m => readHexFrom m ds := by
  induction cs generalizing n with
  | nil => rfl
  | cons c cs ih => cases hc : hexValue? c <;> simp [readHexFrom, hc, ih]

private theorem readHexFrom_hexDigits (width m n : Nat) :
    readHexFrom m (hexDigits width n) =
      some (Nat.pow 16 width * m + n % Nat.pow 16 width) := by
  induction width generalizing n with
  | zero => simp [hexDigits, readHexFrom, Nat.mod_one]
  | succ width ih =>
    rw [hexDigits, readHexFrom_append, ih]
    simp only [Option.bind_some, readHexFrom, hexValue?_hexDigit (Nat.mod_lt n (by omega : 0 < 16))]
    have hpow : Nat.pow 16 (width + 1) = 16 * Nat.pow 16 width := Nat.pow_succ'
    rw [hpow, Nat.mod_mul]
    congr 1
    rw [Nat.mul_add, Nat.mul_assoc]
    omega

/-- A number that fits its width is read back from its digits. -/
theorem readHex_hexDigits {width n : Nat} (h : n < Nat.pow 16 width) :
    readHex (hexDigits width n) = some n := by
  rw [readHex, readHexFrom_hexDigits, Nat.mod_eq_of_lt h, Nat.mul_zero, Nat.zero_add]

/-- A written digit lies between `0` and `f`. -/
theorem toNat_hexDigit_bounds {n : Nat} (h : n < 16) :
    0x30 ≤ (hexDigit n).toNat ∧ (hexDigit n).toNat ≤ 0x66 := by
  have : ∀ n < 16, 0x30 ≤ (hexDigit n).toNat ∧ (hexDigit n).toNat ≤ 0x66 := by decide
  exact this n h

end CLex.Text
