import DcPerf.Library.ShellNumber
import Mathlib.Data.Nat.Log

/-!
# Printed numbers

Hexadecimal numbers in capitals, in a given number of digits, and how they are read back.
-/

namespace DcPerf.Library

/-- `%.kX` of a number of at most `k` digits. -/
def upperHex (k n : ℕ) : List Char := (hexText k n).map Char.toUpper

/-- `%0kx` -/
def lowerHex (k n : ℕ) : List Char := hexText (max k (Nat.log 16 n + 1)) n

/-- `%0kX` -/
def paddedHex (k n : ℕ) : List Char := upperHex (max k (Nat.log 16 n + 1)) n

/-- `%kX` -/
def blankHex (k n : ℕ) : List Char := List.replicate (k - (Nat.log 16 n + 1)) ' ' ++ paddedHex 0 n

theorem length_hexText (k n : ℕ) : (hexText k n).length = k := by
  induction k generalizing n with
  | zero => rfl
  | succ k ih => rw [hexText, List.length_append, ih, List.length_singleton]

theorem hexText_digit (k n : ℕ) : ∀ c ∈ hexText k n, ∃ d < 16, c = hexChar d := by
  induction k generalizing n with
  | zero => simp [hexText]
  | succ k ih =>
    intro c hc
    rw [hexText, List.mem_append, List.mem_singleton] at hc
    rcases hc with hc | rfl
    · exact ih (n / 16) c hc
    · exact ⟨n % 16, Nat.mod_lt n (by decide), rfl⟩

theorem toUpper_hexChar {d : ℕ} (h : d < 16) :
    digitValue (hexChar d).toUpper = digitValue (hexChar d) ∧ isXDigit (hexChar d).toUpper = true := by
  have hall : ∀ d < 16, digitValue (hexChar d).toUpper = digitValue (hexChar d) ∧
      isXDigit (hexChar d).toUpper = true := by decide
  exact hall d h

@[simp] theorem length_upperHex (k n : ℕ) : (upperHex k n).length = k := by
  rw [upperHex, List.length_map, length_hexText]

theorem isXDigit_upperHex (k n : ℕ) : ∀ c ∈ upperHex k n, isXDigit c = true := by
  intro c hc
  obtain ⟨d, hd, rfl⟩ := List.mem_map.mp hc
  obtain ⟨v, hv, rfl⟩ := hexText_digit k n d hd
  exact (toUpper_hexChar hv).2

/-- Capitals denote the same number. -/
theorem valueIn_map_toUpper {digits : List Char} (h : ∀ c ∈ digits, ∃ d < 16, c = hexChar d) :
    valueIn 16 (digits.map Char.toUpper) = valueIn 16 digits := by
  induction digits using List.reverseRecOn with
  | nil => rfl
  | append_singleton digits c ih =>
    obtain ⟨d, hd, rfl⟩ := h c (by simp)
    have hpre := ih fun c hc => h c (List.mem_append_left _ hc)
    rw [List.map_append, List.map_singleton, valueIn_snoc, valueIn_snoc, hpre, (toUpper_hexChar hd).1]

/-- A number that is printed in enough digits is read back. -/
theorem valueIn_upperHex {k n : ℕ} (h : n < 16 ^ k) : valueIn 16 (upperHex k n) = n := by
  rw [upperHex, valueIn_map_toUpper (hexText_digit k n), valueIn_hexText, Nat.mod_eq_of_lt h]

/-- The digits of a number of at most `k` digits, in `k` digits. -/
theorem lowerHex_of_lt {k n : ℕ} (hk : 0 < k) (h : n < 16 ^ k) : lowerHex k n = hexText k n := by
  have hlog : Nat.log 16 n < k := Nat.log_lt_of_lt_pow' (by omega) h
  rw [lowerHex, Nat.max_eq_left hlog]

theorem hexChar_digitValue {c : Char} (h : isXDigit c = true) : hexChar (digitValue c) = c.toLower := by
  have hlt : c.toNat < 128 := by
    have hcode := isXDigit_iff.mp h
    omega
  have hall : ∀ n < 128, isXDigit (Char.ofNat n) = true →
      hexChar (digitValue (Char.ofNat n)) = (Char.ofNat n).toLower := by decide
  have hc := hall c.toNat hlt
  rw [Char.ofNat_toNat] at hc
  exact hc h

/-- Digits that are read and printed again are in lower case, and otherwise the same. -/
theorem hexText_valueIn {digits : List Char} (h : ∀ c ∈ digits, isXDigit c = true) :
    hexText digits.length (valueIn 16 digits) = digits.map Char.toLower := by
  induction digits using List.reverseRecOn with
  | nil => rfl
  | append_singleton digits c ih =>
    have hpre := ih fun d hd => h d (List.mem_append_left _ hd)
    have hc := h c (by simp)
    have hlt := digitValue_lt_sixteen hc
    have hdiv : (valueIn 16 digits * 16 + digitValue c) / 16 = valueIn 16 digits := by omega
    have hmod : (valueIn 16 digits * 16 + digitValue c) % 16 = digitValue c := by omega
    rw [valueIn_snoc, List.length_append, List.length_singleton, hexText, hdiv, hmod, hpre,
      hexChar_digitValue hc, List.map_append, List.map_singleton]

/-- A number that is printed in as many digits as it needs is read back. -/
theorem valueIn_paddedHex (k n : ℕ) : valueIn 16 (paddedHex k n) = n := by
  apply valueIn_upperHex
  calc n < 16 ^ (Nat.log 16 n + 1) := Nat.lt_pow_succ_log_self (by omega) n
    _ ≤ 16 ^ max k (Nat.log 16 n + 1) := Nat.pow_le_pow_right (by omega) (Nat.le_max_right _ _)

end DcPerf.Library
