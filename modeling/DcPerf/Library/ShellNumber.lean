import Mathlib.Algebra.Group.Nat.Defs
import Mathlib.Data.List.Induction

/-!
# Numbers in shell arithmetic

A shell reads a constant digit by digit into a 64-bit word that wraps. A leading `0` announces
octal, `0x` hexadecimal, and a digit that the base does not have is an error.
-/

namespace DcPerf.Library

/-- `[[:xdigit:]]` -/
def isXDigit (c : Char) : Bool := c.isDigit || ('a' ≤ c && c ≤ 'f') || ('A' ≤ c && c ≤ 'F')

/-- `=~ ^[0-9]+$` -/
def isDigits (s : List Char) : Bool := !s.isEmpty && s.all Char.isDigit

/-- What a character counts as a digit. -/
def digitValue (c : Char) : ℕ :=
  if c.isDigit then c.toNat - '0'.toNat
  else if 'a' ≤ c ∧ c ≤ 'z' then c.toNat - 'a'.toNat + 10
  else c.toNat - 'A'.toNat + 10

/-- The number that digits denote in a base. -/
def valueIn (base : ℕ) (digits : List Char) : ℕ :=
  digits.foldl (fun n c => n * base + digitValue c) 0

/-- What a shell makes of the digits of a constant whose base it knows. -/
def numeralIn (base : ℕ) (digits : List Char) : Option (BitVec 64) :=
  digits.foldlM (fun v c => if digitValue c < base then some (v * BitVec.ofNat 64 base +
    BitVec.ofNat 64 (digitValue c)) else none) 0#64

/-- What a shell makes of a constant. -/
def shellNumber (digits : List Char) : Option (BitVec 64) :=
  match digits with
  | ['0'] => some 0#64
  | '0' :: 'x' :: digits => numeralIn 16 digits
  | '0' :: 'X' :: digits => numeralIn 16 digits
  | '0' :: digits => numeralIn 8 digits
  | digits => numeralIn 10 digits

/-- `=~ ^[[:xdigit:]]{k}$` -/
def isHexWord (k : ℕ) (text : List Char) : Bool := text.length == k && text.all isXDigit

/-- `$((16#text))` -/
def hexValue (text : List Char) : ℕ := ((numeralIn 16 text).getD 0#64).toNat

def hexChar (n : ℕ) : Char := Char.ofNat (if n < 10 then '0'.toNat + n else 'a'.toNat + (n - 10))

/-- A number in hexadecimal, in a given number of digits. -/
def hexText : ℕ → ℕ → List Char
  | 0, _ => []
  | k + 1, n => hexText k (n / 16) ++ [hexChar (n % 16)]

variable {base : ℕ} {digits : List Char}

theorem digitValue_lt_ten {c : Char} (h : c.isDigit = true) : digitValue c < 10 := by
  unfold digitValue
  rw [if_pos h]
  unfold Char.isDigit at h
  have hle : c.val ≤ 57 := of_decide_eq_true (Bool.and_eq_true_iff.mp h).2
  have hnat : c.toNat ≤ 57 := UInt32.le_iff_toNat_le.mp hle
  have hzero : '0'.toNat = 48 := rfl
  omega

/-- A string of decimal digits has no others. -/
theorem digitValue_of_isDigits {text : List Char} (h : isDigits text = true) :
    ∀ c ∈ text, digitValue c < 10 := by
  intro c hc
  have hall := (Bool.and_eq_true_iff.mp h).2
  exact digitValue_lt_ten (List.all_eq_true.mp hall c hc)

theorem valueIn_snoc (base : ℕ) (digits : List Char) (c : Char) :
    valueIn base (digits ++ [c]) = valueIn base digits * base + digitValue c := by
  simp [valueIn]

theorem numeralIn_snoc (base : ℕ) (digits : List Char) (c : Char) :
    numeralIn base (digits ++ [c]) = (numeralIn base digits).bind fun v =>
      if digitValue c < base then some (v * BitVec.ofNat 64 base + BitVec.ofNat 64 (digitValue c))
      else none := by
  simp [numeralIn, List.foldlM_append]

/-- The shell's number is the one denoted, modulo `2 ^ 64`. -/
theorem numeralIn_eq (h : ∀ c ∈ digits, digitValue c < base) :
    numeralIn base digits = some (BitVec.ofNat 64 (valueIn base digits)) := by
  induction digits using List.reverseRecOn with
  | nil => rfl
  | append_singleton digits c ih =>
    have hpre : ∀ d ∈ digits, digitValue d < base := by
      intro d hd
      exact h d (List.mem_append_left _ hd)
    rw [numeralIn_snoc, ih hpre, Option.bind_some, if_pos (h c (by simp)), valueIn_snoc]
    congr 1
    rw [BitVec.ofNat_add, BitVec.ofNat_mul]

/-- Digits denote less than one more digit would. -/
theorem valueIn_lt (h : ∀ c ∈ digits, digitValue c < base) :
    valueIn base digits < base ^ digits.length := by
  induction digits using List.reverseRecOn with
  | nil => simp [valueIn]
  | append_singleton digits c ih =>
    have hpre : valueIn base digits < base ^ digits.length :=
      ih fun d hd => h d (List.mem_append_left _ hd)
    have hc := h c (by simp)
    rw [valueIn_snoc, List.length_append, List.length_singleton, Nat.pow_succ]
    calc valueIn base digits * base + digitValue c
        < valueIn base digits * base + base := Nat.add_lt_add_left hc _
      _ = (valueIn base digits + 1) * base := (Nat.succ_mul _ _).symm
      _ ≤ base ^ digits.length * base := Nat.mul_le_mul_right _ hpre

/-! ## Hexadecimal words -/

theorem length_of_isHexWord {k : ℕ} {text : List Char} (h : isHexWord k text = true) :
    text.length = k := by
  simpa using (Bool.and_eq_true_iff.mp h).1

/-- A hexadecimal word has no other characters. -/
theorem not_mem_of_isHexWord {k : ℕ} {text : List Char} {c : Char} (h : isHexWord k text = true)
    (hc : isXDigit c = false) : c ∉ text := by
  intro hmem
  have hdigit := List.all_eq_true.mp (Bool.and_eq_true_iff.mp h).2 c hmem
  rw [hc] at hdigit
  cases hdigit

theorem isXDigit_iff {c : Char} : isXDigit c = true ↔ (48 ≤ c.toNat ∧ c.toNat ≤ 57) ∨
    (97 ≤ c.toNat ∧ c.toNat ≤ 102) ∨ (65 ≤ c.toNat ∧ c.toNat ≤ 70) := by
  unfold isXDigit
  rw [Bool.or_eq_true, Bool.or_eq_true, Char.isDigit_iff_toNat, or_assoc]
  simp [Char.le_def, UInt32.le_iff_toNat_le]

theorem digitValue_lt_sixteen {c : Char} (h : isXDigit c = true) : digitValue c < 16 := by
  have hcode := isXDigit_iff.mp h
  have h0 : '0'.toNat = 48 := rfl
  have ha : 'a'.toNat = 97 := rfl
  have hA : 'A'.toNat = 65 := rfl
  unfold digitValue
  split
  · rename_i hd
    have hten : c.toNat ≤ 57 := (Char.isDigit_iff_toNat.mp hd).2
    omega
  · rename_i hd
    have hletter : ¬(48 ≤ c.toNat ∧ c.toNat ≤ 57) := fun hc => hd (Char.isDigit_iff_toNat.mpr hc)
    split
    · rename_i hl
      have hlower : 97 ≤ c.toNat := hl.1
      omega
    · rename_i hl
      have hupper : ¬(97 ≤ c.toNat ∧ c.toNat ≤ 122) := hl
      omega

/-- Up to 16 hexadecimal digits are read as the number that they denote. -/
theorem hexValue_eq (h : ∀ c ∈ digits, isXDigit c = true) (hl : digits.length ≤ 16) :
    hexValue digits = valueIn 16 digits := by
  have hd : ∀ c ∈ digits, digitValue c < 16 := fun c hc => digitValue_lt_sixteen (h c hc)
  have h64 : valueIn 16 digits < 2 ^ 64 :=
    Nat.lt_of_lt_of_le (valueIn_lt hd) (Nat.pow_le_pow_right (by decide : 0 < 16) hl)
  unfold hexValue
  rw [numeralIn_eq hd, Option.getD_some, BitVec.toNat_ofNat, Nat.mod_eq_of_lt h64]

theorem hexChar_spec {n : ℕ} (h : n < 16) : digitValue (hexChar n) = n ∧ isXDigit (hexChar n) = true := by
  have hall : ∀ n < 16, digitValue (hexChar n) = n ∧ isXDigit (hexChar n) = true := by decide
  exact hall n h

theorem digitValue_hexText (k n : ℕ) : ∀ c ∈ hexText k n, digitValue c < 16 := by
  induction k generalizing n with
  | zero => simp [hexText]
  | succ k ih =>
    intro c hc
    rw [hexText, List.mem_append, List.mem_singleton] at hc
    rcases hc with hc | rfl
    · exact ih (n / 16) c hc
    · rw [(hexChar_spec (Nat.mod_lt n (by decide))).1]
      exact Nat.mod_lt n (by decide)

theorem valueIn_hexText (k n : ℕ) : valueIn 16 (hexText k n) = n % 16 ^ k := by
  induction k generalizing n with
  | zero => simp [hexText, valueIn, Nat.mod_one]
  | succ k ih =>
    rw [hexText, valueIn_snoc, ih, (hexChar_spec (Nat.mod_lt n (by decide))).1, Nat.pow_succ,
      Nat.mul_comm (16 ^ k), Nat.mod_mul]
    omega

/-- A word that is printed in hexadecimal is read back. -/
theorem hexValue_hexText {k n : ℕ} (hk : k ≤ 16) (hn : n < 16 ^ k) : hexValue (hexText k n) = n := by
  have h64 : n < 2 ^ 64 := Nat.lt_of_lt_of_le hn (Nat.pow_le_pow_right (by decide : 0 < 16) hk)
  unfold hexValue
  rw [numeralIn_eq (digitValue_hexText k n), Option.getD_some, BitVec.toNat_ofNat, valueIn_hexText,
    Nat.mod_eq_of_lt hn, Nat.mod_eq_of_lt h64]

end DcPerf.Library
