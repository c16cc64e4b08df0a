import Mathlib.Algebra.Group.Nat.Defs
import Mathlib.Data.Nat.Notation

/-!
# Bits and masks of machine words

A single bit is `BitVec.twoPow w i`; the low `v` bits of a word are what `BitVec.setWidth v` keeps.
-/

namespace DcPerf.Library

variable {w v i : ℕ} {x : BitVec w}

/-- A set bit is cleared by flipping it. -/
theorem and_not_twoPow (h : x.getLsbD i = true) :
    x &&& ~~~BitVec.twoPow w i = x ^^^ BitVec.twoPow w i := by
  ext j hj
  by_cases hji : j = i
  · subst hji
    have hbit : x[j] = true := by rw [← BitVec.getLsbD_eq_getElem hj, h]
    simp [hbit]
  · simp [hji]

/-- A clear bit is set by flipping it. -/
theorem or_twoPow (h : x.getLsbD i = false) :
    x ||| BitVec.twoPow w i = x ^^^ BitVec.twoPow w i := by
  ext j hj
  by_cases hji : j = i
  · subst hji
    have hbit : x[j] = false := by rw [← BitVec.getLsbD_eq_getElem hj, h]
    simp [hbit]
  · simp [hji]

/-- A mask of one bit tests it. -/
theorem and_twoPow_eq_zero (hi : i < w) : x &&& BitVec.twoPow w i = 0 ↔ x.getLsbD i = false := by
  rw [BitVec.and_twoPow]
  cases h : x.getLsbD i with
  | false => simp
  | true =>
    have hne : BitVec.twoPow w i ≠ 0 := by
      intro h0
      have hbit := congrArg (fun y => y.getLsbD i) h0
      simp [hi] at hbit
    simpa using hne

/-- A mask of the low bits keeps them. -/
theorem and_setWidth_allOnes (x : BitVec w) :
    x &&& (BitVec.allOnes v).setWidth w = (x.setWidth v).setWidth w := by
  ext j hj
  rw [BitVec.getElem_and, BitVec.getElem_setWidth, BitVec.getElem_setWidth, BitVec.getLsbD_setWidth,
    BitVec.getLsbD_allOnes, BitVec.getLsbD_eq_getElem hj, Bool.and_comm]

/-- The mask of the bits below a power of two. -/
theorem twoPow_sub_one {p : ℕ} (hp : p < w) : BitVec.twoPow w p - 1 = (BitVec.allOnes p).setWidth w := by
  apply BitVec.eq_of_toNat_eq
  have hpow : 2 ^ p < 2 ^ w := Nat.pow_lt_pow_right (by omega) hp
  have hpos : 0 < 2 ^ p := Nat.pow_pos (by omega)
  have hone : (1 : BitVec w).toNat = 1 := Nat.mod_eq_of_lt (Nat.one_lt_two_pow (by omega))
  rw [BitVec.toNat_setWidth, BitVec.toNat_allOnes, BitVec.toNat_sub, BitVec.toNat_twoPow, hone,
    Nat.mod_eq_of_lt hpow, Nat.mod_eq_of_lt (by omega : 2 ^ p - 1 < 2 ^ w)]
  have hsum : 2 ^ w - 1 + 2 ^ p = 2 ^ p - 1 + 2 ^ w := by omega
  rw [hsum, Nat.add_mod_right, Nat.mod_eq_of_lt (by omega)]

/-- What is left of a word when all bits but those of a mask are taken off. -/
theorem sub_and_not (x m : BitVec w) : x - (x &&& ~~~m) = x &&& m := by
  have hsum : (x &&& m) + (x &&& ~~~m) = x := by
    rw [BitVec.add_eq_or_of_and_eq_zero]
    · ext i hi
      simp only [BitVec.getElem_or, BitVec.getElem_and, BitVec.getElem_not]
      cases x[i] <;> cases m[i] <;> rfl
    · ext i hi
      simp only [BitVec.getElem_and, BitVec.getElem_not, BitVec.getElem_zero]
      cases x[i] <;> cases m[i] <;> rfl
  calc x - (x &&& ~~~m) = (x &&& m) + (x &&& ~~~m) - (x &&& ~~~m) := by rw [hsum]
    _ = x &&& m := BitVec.add_sub_cancel _ _

/-- The offset of an address in its page. -/
theorem toNat_sub_page (x : BitVec w) {p : ℕ} (hp : p < w) :
    (x - (x &&& ~~~(BitVec.twoPow w p - 1))).toNat = x.toNat % 2 ^ p := by
  have hpow : 2 ^ p < 2 ^ w := Nat.pow_lt_pow_right (by omega) hp
  have hlt : x.toNat % 2 ^ p < 2 ^ p := Nat.mod_lt _ (Nat.pow_pos (by omega))
  rw [sub_and_not, twoPow_sub_one hp, and_setWidth_allOnes, BitVec.toNat_setWidth, BitVec.toNat_setWidth,
    Nat.mod_eq_of_lt (by omega)]

end DcPerf.Library
