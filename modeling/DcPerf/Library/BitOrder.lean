import DcPerf.Library.ShiftRegister
import Mathlib.GroupTheory.OrderOfElement

/-!
# Powers of `X` modulo a generator

The registers of a generator multiply like their polynomials, so powers of `X` modulo the generator can
be computed by squaring. This finds the order of `X`, which says for what distances a generator divides
the polynomial of two bits.
-/

namespace DcPerf.Library

open Polynomial

variable {w : ℕ} {g r s : BitVec w} {bits : List Bool}

/-- The product of two registers, modulo the generator. -/
def mulWord (g a b : BitVec w) : BitVec w :=
  (lsbFirst b).foldl (fun acc bit => shiftStep g acc ^^^ if bit then a else 0#w) 0#w

/-- A power of `X` after more binary digits of its exponent. -/
def powWord (g r : BitVec w) (bits : List Bool) : BitVec w :=
  bits.foldl (fun acc bit => if bit then shiftStep g (mulWord g acc acc) else mulWord g acc acc) r

/-- An exponent after more binary digits. -/
def moreDigits (e : ℕ) (bits : List Bool) : ℕ := bits.foldl (fun e bit => 2 * e + bit.toNat) e

/-- Steps of a computation of a power: binary digits, and the register after them. -/
abbrev Chain (w : ℕ) := List (List Bool × BitVec w)

def Chain.Holds (g : BitVec w) : BitVec w → Chain w → Prop
  | _, [] => True
  | r, (bits, s) :: chain => powWord g r bits = s ∧ Chain.Holds g s chain

instance Chain.decidableHolds (g : BitVec w) :
    (r : BitVec w) → (chain : Chain w) → Decidable (chain.Holds g r)
  | _, [] => inferInstanceAs (Decidable True)
  | r, (bits, s) :: chain =>
    have := Chain.decidableHolds g s chain
    inferInstanceAs (Decidable (powWord g r bits = s ∧ Chain.Holds g s chain))

def Chain.digits (chain : Chain w) : List Bool := chain.flatMap Prod.fst

/-- The register at the end. -/
def Chain.result (r : BitVec w) : Chain w → BitVec w
  | [] => r
  | (_, s) :: chain => Chain.result s chain

/-! ## Registers as residues -/

/-- What a register stands for. -/
noncomputable def residueOf (g r : BitVec w) : AdjoinRoot (genPoly g) :=
  AdjoinRoot.mk (genPoly g) (regPoly r)

theorem residueOf_shiftStep : residueOf g (shiftStep g r) = AdjoinRoot.root (genPoly g) * residueOf g r := by
  rw [residueOf, mk_shiftStep, map_mul, AdjoinRoot.mk_X]
  rfl

theorem residueOf_xor : residueOf g (r ^^^ s) = residueOf g r + residueOf g s := by
  rw [residueOf, regPoly_xor, map_add]
  rfl

theorem residueOf_zero : residueOf g 0#w = 0 := by
  have hzero : residueOf g (0#w ^^^ 0#w) = residueOf g 0#w + residueOf g 0#w := residueOf_xor
  rw [BitVec.xor_self] at hzero
  exact left_eq_add.mp hzero

/-- Registers that stand for the same are the same. -/
theorem residueOf_injective (h : residueOf g r = residueOf g s) : r = s := by
  have hself (t : BitVec w) : regPoly t %ₘ genPoly g = regPoly t := by
    rw [modByMonic_eq_self_iff monic_genPoly, degree_genPoly]
    exact degree_regPoly_lt
  have hrem := modByMonic_eq_of_dvd_sub monic_genPoly (AdjoinRoot.mk_eq_mk.mp h)
  rw [hself, hself] at hrem
  exact regPoly_injective hrem

/-- The product of registers stands for the product. -/
theorem residueOf_mulWord (a b : BitVec w) :
    residueOf g (mulWord g a b) = residueOf g a * residueOf g b := by
  have hloop (bits : List Bool) (acc : BitVec w) :
      residueOf g (bits.foldl (fun acc bit => shiftStep g acc ^^^ if bit then a else 0#w) acc) =
        AdjoinRoot.root (genPoly g) ^ bits.length * residueOf g acc +
          residueOf g a * AdjoinRoot.mk (genPoly g) (bitPoly bits) := by
    induction bits generalizing acc with
    | nil => simp
    | cons bit bits ih =>
      have hbit : residueOf g (if bit then a else 0#w) =
          residueOf g a * AdjoinRoot.mk (genPoly g) (C (bitCoeff bit)) := by
        cases bit with
        | false => simp [residueOf_zero]
        | true => simp
      rw [List.foldl_cons, ih, residueOf_xor, residueOf_shiftStep, hbit, bitPoly_cons, map_add, map_mul,
        map_pow, AdjoinRoot.mk_X, List.length_cons]
      ring
  rw [mulWord, hloop, residueOf_zero, mul_zero, zero_add]
  rfl

/-! ## Powers -/

/-- If a register holds a power of `X`, the computation goes on to the power with more digits. -/
theorem residueOf_powWord {e : ℕ} (h : residueOf g r = AdjoinRoot.root (genPoly g) ^ e)
    (bits : List Bool) :
    residueOf g (powWord g r bits) = AdjoinRoot.root (genPoly g) ^ moreDigits e bits := by
  induction bits generalizing r e with
  | nil => exact h
  | cons bit bits ih =>
    refine ih ?_
    have hsquare : residueOf g (mulWord g r r) = AdjoinRoot.root (genPoly g) ^ (2 * e) := by
      rw [residueOf_mulWord, h, ← pow_add, two_mul]
    cases bit with
    | false => exact hsquare
    | true =>
      show residueOf g (shiftStep g (mulWord g r r)) = _
      rw [residueOf_shiftStep, hsquare, ← pow_succ']
      rfl

theorem Chain.residueOf_result {chain : Chain w} {e : ℕ} (hchain : chain.Holds g r)
    (h : residueOf g r = AdjoinRoot.root (genPoly g) ^ e) :
    residueOf g (chain.result r) = AdjoinRoot.root (genPoly g) ^ moreDigits e chain.digits := by
  induction chain generalizing r e with
  | nil => exact h
  | cons step chain ih =>
    obtain ⟨bits, s⟩ := step
    obtain ⟨hs, hrest⟩ := hchain
    have hnext := residueOf_powWord h bits
    rw [hs] at hnext
    rw [Chain.digits, List.flatMap_cons, moreDigits, List.foldl_append]
    exact ih hrest hnext

/-- Whether a power of `X` is 1, from a computation that starts at a register for 1. -/
theorem Chain.root_pow_eq_one_iff {chain : Chain w} (hr : regPoly r = 1) (hchain : chain.Holds g r)
    {n : ℕ} (hn : moreDigits 0 chain.digits = n) :
    AdjoinRoot.root (genPoly g) ^ n = 1 ↔ chain.result r = r := by
  have hone : residueOf g r = AdjoinRoot.root (genPoly g) ^ 0 := by
    rw [residueOf, hr, map_one, pow_zero]
  have hresult := Chain.residueOf_result hchain hone
  rw [hn] at hresult
  rw [← hresult, ← pow_zero (AdjoinRoot.root (genPoly g)), ← hone]
  exact ⟨residueOf_injective, fun h => by rw [h]⟩

/-! ## Two bits -/

/-- The polynomial of two bits. -/
theorem bitPoly_pair {i j : ℕ} (hij : i < j) (hj : j < bits.length)
    (h : ∀ k (hk : k < bits.length), bits[k] = true ↔ k = i ∨ k = j) :
    bitPoly bits = (X ^ (j - i) + 1) * X ^ (bits.length - 1 - j) := by
  have hsum : ((X : (ZMod 2)[X]) ^ (j - i) + 1) * X ^ (bits.length - 1 - j) =
      X ^ (bits.length - 1 - i) + X ^ (bits.length - 1 - j) := by
    have hexp : bits.length - 1 - i = j - i + (bits.length - 1 - j) := by omega
    rw [hexp, pow_add]
    ring
  rw [hsum]
  ext k
  rw [coeff_add, coeff_X_pow, coeff_X_pow]
  rcases Nat.lt_or_ge k bits.length with hk | hk
  · have hbit := h (bits.length - 1 - k) (by omega)
    rw [coeff_bitPoly bits hk]
    by_cases hki : k = bits.length - 1 - i
    · have hon : bits[bits.length - 1 - k] = true := hbit.mpr (Or.inl (by omega))
      rw [List.get_eq_getElem, hon, if_pos hki, if_neg (by omega)]
      rfl
    · by_cases hkj : k = bits.length - 1 - j
      · have hon : bits[bits.length - 1 - k] = true := hbit.mpr (Or.inr (by omega))
        rw [List.get_eq_getElem, hon, if_neg hki, if_pos hkj]
        rfl
      · have hoff : bits[bits.length - 1 - k] = false := by
          cases hb : bits[bits.length - 1 - k] with
          | false => rfl
          | true =>
            rcases hbit.mp hb with hi | hj'
            · omega
            · omega
        rw [List.get_eq_getElem, hoff, if_neg hki, if_neg hkj]
        rfl
  · rw [coeff_bitPoly_of_le hk, if_neg (by omega), if_neg (by omega), add_zero]

/-- A generator divides the polynomial of two bits exactly when the order of `X` divides their
distance. -/
theorem dvd_bitPoly_pair_iff (hg : (genPoly g).coeff 0 = 1) {i j : ℕ} (hij : i < j)
    (hj : j < bits.length) (h : ∀ k (hk : k < bits.length), bits[k] = true ↔ k = i ∨ k = j) :
    genPoly g ∣ bitPoly bits ↔ orderOf (AdjoinRoot.root (genPoly g)) ∣ j - i := by
  have hroot : genPoly g ∣ X ^ (j - i) + 1 ↔ AdjoinRoot.root (genPoly g) ^ (j - i) = 1 := by
    rw [← CharTwo.sub_eq_add, ← AdjoinRoot.mk_eq_mk, map_pow, map_one, AdjoinRoot.mk_X]
  rw [orderOf_dvd_iff_pow_eq_one, ← hroot, bitPoly_pair hij hj h]
  exact ⟨dvd_of_dvd_mul_X_pow hg, fun hd => dvd_mul_of_dvd_left hd _⟩

end DcPerf.Library
