import Mathlib.Algebra.CharP.Two
import Mathlib.Algebra.Polynomial.Monic
import Mathlib.Data.List.TakeDrop
import Mathlib.Algebra.Field.ZMod
import Mathlib.Data.ZMod.Basic
import Mathlib.RingTheory.AdjoinRoot

/-!
# Bit strings as polynomials over `GF(2)`

A string of `n` bits is read as a polynomial of degree below `n`, the first bit being the
coefficient of the highest power. Concatenation shifts, exclusive or adds, and a string that is not
all zeros outside a short window is a power of `X` times a polynomial of small degree.
-/

namespace DcPerf.Library

open Polynomial

/-- The coefficient that a bit stands for. -/
def bitCoeff (b : Bool) : ZMod 2 := if b then 1 else 0

/-- The polynomial whose coefficients are the bits, highest power first. -/
noncomputable def bitPoly : List Bool → (ZMod 2)[X]
  | [] => 0
  | b :: bits => C (bitCoeff b) * X ^ bits.length + bitPoly bits

variable {as bs bits : List Bool} {b : Bool} {P Q : (ZMod 2)[X]}

@[simp] theorem bitCoeff_false : bitCoeff false = 0 := rfl

@[simp] theorem bitCoeff_true : bitCoeff true = 1 := rfl

theorem bitCoeff_xor (a b : Bool) : bitCoeff (a ^^ b) = bitCoeff a + bitCoeff b := by
  cases a <;> cases b <;> decide

theorem bitCoeff_eq_one_iff : bitCoeff b = 1 ↔ b = true := by
  cases b <;> simp

@[simp] theorem bitPoly_nil : bitPoly [] = 0 := rfl

theorem bitPoly_cons :
    bitPoly (b :: bits) = C (bitCoeff b) * X ^ bits.length + bitPoly bits := rfl

/-- What comes first is shifted by the length of what follows. -/
theorem bitPoly_append (as bs : List Bool) :
    bitPoly (as ++ bs) = bitPoly as * X ^ bs.length + bitPoly bs := by
  induction as with
  | nil => simp
  | cons a as ih =>
    rw [List.cons_append, bitPoly_cons, bitPoly_cons, ih, List.length_append, pow_add]
    ring

@[simp] theorem bitPoly_replicate_false (n : ℕ) : bitPoly (List.replicate n false) = 0 := by
  induction n with
  | zero => rfl
  | succ n ih => simp [List.replicate_succ, bitPoly_cons, ih]

/-- Exclusive or, bit by bit, is addition. -/
theorem bitPoly_xor (h : as.length = bs.length) :
    bitPoly (List.zipWith xor as bs) = bitPoly as + bitPoly bs := by
  induction as generalizing bs with
  | nil =>
    obtain rfl := List.length_eq_zero_iff.mp h.symm
    simp
  | cons a as ih =>
    cases bs with
    | nil => simp at h
    | cons b bs =>
      have hl : as.length = bs.length := by simpa using h
      rw [List.zipWith_cons_cons, bitPoly_cons, bitPoly_cons, bitPoly_cons, ih hl, bitCoeff_xor,
        List.length_zipWith, ← hl, min_self, C_add]
      ring

theorem coeff_bitPoly_of_le {k : ℕ} (h : bits.length ≤ k) : (bitPoly bits).coeff k = 0 := by
  induction bits with
  | nil => simp
  | cons b bits ih =>
    have hlt : bits.length < k := h
    rw [bitPoly_cons, coeff_add, ih hlt.le, coeff_C_mul, coeff_X_pow, if_neg (by omega)]
    simp

/-- The bit at index `i` is the coefficient of the power that counts the bits after it. -/
theorem coeff_bitPoly (bits : List Bool) {k : ℕ} (h : k < bits.length) :
    (bitPoly bits).coeff k = bitCoeff (bits.get ⟨bits.length - 1 - k, by omega⟩) := by
  induction bits with
  | nil => simp at h
  | cons b bits ih =>
    rw [bitPoly_cons, coeff_add, coeff_C_mul, coeff_X_pow]
    by_cases hk : k = bits.length
    · subst hk
      rw [coeff_bitPoly_of_le le_rfl]
      simp
    · have hlt : k < bits.length := by
        simp only [List.length_cons] at h
        omega
      have hidx : (b :: bits).length - 1 - k = (bits.length - 1 - k) + 1 := by
        simp only [List.length_cons]
        omega
      rw [if_neg hk, ih hlt]
      simp only [List.get_eq_getElem, hidx, List.getElem_cons_succ, mul_zero, zero_add]

theorem degree_bitPoly_lt (bits : List Bool) : (bitPoly bits).degree < bits.length := by
  rw [degree_lt_iff_coeff_zero]
  intro m hm
  exact coeff_bitPoly_of_le hm

/-- Only the string of zeros is the zero polynomial. -/
theorem bitPoly_ne_zero (h : true ∈ bits) : bitPoly bits ≠ 0 := by
  intro h0
  obtain ⟨i, hi, hb⟩ := List.getElem_of_mem h
  have hc := coeff_bitPoly bits (show bits.length - 1 - i < bits.length by omega)
  have hidx : bits.length - 1 - (bits.length - 1 - i) = i := by omega
  simp [h0, hidx, hb] at hc

/-! ## Short bursts -/

/-- A string that is zero outside a window of `w` bits is a polynomial of degree below `w`, times
the power of `X` that moves the window to its place. -/
theorem exists_burst {s w : ℕ} (ht : true ∈ bits)
    (h : ∀ i (hi : i < bits.length), bits[i] = true → s ≤ i ∧ i < s + w) :
    ∃ (burst : List Bool) (k : ℕ), burst.length ≤ w ∧ true ∈ burst ∧
      bitPoly bits = bitPoly burst * X ^ k := by
  have hpre : bits.take s = List.replicate (bits.take s).length false := by
    rw [List.eq_replicate_iff]
    refine ⟨rfl, ?_⟩
    intro b hb
    obtain ⟨i, hi, rfl⟩ := List.getElem_of_mem hb
    rw [List.length_take] at hi
    by_contra hne
    have := (h i (by omega) (by simpa using hne)).1
    omega
  have hpost : bits.drop (s + w) = List.replicate (bits.drop (s + w)).length false := by
    rw [List.eq_replicate_iff]
    refine ⟨rfl, ?_⟩
    intro b hb
    obtain ⟨i, hi, rfl⟩ := List.getElem_of_mem hb
    rw [List.length_drop] at hi
    by_contra hne
    have := (h (s + w + i) (by omega) (by simpa using hne)).2
    omega
  have hsplit : bits = bits.take s ++ ((bits.drop s).take w ++ bits.drop (s + w)) := by
    rw [← List.drop_drop, List.take_append_drop, List.take_append_drop]
  refine ⟨(bits.drop s).take w, (bits.drop (s + w)).length, ?_, ?_, ?_⟩
  · exact List.length_take_le _ _
  · rw [hsplit, hpre, hpost, List.mem_append, List.mem_append] at ht
    simpa using ht
  · have hp := bitPoly_append (bits.take s) ((bits.drop s).take w ++ bits.drop (s + w))
    rw [← hsplit, bitPoly_append, hpre, hpost] at hp
    simpa using hp

/-! ## Divisibility -/

/-- A polynomial with constant term divides no multiple of a power of `X` that it does not divide
without that power. -/
theorem dvd_of_dvd_mul_X_pow {k : ℕ} (hP : P.coeff 0 = 1) (h : P ∣ Q * X ^ k) : P ∣ Q := by
  have hX : IsCoprime P (X : (ZMod 2)[X]) := by
    obtain ⟨R, hR⟩ := X_dvd_iff.mpr (show (P - 1).coeff 0 = 0 by simp [hP])
    refine ⟨1, -R, ?_⟩
    linear_combination hR
  exact (hX.pow_right).dvd_of_dvd_mul_right h

/-- A burst that is no longer than the degree of the generator is no multiple of it. -/
theorem not_dvd_burst {k : ℕ} (hP : P.coeff 0 = 1) (hd : (bits.length : WithBot ℕ) ≤ P.degree)
    (ht : true ∈ bits) : ¬ P ∣ bitPoly bits * X ^ k := by
  intro h
  have hdvd := dvd_of_dvd_mul_X_pow hP h
  have hle := degree_le_of_dvd hdvd (bitPoly_ne_zero ht)
  exact absurd ((degree_bitPoly_lt bits).trans_le hd) (not_lt.mpr hle)

end DcPerf.Library
