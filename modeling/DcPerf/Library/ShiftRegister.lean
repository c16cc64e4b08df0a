import DcPerf.Library.BitPoly
import Mathlib.Algebra.Order.Group.Unbundled.Int

/-!
# Reflected shift registers

A register of `w` bits holds a remainder modulo a generator of degree `w`, the coefficient of the
highest power in its lowest bit. One step down multiplies the remainder by `X`. A message is fed in
chunks of `k` bits, each added to the low end of the register before `k` steps.
-/

namespace DcPerf.Library

open Polynomial

variable {w k : ℕ} {g r s : BitVec w}

/-- The bits of a word, lowest first. -/
def lsbFirst (r : BitVec w) : List Bool := List.ofFn fun i : Fin w => r[i]

/-- The polynomial that a register holds. -/
noncomputable def regPoly (r : BitVec w) : (ZMod 2)[X] := bitPoly (lsbFirst r)

/-- The word that holds a polynomial of degree below `w`. -/
noncomputable def polyWord (w : ℕ) (p : (ZMod 2)[X]) : BitVec w :=
  (BitVec.ofBoolListLE (List.ofFn fun i : Fin w => decide (p.coeff (w - 1 - i) = 1))).setWidth w

/-- The generator whose lower coefficients are the word `g`. -/
noncomputable def genPoly (g : BitVec w) : (ZMod 2)[X] := X ^ w + regPoly g

/-- One step down; the generator is taken away when a one falls out. -/
def shiftStep (g r : BitVec w) : BitVec w :=
  if r.getLsbD 0 then (r >>> 1) ^^^ g else r >>> 1

/-- Feed one chunk. -/
def feedChunk (g r : BitVec w) (c : BitVec k) : BitVec w :=
  (shiftStep g)^[k] (r ^^^ c.setWidth w)

/-- Feed the chunks of a message in turn. -/
def feedAll (g r : BitVec w) (cs : List (BitVec k)) : BitVec w := cs.foldl (feedChunk g) r

/-- The bits of a message in the order in which they are sent. -/
def sentBits (cs : List (BitVec k)) : List Bool := cs.flatMap lsbFirst

/-! ## Words and their bits -/

@[simp] theorem length_lsbFirst : (lsbFirst r).length = w := by simp [lsbFirst]

theorem getElem_lsbFirst {i : ℕ} (h : i < (lsbFirst r).length) :
    (lsbFirst r)[i] = r.getLsbD i := by
  have hi : i < w := by simpa using h
  simp [lsbFirst, BitVec.getLsbD_eq_getElem hi]

theorem lsbFirst_injective (h : lsbFirst r = lsbFirst s) : r = s := by
  apply BitVec.eq_of_getLsbD_eq
  intro i hi
  have hr := getElem_lsbFirst (r := r) (i := i) (by simpa using hi)
  have hs := getElem_lsbFirst (r := s) (i := i) (by simpa using hi)
  rw [← hr, ← hs]
  simp only [h]

theorem lsbFirst_xor : lsbFirst (r ^^^ s) = List.zipWith xor (lsbFirst r) (lsbFirst s) := by
  apply List.ext_getElem
  · simp
  · intro i h₁ h₂
    simp [getElem_lsbFirst]

theorem lsbFirst_setWidth (h : k ≤ w) (c : BitVec k) :
    lsbFirst (c.setWidth w) = lsbFirst c ++ List.replicate (w - k) false := by
  apply List.ext_getElem
  · simp only [length_lsbFirst, List.length_append, List.length_replicate]
    omega
  · intro i h₁ h₂
    rw [getElem_lsbFirst, BitVec.getLsbD_setWidth, List.getElem_append]
    rw [length_lsbFirst] at h₁
    split
    · simp [getElem_lsbFirst, h₁]
    · rename_i hi
      rw [length_lsbFirst] at hi
      simp [BitVec.getLsbD_of_ge c i (by omega)]

theorem lsbFirst_extract {a n : ℕ} (h : a + n ≤ w) :
    lsbFirst (r.extractLsb' a n) = ((lsbFirst r).drop a).take n := by
  apply List.ext_getElem
  · simp only [length_lsbFirst, List.length_take, List.length_drop]
    omega
  · intro i h₁ h₂
    rw [length_lsbFirst] at h₁
    rw [getElem_lsbFirst, List.getElem_take, List.getElem_drop, getElem_lsbFirst,
      BitVec.getLsbD_extractLsb']
    simp [h₁]

/-- A step down drops the first bit. -/
theorem lsbFirst_shiftRight (r : BitVec (k + 1)) :
    lsbFirst (r >>> 1) = (lsbFirst r).tail ++ [false] := by
  apply List.ext_getElem
  · simp
  · intro i h₁ h₂
    rw [length_lsbFirst] at h₁
    rw [getElem_lsbFirst, BitVec.getLsbD_ushiftRight, List.getElem_append]
    split
    · simp [getElem_lsbFirst, Nat.add_comm]
    · rename_i hi
      simp only [List.length_tail, length_lsbFirst] at hi
      simp [BitVec.getLsbD_of_ge r (1 + i) (by omega)]

theorem lsbFirst_eq_cons (r : BitVec (k + 1)) :
    lsbFirst r = r.getLsbD 0 :: (lsbFirst r).tail := by
  have h := getElem_lsbFirst (r := r) (i := 0) (by simp)
  cases hl : lsbFirst r with
  | nil => simp [lsbFirst] at hl
  | cons b bs =>
    simp only [hl, List.getElem_cons_zero] at h
    rw [h, List.tail_cons]

@[simp] theorem sentBits_nil : sentBits ([] : List (BitVec k)) = [] := rfl

@[simp] theorem sentBits_cons (c : BitVec k) (cs : List (BitVec k)) :
    sentBits (c :: cs) = lsbFirst c ++ sentBits cs := rfl

@[simp] theorem length_sentBits (cs : List (BitVec k)) :
    (sentBits cs).length = k * cs.length := by
  induction cs with
  | nil => rfl
  | cons c cs ih =>
    rw [sentBits_cons, List.length_append, length_lsbFirst, ih, List.length_cons]
    ring

/-- A message is determined by its bits. -/
theorem sentBits_injective {cs ds : List (BitVec k)} (hl : cs.length = ds.length)
    (h : sentBits cs = sentBits ds) : cs = ds := by
  induction cs generalizing ds with
  | nil => exact (List.length_eq_zero_iff.mp hl.symm).symm
  | cons c cs ih =>
    cases ds with
    | nil => simp at hl
    | cons d ds =>
      rw [sentBits_cons, sentBits_cons] at h
      obtain ⟨hc, hcs⟩ := List.append_inj h (by simp)
      rw [lsbFirst_injective hc, ih (by simpa using hl) hcs]

/-! ## Words as polynomials -/

theorem regPoly_xor : regPoly (r ^^^ s) = regPoly r + regPoly s := by
  unfold regPoly
  rw [lsbFirst_xor, bitPoly_xor (by simp)]

theorem degree_regPoly_lt : (regPoly r).degree < w := by
  have h := degree_bitPoly_lt (lsbFirst r)
  rwa [length_lsbFirst] at h

theorem regPoly_setWidth (h : k ≤ w) (c : BitVec k) :
    regPoly (c.setWidth w) = bitPoly (lsbFirst c) * X ^ (w - k) := by
  unfold regPoly
  rw [lsbFirst_setWidth h, bitPoly_append, bitPoly_replicate_false, List.length_replicate, add_zero]

/-- The word of a register's polynomial is the register. -/
@[simp] theorem polyWord_regPoly : polyWord w (regPoly r) = r := by
  apply BitVec.eq_of_getLsbD_eq
  intro i hi
  have hidx : (lsbFirst r).length - 1 - (w - 1 - i) = i := by
    rw [length_lsbFirst]
    omega
  have hc : (regPoly r).coeff (w - 1 - i) = bitCoeff (r.getLsbD i) := by
    unfold regPoly
    rw [coeff_bitPoly _ (by rw [length_lsbFirst]; omega)]
    simp only [List.get_eq_getElem, hidx, getElem_lsbFirst]
  unfold polyWord
  rw [BitVec.getLsbD_setWidth, BitVec.getLsbD_ofBoolListLE, List.getD_eq_getElem?_getD,
    List.getElem?_eq_getElem (by simpa using hi), List.getElem_ofFn]
  simp [hi, hc, bitCoeff_eq_one_iff]

theorem regPoly_injective (h : regPoly r = regPoly s) : r = s := by
  rw [← polyWord_regPoly (r := r), h, polyWord_regPoly]

theorem degree_genPoly : (genPoly g).degree = w := by
  unfold genPoly
  rw [degree_add_eq_left_of_degree_lt, degree_X_pow]
  rw [degree_X_pow]
  exact degree_regPoly_lt

theorem monic_genPoly : (genPoly g).Monic := by
  unfold genPoly
  exact monic_X_pow_add degree_regPoly_lt

/-! ## Remainders -/

/-- Congruence of the sums that a remainder runs through. -/
theorem mk_mul_add {P a b : (ZMod 2)[X]} (h : AdjoinRoot.mk P a = AdjoinRoot.mk P b)
    (q c : (ZMod 2)[X]) : AdjoinRoot.mk P (q * a + c) = AdjoinRoot.mk P (q * b + c) := by
  rw [AdjoinRoot.mk_eq_mk] at h ⊢
  have hd : q * a + c - (q * b + c) = q * (a - b) := by ring
  rw [hd]
  exact dvd_mul_of_dvd_right h q

/-- A step multiplies by `X`, modulo the generator. -/
theorem mk_shiftStep :
    AdjoinRoot.mk (genPoly g) (regPoly (shiftStep g r)) =
      AdjoinRoot.mk (genPoly g) (X * regPoly r) := by
  cases w with
  | zero =>
    have h1 : genPoly g = 1 := by simp [genPoly, regPoly, lsbFirst]
    rw [AdjoinRoot.mk_eq_mk, h1]
    exact one_dvd _
  | succ k =>
    have hr : regPoly r = C (bitCoeff (r.getLsbD 0)) * X ^ k + bitPoly (lsbFirst r).tail := by
      unfold regPoly
      rw [lsbFirst_eq_cons, bitPoly_cons]
      simp
    have hs : regPoly (r >>> 1) = bitPoly (lsbFirst r).tail * X := by
      unfold regPoly
      rw [lsbFirst_shiftRight, bitPoly_append]
      simp [bitPoly_cons]
    rw [AdjoinRoot.mk_eq_mk]
    unfold shiftStep
    by_cases hb : r.getLsbD 0 = true
    · -- The bit that falls out is the leading coefficient, which the generator takes away.
      rw [if_pos hb, regPoly_xor, hs, hr, hb]
      refine ⟨1, ?_⟩
      rw [CharTwo.sub_eq_add, bitCoeff_true, C_1, genPoly]
      have h2 : bitPoly (lsbFirst r).tail * X + bitPoly (lsbFirst r).tail * X = 0 :=
        CharTwo.add_self_eq_zero _
      linear_combination h2
    · have hb' : r.getLsbD 0 = false := by simpa using hb
      rw [if_neg hb, hs, hr, hb']
      refine ⟨0, ?_⟩
      rw [bitCoeff_false, C_0]
      ring

theorem mk_shiftStep_iterate (n : ℕ) :
    AdjoinRoot.mk (genPoly g) (regPoly ((shiftStep g)^[n] r)) =
      AdjoinRoot.mk (genPoly g) (X ^ n * regPoly r) := by
  induction n generalizing r with
  | zero => simp
  | succ n ih =>
    have hs := mk_mul_add (mk_shiftStep (g := g) (r := r)) (X ^ n) 0
    rw [add_zero, add_zero] at hs
    rw [Function.iterate_succ_apply, ih, hs]
    congr 1
    ring

theorem feedAll_cons (c : BitVec k) (cs : List (BitVec k)) :
    feedAll g r (c :: cs) = feedAll g (feedChunk g r c) cs := rfl

/-- A chunk moves the register up by its width and comes in at the low end. -/
theorem mk_feedChunk (h : k ≤ w) (c : BitVec k) :
    AdjoinRoot.mk (genPoly g) (regPoly (feedChunk g r c)) =
      AdjoinRoot.mk (genPoly g) (X ^ k * regPoly r + X ^ w * bitPoly (lsbFirst c)) := by
  unfold feedChunk
  rw [mk_shiftStep_iterate, regPoly_xor, regPoly_setWidth h]
  congr 1
  have hw : (X : (ZMod 2)[X]) ^ w = X ^ (w - k) * X ^ k := by
    rw [← pow_add, Nat.sub_add_cancel h]
  rw [hw]
  ring

/-- The register after a message of `n` bits holds `X ^ n` times its start plus `X ^ w` times the
message, modulo the generator. -/
theorem mk_feedAll (h : k ≤ w) (cs : List (BitVec k)) :
    AdjoinRoot.mk (genPoly g) (regPoly (feedAll g r cs)) =
      AdjoinRoot.mk (genPoly g)
        (X ^ (k * cs.length) * regPoly r + X ^ w * bitPoly (sentBits cs)) := by
  induction cs generalizing r with
  | nil => simp [feedAll]
  | cons c cs ih =>
    rw [feedAll_cons, ih, mk_mul_add (mk_feedChunk h c)]
    congr 1
    rw [sentBits_cons, bitPoly_append, length_sentBits, List.length_cons]
    ring

/-- The register after a message holds the remainder of a division by the generator. -/
theorem regPoly_feedAll (h : k ≤ w) (cs : List (BitVec k)) :
    regPoly (feedAll g r cs) =
      (X ^ (k * cs.length) * regPoly r + X ^ w * bitPoly (sentBits cs)) %ₘ genPoly g := by
  have hmk := AdjoinRoot.mk_eq_mk.mp (mk_feedAll (g := g) (r := r) h cs)
  rw [← modByMonic_eq_of_dvd_sub monic_genPoly hmk]
  refine ((modByMonic_eq_self_iff monic_genPoly).mpr ?_).symm
  rw [degree_genPoly]
  exact degree_regPoly_lt

/-! ## Checking a message -/

theorem feedAll_append (cs ds : List (BitVec k)) :
    feedAll g r (cs ++ ds) = feedAll g (feedAll g r cs) ds := List.foldl_append

/-- Feeding a register its own complement leaves the same remainder, whatever it held. -/
theorem feedAll_complement (h : k ≤ w) {cs ds : List (BitVec k)}
    (hr : sentBits cs = lsbFirst (~~~ r)) (hs : sentBits ds = lsbFirst (~~~ s)) :
    feedAll g r cs = feedAll g s ds := by
  have key : ∀ (t : BitVec w) (es : List (BitVec k)), sentBits es = lsbFirst (~~~ t) →
      regPoly (feedAll g t es) = (X ^ w * regPoly (BitVec.allOnes w)) %ₘ genPoly g := by
    intro t es he
    have hlen : k * es.length = w := by
      rw [← length_sentBits, he, length_lsbFirst]
    have hnot : bitPoly (sentBits es) = regPoly t + regPoly (BitVec.allOnes w) := by
      rw [he, ← regPoly_xor, BitVec.xor_allOnes]
      rfl
    rw [regPoly_feedAll h, hlen, hnot]
    congr 1
    have h2 : X ^ w * regPoly t + X ^ w * regPoly t = 0 := CharTwo.add_self_eq_zero _
    linear_combination h2
  apply regPoly_injective
  rw [key r cs hr, key s ds hs]

/-- Two messages of one length leave the same register exactly when the generator divides the
polynomial of the bits in which they differ. -/
theorem feedAll_eq_iff (h : k ≤ w) (hg : (genPoly g).coeff 0 = 1) {cs ds : List (BitVec k)}
    (hl : cs.length = ds.length) :
    feedAll g r cs = feedAll g r ds ↔
      genPoly g ∣ bitPoly (List.zipWith xor (sentBits cs) (sentBits ds)) := by
  have hsum : X ^ (k * cs.length) * regPoly r + X ^ w * bitPoly (sentBits cs) -
      (X ^ (k * ds.length) * regPoly r + X ^ w * bitPoly (sentBits ds)) =
      bitPoly (List.zipWith xor (sentBits cs) (sentBits ds)) * X ^ w := by
    rw [bitPoly_xor (by rw [length_sentBits, length_sentBits, hl]), hl,
      ← CharTwo.sub_eq_add (bitPoly (sentBits cs))]
    ring
  constructor
  · intro he
    have hmk := mk_feedAll (g := g) (r := r) h cs
    rw [he, mk_feedAll h ds, AdjoinRoot.mk_eq_mk, dvd_sub_comm, hsum] at hmk
    exact dvd_of_dvd_mul_X_pow hg hmk
  · intro hd
    apply regPoly_injective
    rw [regPoly_feedAll h, regPoly_feedAll h]
    apply modByMonic_eq_of_dvd_sub monic_genPoly
    rw [hsum]
    exact dvd_mul_of_dvd_left hd _

/-- Messages that differ, but only within a window no wider than the register, leave different
registers. -/
theorem feedAll_ne_of_burst (h : k ≤ w) (hg : (genPoly g).coeff 0 = 1) {cs ds : List (BitVec k)}
    (hl : cs.length = ds.length) (hne : cs ≠ ds) {t : ℕ}
    (hw : ∀ i, (sentBits cs)[i]? ≠ (sentBits ds)[i]? → t ≤ i ∧ i < t + w) :
    feedAll g r cs ≠ feedAll g r ds := by
  set bits := List.zipWith xor (sentBits cs) (sentBits ds) with hbits
  have hlen : (sentBits cs).length = (sentBits ds).length := by
    rw [length_sentBits, length_sentBits, hl]
  have hone : true ∈ bits := by
    by_contra hno
    apply hne
    apply sentBits_injective hl
    apply List.ext_getElem hlen
    intro i h₁ h₂
    by_contra hdiff
    apply hno
    rw [hbits, List.mem_iff_getElem]
    refine ⟨i, by simp only [List.length_zipWith]; omega, ?_⟩
    rw [List.getElem_zipWith]
    simpa using hdiff
  have hwin : ∀ i (hi : i < bits.length), bits[i] = true → t ≤ i ∧ i < t + w := by
    intro i hi hb
    have hi' : i < (sentBits cs).length ∧ i < (sentBits ds).length := by
      rw [hbits, List.length_zipWith] at hi
      omega
    apply hw
    simp only [hbits, List.getElem_zipWith] at hb
    rw [List.getElem?_eq_getElem hi'.1, List.getElem?_eq_getElem hi'.2]
    simpa using hb
  obtain ⟨burst, n, hn, ht, hp⟩ := exists_burst hone hwin
  rw [Ne, feedAll_eq_iff h hg hl, ← hbits, hp]
  apply not_dvd_burst hg _ ht
  rw [degree_genPoly]
  exact_mod_cast hn

end DcPerf.Library
