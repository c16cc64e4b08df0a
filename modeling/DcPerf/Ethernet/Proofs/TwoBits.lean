import DcPerf.Ethernet.Proofs.Fcs
import DcPerf.Library.BitOrder
import Mathlib.Tactic.NormNum.Prime

/-!
# Errors that the checksum misses

A frame with errors is accepted exactly when the generator of IEEE 802.3 divides the polynomial of the
errors. The order of `X` modulo the generator is `2 ^ 32 - 1`, so two errors are missed only if that
many bits, or a multiple of it, lie between them.
-/

namespace DcPerf.Ethernet

open DcPerf.Library Polynomial

variable {data frame : List (BitVec 8)} {i j : ℕ}

/-- The bits in which two messages differ. -/
def errorBits (sent received : List (BitVec 8)) : List Bool :=
  List.zipWith xor (sentBits sent) (sentBits received)

/-- A frame is accepted exactly when it leaves the register that the sent frame leaves. -/
theorem accepted_iff_feedAll (data frame : List (BitVec 8)) :
    calculateFcs frame = residue ↔
      feedAll 0xEDB88320#32 0xFFFFFFFF#32 frame = feedAll 0xEDB88320#32 0xFFFFFFFF#32 (withFcs data) := by
  rw [feedAll_withFcs, calculateFcs_eq]
  constructor
  · intro h
    rw [← h, BitVec.not_not]
  · intro h
    rw [h, BitVec.not_not]

/-- Errors are missed exactly when the generator divides their polynomial. -/
theorem calculateFcs_eq_residue_iff (data frame : List (BitVec 8))
    (hlen : frame.length = (withFcs data).length) :
    calculateFcs frame = residue ↔ ieeePoly ∣ bitPoly (errorBits frame (withFcs data)) := by
  rw [accepted_iff_feedAll data, feedAll_eq_iff (by decide) genPoly_coeff_zero hlen, genPoly_eq]
  rfl

/-- Two letters are sent. The bits of the generator flipped from the first bit on are missed; with one
more bit flipped they are not. -/
theorem calculateFcs_eq_residue_iff_missed :
    ([0x00#8, 0x44#8, 0x76#8, 0x97#8, 0x68#8, 0x30#8] ≠ withFcs [0x41#8, 0x42#8] ∧
      ieeePoly ∣ bitPoly (errorBits [0x00#8, 0x44#8, 0x76#8, 0x97#8, 0x68#8, 0x30#8]
        (withFcs [0x41#8, 0x42#8]))) ∧
    ¬ieeePoly ∣ bitPoly (errorBits [0x00#8, 0x45#8, 0x76#8, 0x97#8, 0x68#8, 0x30#8]
      (withFcs [0x41#8, 0x42#8])) := by
  refine ⟨⟨by decide +kernel, ?_⟩, ?_⟩
  · rw [← calculateFcs_eq_residue_iff [0x41#8, 0x42#8] _ (by decide)]
    decide +kernel
  · rw [← calculateFcs_eq_residue_iff [0x41#8, 0x42#8] _ (by decide)]
    decide +kernel

/-! ## The order of `X` -/

/-- The binary digits of a byte. -/
def digits (byte : BitVec 8) : List Bool := (lsbFirst byte).reverse

/-- The register for 1. -/
def oneWord : BitVec 32 := 0x80000000#32

theorem regPoly_oneWord : regPoly oneWord = 1 := by
  have hbits : lsbFirst oneWord = List.replicate 31 false ++ [true] := by decide
  unfold regPoly
  rw [hbits, bitPoly_append, bitPoly_replicate_false]
  simp [bitPoly_cons]

/-- The power of `X` with the exponent `2 ^ 32 - 1`, byte by byte. -/
def fullChain : Chain 32 :=
  [(digits 0xFF#8, 0x01B5FD1D#32), (digits 0xFF#8, 0xDC7B5C5F#32), (digits 0xFF#8, 0xAEC31A2F#32),
    (digits 0xFF#8, oneWord)]

/-- The powers with the exponents that lack one prime factor of `2 ^ 32 - 1`. -/
def partialChain : ℕ → Chain 32
  | 3 => [(digits 0x55#8, 0xF44F2413#32), (digits 0x55#8, 0xEBA0264A#32), (digits 0x55#8, 0x4281464D#32),
      (digits 0x55#8, 0xC736EB52#32)]
  | 5 => [(digits 0x33#8, 0x1C26A370#32), (digits 0x33#8, 0xC1A99CF7#32), (digits 0x33#8, 0xC6A740B1#32),
      (digits 0x33#8, 0x84011278#32)]
  | 17 => [(digits 0x0F#8, 0x00010000#32), (digits 0x0F#8, 0xE01F9DCF#32), (digits 0x0F#8, 0xAF69585A#32),
      (digits 0x0F#8, 0x8C283CA0#32)]
  | 257 => [(digits 0x00#8, oneWord), (digits 0xFF#8, 0x01B5FD1D#32), (digits 0x00#8, 0x3EF534D3#32),
      (digits 0xFF#8, 0x351C22C9#32)]
  | _ => [(digits 0x00#8, oneWord), (digits 0x00#8, oneWord), (digits 0xFF#8, 0x01B5FD1D#32),
      (digits 0xFF#8, 0xDC7B5C5F#32)]

theorem fullChain_holds : fullChain.Holds 0xEDB88320#32 oneWord := by
  decide +kernel

theorem partialChain_holds {q : ℕ} (hq : q ∈ [3, 5, 17, 257, 65537]) :
    (partialChain q).Holds 0xEDB88320#32 oneWord ∧
      moreDigits 0 (partialChain q).digits = (2 ^ 32 - 1) / q ∧ (partialChain q).result oneWord ≠ oneWord := by
  have hall : ∀ q ∈ [3, 5, 17, 257, 65537], (partialChain q).Holds 0xEDB88320#32 oneWord ∧
      moreDigits 0 (partialChain q).digits = (2 ^ 32 - 1) / q ∧
        (partialChain q).result oneWord ≠ oneWord := by decide +kernel
  exact hall q hq

/-- The prime factors of `2 ^ 32 - 1`. -/
theorem prime_dvd {q : ℕ} (hq : q.Prime) (hd : q ∣ 2 ^ 32 - 1) : q ∈ [3, 5, 17, 257, 65537] := by
  have hfactors : 2 ^ 32 - 1 = 3 * (5 * (17 * (257 * 65537))) := by decide
  have hsplit {p : ℕ} (hp : p.Prime) {m : ℕ} (h : q ∣ p * m) : q = p ∨ q ∣ m := by
    rcases hq.dvd_mul.mp h with h | h
    · exact Or.inl ((Nat.prime_dvd_prime_iff_eq hq hp).mp h)
    · exact Or.inr h
  rw [hfactors] at hd
  rcases hsplit (by norm_num) hd with rfl | hd
  · simp
  · rcases hsplit (by norm_num) hd with rfl | hd
    · simp
    · rcases hsplit (by norm_num) hd with rfl | hd
      · simp
      · rcases hq.dvd_mul.mp hd with hd | hd
        · simp [(Nat.prime_dvd_prime_iff_eq hq (by norm_num)).mp hd]
        · simp [(Nat.prime_dvd_prime_iff_eq hq (by norm_num)).mp hd]

/-- The generator of IEEE 802.3 is primitive. -/
theorem orderOf_root : orderOf (AdjoinRoot.root (genPoly 0xEDB88320#32)) = 2 ^ 32 - 1 := by
  have hdigits : moreDigits 0 fullChain.digits = 2 ^ 32 - 1 := by decide +kernel
  refine orderOf_eq_of_pow_and_pow_div_prime (by norm_num) ?_ fun q hq hd => ?_
  · exact (Chain.root_pow_eq_one_iff regPoly_oneWord fullChain_holds hdigits).mpr rfl
  · obtain ⟨hholds, hn, hne⟩ := partialChain_holds (prime_dvd hq hd)
    rwa [Ne, Chain.root_pow_eq_one_iff regPoly_oneWord hholds hn]

/-! ## Two errors -/

/-- Two errors are missed exactly when a multiple of `2 ^ 32 - 1` is the distance between them. -/
theorem calculateFcs_eq_residue_of_pair_iff (data frame : List (BitVec 8)) (i j : ℕ)
    (hlen : frame.length = (withFcs data).length) (hij : i < j) (hj : j < 8 * frame.length)
    (herrors : ∀ k, (sentBits frame)[k]? ≠ (sentBits (withFcs data))[k]? ↔ k = i ∨ k = j) :
    calculateFcs frame = residue ↔ 2 ^ 32 - 1 ∣ j - i := by
  have hbits : (errorBits frame (withFcs data)).length = 8 * frame.length := by
    simp [errorBits, hlen]
  have hpair (k : ℕ) (hk : k < (errorBits frame (withFcs data)).length) :
      (errorBits frame (withFcs data))[k] = true ↔ k = i ∨ k = j := by
    have hk' : k < (sentBits frame).length ∧ k < (sentBits (withFcs data)).length := by
      rw [length_sentBits, length_sentBits]
      omega
    rw [← herrors k, List.getElem?_eq_getElem hk'.1, List.getElem?_eq_getElem hk'.2]
    simp [errorBits]
  rw [accepted_iff_feedAll data, feedAll_eq_iff (by decide) genPoly_coeff_zero hlen,
    ← errorBits, dvd_bitPoly_pair_iff genPoly_coeff_zero hij (by omega) hpair, orderOf_root]

/-- One letter is sent; its first bit and the last bit of the checksum are flipped. -/
theorem calculateFcs_ne_of_ends :
    calculateFcs [0x40#8, 0x8B#8, 0x9E#8, 0xD9#8, 0x53#8] ≠ residue := by
  have hpair := calculateFcs_eq_residue_of_pair_iff [0x41#8] [0x40#8, 0x8B#8, 0x9E#8, 0xD9#8, 0x53#8]
    0 39 (by decide) (by decide) (by decide)
  rw [Ne, hpair ?_]
  · decide
  · intro k
    rcases Nat.lt_or_ge k 40 with hk | hk
    · have hall : ∀ k < 40, (sentBits [0x40#8, 0x8B#8, 0x9E#8, 0xD9#8, 0x53#8])[k]? ≠
          (sentBits (withFcs [0x41#8]))[k]? ↔ k = 0 ∨ k = 39 := by decide +kernel
      exact hall k hk
    · rw [List.getElem?_eq_none (by simpa using hk), List.getElem?_eq_none]
      · simp only [ne_eq, not_true_eq_false, false_iff]
        omega
      · simpa [withFcs, wordBytes] using hk

end DcPerf.Ethernet
