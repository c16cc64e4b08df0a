import DcPerf.Ethernet.Fcs

/-!
# Correctness of `calculate_fcs`

The nested loops are the reflected shift register of IEEE 802.3, so the checksum is the remainder
that the standard asks for. A frame with its checksum always leaves the same residue, and no burst
of up to 32 bits does.
-/

namespace DcPerf.Ethernet

open DcPerf.Library Polynomial

variable {crc : BitVec 32}

/-! ## The loops are a shift register -/

theorem shiftCrc_eq : shiftCrc crc = shiftStep 0xEDB88320#32 crc := by
  have hbit : (crc &&& 1#32 ≠ 0#32) ↔ crc.getLsbD 0 = true := by
    rw [BitVec.and_one_eq_setWidth_ofBool_getLsbD]
    cases crc.getLsbD 0 <;> decide
  unfold shiftCrc shiftStep
  simp only [hbit]

theorem foldl_shiftCrc (n : ℕ) :
    (List.range n).foldl (fun crc _ => shiftCrc crc) crc = (shiftStep 0xEDB88320#32)^[n] crc := by
  induction n with
  | zero => rfl
  | succ n ih =>
    rw [List.range_succ, List.foldl_append, ih, Function.iterate_succ_apply']
    exact shiftCrc_eq

theorem addByte_eq (byte : BitVec 8) : addByte crc byte = feedChunk 0xEDB88320#32 crc byte :=
  foldl_shiftCrc 8

/-- The checksum is the complement of what the register holds after the message. -/
theorem calculateFcs_eq (data : List (BitVec 8)) :
    calculateFcs data = ~~~ feedAll 0xEDB88320#32 0xFFFFFFFF#32 data := by
  have hbody : addByte = feedChunk 0xEDB88320#32 := by
    funext crc byte
    exact addByte_eq byte
  unfold calculateFcs feedAll
  rw [hbody]

/-! ## The polynomials behind the constants -/

theorem genPoly_eq : genPoly 0xEDB88320#32 = ieeePoly := by
  have hbits : lsbFirst 0xEDB88320#32 =
      [false, false, false, false, false, true, false, false, true, true, false, false, false,
       false, false, true, false, false, false, true, true, true, false, true, true, false, true,
       true, false, true, true, true] := by decide
  unfold genPoly regPoly ieeePoly
  rw [hbits]
  simp [bitPoly_cons]
  ring

theorem regPoly_ones : regPoly 0xFFFFFFFF#32 = onesPoly := by
  have hbits : lsbFirst 0xFFFFFFFF#32 = List.replicate 32 true := by decide
  unfold regPoly onesPoly
  rw [hbits]
  simp [bitPoly_cons, List.replicate, Finset.sum_range_succ]
  ring

theorem genPoly_coeff_zero : (genPoly 0xEDB88320#32).coeff 0 = 1 := by
  rw [genPoly_eq]
  simp [ieeePoly, coeff_X_pow, coeff_X, coeff_one]

/-- `calculate_fcs` computes the checksum of IEEE 802.3: the complement of the remainder of
`X ^ n * L + X ^ 32 * M` modulo the generator, the highest coefficient in the lowest bit. -/
theorem calculateFcs_eq_remainder (data : List (BitVec 8)) :
    calculateFcs data =
      ~~~ polyWord 32 ((X ^ (8 * data.length) * onesPoly + X ^ 32 * messagePoly data) %ₘ
        ieeePoly) := by
  rw [calculateFcs_eq, ← genPoly_eq, ← regPoly_ones]
  unfold messagePoly
  rw [← regPoly_feedAll (by decide), polyWord_regPoly]

/-! ## Receiving a frame -/

/-- The bytes of a word, sent in order, are the bits of the word, lowest first. -/
theorem sentBits_wordBytes (word : BitVec 32) : sentBits (wordBytes word) = lsbFirst word := by
  have hlast : ((lsbFirst word).drop 24).take 8 = (lsbFirst word).drop 24 := by
    apply List.take_of_length_le
    simp
  unfold wordBytes
  simp only [sentBits_cons, sentBits_nil, List.append_nil]
  rw [lsbFirst_extract (by decide), lsbFirst_extract (by decide), lsbFirst_extract (by decide),
    lsbFirst_extract (by decide), hlast, List.drop_zero]
  have h₃ := List.take_append_drop 8 ((lsbFirst word).drop 16)
  have h₂ := List.take_append_drop 8 ((lsbFirst word).drop 8)
  rw [List.drop_drop] at h₃ h₂
  rw [h₃, h₂, List.take_append_drop]

/-- A frame with its checksum leaves the same register, whatever the data. -/
theorem feedAll_withFcs (data : List (BitVec 8)) :
    feedAll 0xEDB88320#32 0xFFFFFFFF#32 (withFcs data) = ~~~ residue := by
  have hconst : feedAll 0xEDB88320#32 0xFFFFFFFF#32 [0x00#8, 0x00#8, 0x00#8, 0x00#8] = ~~~ residue := by
    decide +kernel
  rw [← hconst]
  unfold withFcs
  rw [feedAll_append]
  -- Four zero bytes are the complement of the initial register.
  apply feedAll_complement (by decide)
  · rw [sentBits_wordBytes, calculateFcs_eq]
  · decide +kernel

/-- A receiver finds the residue in every frame that was sent with its checksum. -/
theorem calculateFcs_withFcs (data : List (BitVec 8)) :
    calculateFcs (withFcs data) = residue := by
  rw [calculateFcs_eq, feedAll_withFcs, BitVec.not_not]

/-- So does a receiver of the frame that `main` sends. -/
theorem calculateFcs_sentFrame : calculateFcs sentFrame = residue := by
  unfold sentFrame
  rw [calculateFcs_eq, feedAll_withFcs, BitVec.not_not]

/-- A frame that differs from the one sent, and only within 32 consecutive bits, does not have the
residue. -/
theorem calculateFcs_ne_of_burst (data frame : List (BitVec 8)) (start : ℕ)
    (hlen : frame.length = (withFcs data).length) (hne : frame ≠ withFcs data)
    (hburst : ∀ i, (sentBits frame)[i]? ≠ (sentBits (withFcs data))[i]? →
      start ≤ i ∧ i < start + 32) :
    calculateFcs frame ≠ residue := by
  have hdiff : feedAll 0xEDB88320#32 0xFFFFFFFF#32 frame ≠
      feedAll 0xEDB88320#32 0xFFFFFFFF#32 (withFcs data) :=
    feedAll_ne_of_burst (by decide) genPoly_coeff_zero hlen hne hburst
  intro heq
  apply hdiff
  rw [feedAll_withFcs, ← heq, calculateFcs_eq, BitVec.not_not]

/-- One letter is sent; the last bit of the letter and the last of the 31 bits after it are
flipped. -/
theorem calculateFcs_ne_straddling :
    calculateFcs [0xC1#8, 0x8B#8, 0x9E#8, 0xD9#8, 0x93#8] ≠ residue := by
  apply calculateFcs_ne_of_burst [0x41#8] _ 7 (by decide) (by decide +kernel)
  intro i hi
  have hin : i < 40 := by
    by_contra hge
    apply hi
    rw [List.getElem?_eq_none (by simpa using hge), List.getElem?_eq_none]
    simpa [withFcs, wordBytes] using hge
  have hall : ∀ i < 40, (sentBits [0xC1#8, 0x8B#8, 0x9E#8, 0xD9#8, 0x93#8])[i]? ≠
      (sentBits (withFcs [0x41#8]))[i]? → 7 ≤ i ∧ i < 7 + 32 := by decide +kernel
  exact hall i hin hi

/-- The check value of the standard, for the digits from 1 to 9. -/
example : calculateFcs [0x31#8, 0x32#8, 0x33#8, 0x34#8, 0x35#8, 0x36#8, 0x37#8, 0x38#8, 0x39#8] =
    0xCBF43926#32 := by decide +kernel

end DcPerf.Ethernet
