import DcPerf.PciDebug.Syntax
import DcPerf.PciDebug.Proofs.Refinement

/-!
# Lines are read as they are written

`sscanf` finds in a line the operands that were written to it, so a line that writes a command is
executed as that command, however the operands are spelled and set apart.
-/

namespace DcPerf.PciDebug

open DcPerf.Library DcPerf.Library.Scanf

variable {os : List Operand} {vs : List (BitVec 32)} {ds : List Directive} {done : List Arg}
  {rest w line : List Char} {width : BitVec 32} {c : Command} {l : Char}

theorem hexOperands_succ (n : ℕ) :
    hexOperands (n + 1) = .space :: .number .hex none :: hexOperands n := by
  simp [hexOperands, List.replicate_succ]

/-- Operands stand apart from what is in front of them. -/
theorem ends_operands (h : Denote os vs) (hr : Ends rest) : Ends (operandsText os ++ rest) := by
  rcases h with _ | ⟨ho, -⟩
  · exact hr
  · rename_i o v os vs
    intro c hc
    obtain ⟨b, bs, hb⟩ := List.exists_cons_of_ne_nil ho.apart
    obtain rfl : b = c := by simpa [operandsText, Operand.text, hb] using hc
    exact ho.blank b (by simp [hb])

theorem toInt_hex {digits : List Char} {v : BitVec 32} (h : valueIn 16 digits = v.toNat) :
    Radix.hex.toInt false digits = v := by
  have hlt : valueIn Radix.hex.base digits < 2 ^ 32 := by
    show valueIn 16 digits < 2 ^ 32
    rw [h]
    exact v.isLt
  rw [Radix.toInt_false _ hlt]
  show BitVec.ofNat 32 (valueIn 16 digits) = v
  rw [h, BitVec.ofNat_toNat, BitVec.setWidth_eq]

theorem toInt_dec {digits : List Char} {v : BitVec 32} (h : valueIn 10 digits = v.toNat) :
    Radix.dec.toInt false digits = v := by
  have hlt : valueIn Radix.dec.base digits < 2 ^ 32 := by
    show valueIn 10 digits < 2 ^ 32
    rw [h]
    exact v.isLt
  rw [Radix.toInt_false _ hlt]
  show BitVec.ofNat 32 (valueIn 10 digits) = v
  rw [h, BitVec.ofNat_toNat, BitVec.setWidth_eq]

/-- An operand is found, with its prefix or without. -/
theorem scan_operand {o : Operand} {v : BitVec 32} (h : o.Denotes v) (hr : Ends rest)
    (ds : List Directive) (done : List Arg) :
    scan (.space :: .number .hex none :: ds) (o.text ++ rest) done =
      scan ds rest (done ++ [.int v]) := by
  have htext : o.text ++ rest = o.blank ++ (o.lead ++ (o.digits ++ rest)) := by
    simp [Operand.text]
  rw [htext, ← toInt_hex h.value]
  rcases h.lead with hlead | hlead | hlead
  · have hnumber : scan (.number .hex none :: ds) ([] ++ (o.digits ++ rest)) done =
        scan ds rest (done ++ [.int (Radix.hex.toInt false o.digits)]) :=
      scan_number (fun _ hc => nomatch hc) h.numeral hr
    rw [hlead, List.nil_append, scan_space h.blank (head_numeral h.numeral)]
    exact hnumber
  · rw [hlead, scan_space h.blank (by simp; decide)]
    exact scan_prefixed (.inl rfl) h.numeral hr
  · rw [hlead, scan_space h.blank (by simp; decide)]
    exact scan_prefixed (.inr rfl) h.numeral hr

/-- The operands are found one by one. -/
theorem scan_operands (h : Denote os vs) (hr : Ends rest) (ds : List Directive) (done : List Arg) :
    scan (hexOperands os.length ++ ds) (operandsText os ++ rest) done =
      scan ds rest (done ++ vs.map .int) := by
  induction h generalizing done with
  | nil => simp [hexOperands, operandsText]
  | @cons o v os vs ho hos ih =>
    have htext : operandsText (o :: os) ++ rest = o.text ++ (operandsText os ++ rest) := by
      simp [operandsText]
    rw [List.length_cons, hexOperands_succ, htext, List.cons_append, List.cons_append,
      scan_operand ho (ends_operands hos hr), ih]
    simp

/-- An operand that is not there ends the scan. -/
theorem scan_missing (hr : IsBlank rest) (hd : done ≠ []) (n : ℕ) :
    scan (hexOperands (n + 1)) rest done = ⟨done.length, done⟩ := by
  have hdrop : rest.dropWhile isSpace = [] := List.dropWhile_eq_nil_iff.mpr hr
  rw [hexOperands_succ, Scanf.scan, Scanf.scan, hdrop]
  simp [inputFailure, hd]

/-- What is scanned of the operands of a line: those that are there, after the width. -/
theorem sscanf_width (h : IsNumeral .dec w) (hv : valueIn 10 w = width.toNat) (ho : Denote os vs)
    (hr : Ends rest) (ds : List Directive) :
    sscanf (l :: (w ++ (operandsText os ++ rest)))
        (.skipChar :: .number .dec none :: (hexOperands os.length ++ ds)) =
      scan ds rest (.int width :: vs.map .int) := by
  have hnumber : scan (.number .dec none :: (hexOperands os.length ++ ds))
      ([] ++ (w ++ (operandsText os ++ rest))) [] =
      scan (hexOperands os.length ++ ds) (operandsText os ++ rest) ([] ++ [.int (Radix.dec.toInt false w)]) :=
    scan_number (fun _ hc => nomatch hc) h (ends_operands ho hr)
  rw [List.nil_append, toInt_dec hv] at hnumber
  rw [sscanf, Scanf.scan, hnumber, scan_operands ho hr]
  rfl

theorem sscanf_default (ho : Denote os vs) (hr : Ends rest) (ds : List Directive) :
    sscanf (l :: (operandsText os ++ rest)) (.skipChar :: (hexOperands os.length ++ ds)) =
      scan ds rest (vs.map .int) := by
  rw [sscanf, Scanf.scan, scan_operands ho hr]
  rfl

/-- With a width there is no space after the letter. -/
theorem second_of_numeral (h : IsNumeral .dec w) :
    (l :: (w ++ (operandsText os ++ rest)))[1]? ≠ some ' ' := by
  obtain ⟨d, ds, rfl⟩ := List.exists_cons_of_ne_nil h.ne_nil
  have hd : d ≠ ' ' := Radix.ne_of_isDigit (h.digit d (by simp)) (by decide)
  simpa using hd

theorem second_of_default {o : Operand} (h : o.blank.head? = some ' ') :
    (l :: ([] ++ (operandsText (o :: os) ++ rest)))[1]? = some ' ' := by
  obtain ⟨bs, hb⟩ := List.head?_eq_some_iff.mp h
  simp [operandsText, Operand.text, hb]

/-- Two operands are found where two are written. -/
theorem twoOperands_written {x y : BitVec 32} (hw : WritesWidth width w os) (ho : Denote os [x, y])
    (hr : Ends rest) : twoOperands (l :: (w ++ (operandsText os ++ rest))) = some (width, x, y) := by
  have hlen : os.length = 2 := ho.length_eq
  unfold twoOperands
  cases hw with
  | default o os h =>
    have hscan := sscanf_default (l := l) ho hr []
    rw [hlen, List.append_nil] at hscan
    rw [if_pos (second_of_default h), List.nil_append, hscan]
    rfl
  | number _ _ _ h hv =>
    have hscan := sscanf_width (l := l) h hv ho hr []
    rw [hlen, List.append_nil] at hscan
    rw [if_neg (second_of_numeral h), hscan]
    rfl

theorem fillOperands_written {addr val len inc : BitVec 32} (hw : WritesWidth width w os)
    (ho : Denote os [addr, val, len, inc]) (hr : Ends rest) :
    fillOperands (l :: (w ++ (operandsText os ++ rest))) = some (width, addr, val, len, inc) := by
  have hlen : os.length = 4 := ho.length_eq
  unfold fillOperands
  cases hw with
  | default o os h =>
    have hscan := sscanf_default (l := l) ho hr []
    rw [hlen, List.append_nil] at hscan
    rw [if_pos (second_of_default h), List.nil_append, hscan]
    rfl
  | number _ _ _ h hv =>
    have hscan := sscanf_width (l := l) h hv ho hr []
    rw [hlen, List.append_nil] at hscan
    rw [if_neg (second_of_numeral h), hscan]
    rfl

/-- An increment that is not written is one. -/
theorem fillOperands_ones {addr val len : BitVec 32} (hw : WritesWidth width w os)
    (ho : Denote os [addr, val, len]) (hr : IsBlank rest) :
    fillOperands (l :: (w ++ (operandsText os ++ rest))) = some (width, addr, val, len, 1) := by
  have hends : Ends rest := fun c hc => hr c (List.mem_of_mem_head? hc)
  have hsplit : hexOperands 4 = hexOperands os.length ++ hexOperands 1 := by
    rw [ho.length_eq]
    rfl
  unfold fillOperands
  rw [hsplit]
  cases hw with
  | default o os h =>
    have hscan := sscanf_default (l := l) ho hends (hexOperands 1)
    rw [scan_missing hr (by simp)] at hscan
    rw [if_pos (second_of_default h), List.nil_append, hscan]
    rfl
  | number _ _ _ h hv =>
    have hscan := sscanf_width (l := l) h hv ho hends (hexOperands 1)
    rw [scan_missing hr (by simp)] at hscan
    rw [if_neg (second_of_numeral h), hscan]
    rfl

/-- A line that writes a command is read as this command. -/
theorem parse_of_writes (h : Writes c line) : parse line = c := by
  cases h with
  | help rest => rfl
  | display l hl hw ho hr =>
    have hops := twoOperands_written (l := l) hw ho hr
    rcases hl with rfl | rfl
    all_goals
      show displayCommand _ = _
      rw [displayCommand, hops]
  | change l hl hw ho hr =>
    have hops := twoOperands_written (l := l) hw ho hr
    rcases hl with rfl | rfl
    all_goals
      show changeCommand _ = _
      rw [changeCommand, hops]
  | fill l hl hw ho hr =>
    have hops := fillOperands_written (l := l) hw ho hr
    rcases hl with rfl | rfl
    all_goals
      show fillCommand _ = _
      rw [fillCommand, hops]
  | fillOnes l hl hw ho hr =>
    have hops := fillOperands_ones (l := l) hw ho hr
    rcases hl with rfl | rfl
    all_goals
      show fillCommand _ = _
      rw [fillCommand, hops]
  | showEndian l hl => rcases hl with rfl | rfl <;> rfl
  | bigEndian l hl rest => rcases hl with rfl | rfl <;> rfl
  | littleEndian l hl rest => rcases hl with rfl | rfl <;> rfl
  | quit l hl rest => rcases hl with rfl | rfl <;> rfl

/-- A line that writes a command is executed as this command. -/
theorem processCommand_of_writes (host : ByteOrder) (s : State) (h : Writes c line) :
    processCommand host s line = (c.exec s, c.status) := by
  rw [processCommand_eq, parse_of_writes h]

theorem processCommand_of_writes_fill :
    processCommand .little sample "F16 10 0xFFFE 8 ".toList =
      ((Command.fill 16 0x10 0xfffe 8 1).exec sample, 0) := by
  have hw : WritesWidth 16 ['1', '6'] [⟨[' '], [], ['1', '0']⟩, ⟨[' '], ['0', 'x'], ['F', 'F', 'F', 'E']⟩,
      ⟨[' '], [], ['8']⟩] := .number _ _ _ (by decide) (by decide)
  have hblank : IsBlank [' '] := by decide
  have ho : Denote [⟨[' '], [], ['1', '0']⟩, ⟨[' '], ['0', 'x'], ['F', 'F', 'F', 'E']⟩,
      ⟨[' '], [], ['8']⟩] [0x10, 0xfffe, 8] :=
    .cons ⟨by decide, hblank, .inl rfl, by decide, by decide⟩
      (.cons ⟨by decide, hblank, .inr (.inl rfl), by decide, by decide⟩
        (.cons ⟨by decide, hblank, .inl rfl, by decide, by decide⟩ .nil))
  exact processCommand_of_writes .little sample (.fillOnes 'F' (.inr rfl) hw ho hblank)

/-! ## Every command can be written -/

theorem operand_denotes (v : BitVec 32) : (operand v).Denotes v := by
  refine ⟨by simp [operand], ?_, .inl rfl, ⟨?_, ?_⟩, ?_⟩
  · intro c hc
    obtain rfl : c = ' ' := by simpa [operand] using hc
    rfl
  · have hlen := length_hexText 8 v.toNat
    intro hnil
    have hzero : (hexText 8 v.toNat).length = 0 := by
      show (operand v).digits.length = 0
      rw [hnil]
      rfl
    omega
  · intro c hc
    obtain ⟨d, hd, rfl⟩ := hexText_digit 8 v.toNat c hc
    exact (hexChar_spec hd).2
  · show valueIn 16 (hexText 8 v.toNat) = v.toNat
    rw [valueIn_hexText]
    have hlt := v.isLt
    omega

theorem valueIn_toDigits (n : ℕ) : valueIn 10 (Nat.toDigits 10 n) = n := by
  have hstep : ∀ (cs : List Char) (k : ℕ), (∀ c ∈ cs, c.isDigit = true) →
      cs.foldl (fun n c => n * 10 + digitValue c) k = Nat.ofDigitChars 10 cs k := by
    intro cs
    induction cs with
    | nil => simp
    | cons c cs ih =>
      intro k h
      have hc : digitValue c = c.toNat - '0'.toNat := if_pos (h c (by simp))
      rw [List.foldl_cons, ih _ fun d hd => h d (List.mem_cons_of_mem _ hd), Nat.ofDigitChars_cons,
        hc, Nat.mul_comm]
  rw [valueIn, hstep _ _ fun c hc => Nat.isDigit_of_mem_toDigits (by omega) (by omega) hc,
    Nat.ofDigitChars_toDigits (by omega) (by omega)]

theorem numeral_toDigits (n : ℕ) : IsNumeral .dec (Nat.toDigits 10 n) :=
  ⟨Nat.toDigits_ne_nil, fun _ hc => Nat.isDigit_of_mem_toDigits (by omega) (by omega) hc⟩

/-- A width as a decimal number. -/
theorem writes_number (width : BitVec 32) (os : List Operand) :
    WritesWidth width (Nat.toDigits 10 width.toNat) os :=
  .number _ _ os (numeral_toDigits _) (valueIn_toDigits _)

theorem denote_operands (vs : List (BitVec 32)) : Denote (vs.map operand) vs := by
  induction vs with
  | nil => exact List.Forall₂.nil
  | cons v vs ih => exact List.Forall₂.cons (operand_denotes v) ih

/-- Every command but the empty and the invalid one has a line. -/
theorem writes_line (h : c ≠ .nothing ∧ c ≠ .invalid) : Writes c c.line := by
  have hends : Ends [] := fun c hc => nomatch hc
  cases c with
  | nothing => exact absurd rfl h.1
  | help => exact .help []
  | display width addr len =>
    have hline := Writes.display 'd' (.inl rfl) (writes_number width _) (denote_operands [addr, len]) hends
    rwa [List.append_nil] at hline
  | change width addr val =>
    have hline := Writes.change 'c' (.inl rfl) (writes_number width _) (denote_operands [addr, val]) hends
    rwa [List.append_nil] at hline
  | fill width addr val len inc =>
    have hline := Writes.fill 'f' (.inl rfl) (writes_number width _)
      (denote_operands [addr, val, len, inc]) hends
    rwa [List.append_nil] at hline
  | showEndian => exact .showEndian 'e' (.inl rfl)
  | setEndian big =>
    cases big with
    | false => exact .littleEndian 'e' (.inl rfl) []
    | true => exact .bigEndian 'e' (.inl rfl) []
  | quit => exact .quit 'q' (.inl rfl) []
  | invalid => exact absurd rfl h.2

/-- What is written is read back. -/
theorem parse_line (h : c ≠ .invalid) : parse c.line = c := by
  by_cases hc : c = .nothing
  · rw [hc]
    rfl
  · exact parse_of_writes (writes_line ⟨hc, h⟩)

end DcPerf.PciDebug
