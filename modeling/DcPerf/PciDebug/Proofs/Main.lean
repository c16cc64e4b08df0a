import DcPerf.PciDebug.Main
import DcPerf.PciDebug.Proofs.Bounds
import Mathlib.Tactic.Positivity

/-!
# The debugger opens the files of its slot and stays in the mapped pages

A slot that is written as `lspci` prints it names the files that are opened. The region of a naturally
aligned address lies within the pages that are mapped, and so do the accesses of a careful session.
-/

namespace DcPerf.PciDebug

open DcPerf.Library DcPerf.Library.Scanf

variable {host : ByteOrder} {sys : System} {opts : List Opt} {inputs : List (Option (List Char))}
  {digits bus dev function : List Char} {k : ℕ}

/-! ## Slots -/

theorem numeral_of_isHexWord (hk : 0 < k) (h : isHexWord k digits = true) : IsNumeral .hex digits := by
  have hlen := length_of_isHexWord h
  refine ⟨fun hnil => ?_, List.all_eq_true.mp (Bool.and_eq_true_iff.mp h).2⟩
  rw [hnil, List.length_nil] at hlen
  omega

/-- A field of up to eight digits fits a word. -/
theorem valueIn_hexWord (hk : 0 < k) (h : isHexWord k digits = true) (hk8 : k ≤ 8) :
    valueIn 16 digits < 16 ^ k ∧ valueIn 16 digits < 2 ^ 32 := by
  have hbound := valueIn_lt fun c hc => digitValue_lt_sixteen ((numeral_of_isHexWord hk h).digit c hc)
  rw [length_of_isHexWord h] at hbound
  have hpow : 16 ^ k ≤ 16 ^ 8 := Nat.pow_le_pow_right (by omega) hk8
  exact ⟨hbound, by omega⟩

/-- A hexadecimal field as wide as its digits. -/
theorem scan_hexWord (hk : 0 < k) (h : isHexWord k digits = true) (hk8 : k ≤ 8) (rest : List Char)
    (ds : List Directive) (done : List Arg) :
    scan (.number .hex (some k) :: ds) (digits ++ rest) done =
      scan ds rest (done ++ [.int (BitVec.ofNat 32 (valueIn 16 digits))]) := by
  have hscan : scan (.number .hex (some digits.length) :: ds) (digits ++ rest) done =
      scan ds rest (done ++ [.int (Radix.hex.toInt false digits)]) :=
    scan_field (numeral_of_isHexWord hk h) rest
  rw [length_of_isHexWord h] at hscan
  rw [hscan, Radix.toInt_false .hex (valueIn_hexWord hk h hk8).2]
  rfl

/-- What is printed for a field is the field in lower case. -/
theorem lowerHex_hexWord (hk : 0 < k) (h : isHexWord k digits = true) (hk8 : k ≤ 8) :
    lowerHex k (BitVec.ofNat 32 (valueIn 16 digits)).toNat = digits.map Char.toLower := by
  obtain ⟨hbound, hlt⟩ := valueIn_hexWord hk h hk8
  have htext := hexText_valueIn (numeral_of_isHexWord hk h).digit
  rw [length_of_isHexWord h] at htext
  rw [BitVec.toNat_ofNat, Nat.mod_eq_of_lt hlt, lowerHex_of_lt hk hbound, htext]

theorem length_toString_toInt (x : BitVec 32) : (toString x.toInt).toList.length ≤ 11 := by
  have hnat (n : ℕ) (h : n < 2 ^ 32) : n.repr.length ≤ 10 :=
    (Nat.length_repr_le_iff (by omega)).mpr (by omega)
  have hle := BitVec.two_mul_toInt_le (x := x)
  have hge := BitVec.le_two_mul_toInt (x := x)
  rw [Int.toString_eq_repr, Int.repr_eq_if, String.length_toList]
  split
  · have hlen := hnat x.toInt.toNat (by omega)
    omega
  · have hlen := hnat (-x.toInt).toNat (by omega)
    have hminus : "-".length = 1 := rfl
    rw [String.length_append]
    omega

/-- A slot with two digits for the bus, two for the device and one for the function. -/
def slotText (bus dev function : List Char) : List Char := bus ++ ':' :: (dev ++ '.' :: function)

theorem domainText : "/sys/bus/pci/devices/".toList ++ (lowerHex 4 0 ++ [':']) =
    "/sys/bus/pci/devices/0000:".toList := by
  have hzero : hexText 4 0 = ['0', '0', '0', '0'] := by decide
  rw [lowerHex_of_lt (by omega) (by omega), hzero]
  simp

/-- The files that are opened for a slot are those of this slot in the first domain. -/
theorem parseSlot_names (bus dev function : List Char) (hb : isHexWord 2 bus = true)
    (hd : isHexWord 2 dev = true) (hf : isHexWord 1 function = true) :
    ∃ b d f, parseSlot (slotText bus dev function) = some (b, d, f) ∧
      configName b d f = "/sys/bus/pci/devices/0000:".toList ++
        (slotText bus dev function).map Char.toLower ++ "/config".toList ∧
      ∀ bar, resourceName b d f bar = "/sys/bus/pci/devices/0000:".toList ++
        (slotText bus dev function).map Char.toLower ++ "/resource".toList ++
          (toString bar.toInt).toList := by
  have hcolon : ∀ (c : Char) ds rest done, scan (.lit c :: ds) (c :: rest) done = scan ds rest done :=
    fun c ds rest done => if_pos rfl
  have hparse : parseSlot (slotText bus dev function) = some (BitVec.ofNat 32 (valueIn 16 bus),
      BitVec.ofNat 32 (valueIn 16 dev), BitVec.ofNat 32 (valueIn 16 function)) := by
    have hend := scan_hexWord (by omega) hf (by omega) [] []
    simp only [List.append_nil] at hend
    rw [parseSlot, sscanf, slotText, scan_hexWord (by omega) hb (by omega), hcolon,
      scan_hexWord (by omega) hd (by omega), hcolon, hend]
    rfl
  have hdir : deviceDir (BitVec.ofNat 32 (valueIn 16 bus)) (BitVec.ofNat 32 (valueIn 16 dev))
      (BitVec.ofNat 32 (valueIn 16 function)) = "/sys/bus/pci/devices/0000:".toList ++
        (slotText bus dev function).map Char.toLower ++ ['/'] := by
    have hmarks : Char.toLower ':' = ':' ∧ Char.toLower '.' = '.' := by decide
    have hslot : bus.map Char.toLower ++ ':' :: dev.map Char.toLower ++
        '.' :: function.map Char.toLower = (slotText bus dev function).map Char.toLower := by
      simp only [slotText, List.map_append, List.map_cons, hmarks, List.append_assoc, List.cons_append]
    have hsplit (p q a b c : List Char) (h : p ++ (lowerHex 4 0 ++ [':']) = q) :
        p ++ lowerHex 4 0 ++ ':' :: a ++ ':' :: b ++ '.' :: c ++ ['/'] =
          q ++ (a ++ ':' :: b ++ '.' :: c) ++ ['/'] := by
      rw [← h]
      simp
    have hbus := lowerHex_hexWord (by omega) hb (by omega)
    have hdev := lowerHex_hexWord (by omega) hd (by omega)
    have hfunction := lowerHex_hexWord (by omega) hf (by omega)
    unfold deviceDir
    simp only [hbus, hdev, hfunction, ← hslot]
    exact hsplit _ _ _ _ _ domainText
  have hlen : ("/sys/bus/pci/devices/0000:".toList ++
      (slotText bus dev function).map Char.toLower ++ ['/']).length = 34 := by
    simp [slotText, length_of_isHexWord hb, length_of_isHexWord hd, length_of_isHexWord hf]
  refine ⟨_, _, _, hparse, ?_, fun bar => ?_⟩
  · rw [configName, hdir, List.take_of_length_le]
    · simp
    · rw [List.length_append, hlen]
      decide
  · have hbar := length_toString_toInt bar
    have hresource : "resource".toList.length = 8 := by decide
    rw [resourceName, hdir, List.take_of_length_le]
    · simp
    · rw [List.length_append, List.length_append, hlen]
      omega

theorem parseSlot_names_upper : ∃ b d f, parseSlot "0A:1f.3".toList = some (b, d, f) ∧
    configName b d f = "/sys/bus/pci/devices/0000:".toList ++ "0a:1f.3".toList ++ "/config".toList ∧
    ∀ bar, resourceName b d f bar = "/sys/bus/pci/devices/0000:".toList ++ "0a:1f.3".toList ++
      "/resource".toList ++ (toString bar.toInt).toList :=
  parseSlot_names ['0', 'A'] ['1', 'f'] ['3'] (by decide) (by decide) (by decide)

/-! ## Mapped pages -/

/-- A naturally aligned region of a power of two lies within the pages that are mapped. -/
theorem offset_add_size_le {phys : BitVec 32} (halign : 2 ^ k ∣ (phys &&& 0xFFFFFFF0).toNat) :
    (offsetOf phys).toNat + 2 ^ k ≤ mappedBytes (2 ^ k) := by
  have hoffset : (offsetOf phys).toNat = (phys &&& 0xFFFFFFF0).toNat % 2 ^ 12 := by
    rw [offsetOf, BitVec.toNat_umod]
    rfl
  obtain ⟨q, hq⟩ := halign
  unfold mappedBytes
  rw [hoffset, hq]
  rcases Nat.le_total 12 k with hk | hk
  · obtain ⟨j, rfl⟩ := Nat.exists_eq_add_of_le hk
    rw [Nat.pow_add, Nat.mul_assoc, Nat.mul_mod_right]
    omega
  · obtain ⟨j, hj⟩ := Nat.exists_eq_add_of_le hk
    have hpos : 0 < 2 ^ k := Nat.pos_of_ne_zero (by positivity)
    have hle : 2 ^ k ≤ 2 ^ 12 := Nat.pow_le_pow_right (by omega) hk
    have hsplit : 2 ^ 12 = 2 ^ k * 2 ^ j := by rw [← Nat.pow_add, ← hj]
    have hlt : q % 2 ^ j + 1 ≤ 2 ^ j := Nat.mod_lt _ (Nat.pos_of_ne_zero (by positivity))
    have hmul := Nat.mul_le_mul_left (2 ^ k) hlt
    rw [Nat.mul_succ, ← hsplit] at hmul
    rw [hsplit, Nat.mul_mod_mul_left]
    omega

theorem mapRegion_offset {bar bus slot function : BitVec 32} {d : Mapped}
    (h : mapRegion host sys bar bus slot function = .ok d) : d.dev.offset = offsetOf d.phys := by
  unfold mapRegion at h
  cases hopen : sys.openFile (resourceName bus slot function bar) with
  | error f => simp [hopen] at h
  | ok _ =>
    cases hstat : sys.fstat (resourceName bus slot function bar) with
    | error f => simp [hopen, hstat] at h
    | ok size =>
      cases hmap : sys.mmap (resourceName bus slot function bar) (size.setWidth 32) with
      | none => simp [hopen, hstat, hmap] at h
      | some maddr =>
        cases hphys : readPhys host sys bar bus slot function with
        | error text => simp [hopen, hstat, hmap, hphys] at h
        | ok phys =>
          simp only [hopen, hstat, hmap, hphys, Except.ok.injEq] at h
          rw [← h]

/-! ## Runs -/

theorem start_offset {o : Options} {d : Mapped} (h : start host sys opts = .ok (o, d)) :
    d.dev.offset = offsetOf d.phys := by
  unfold start at h
  cases hopts : optionLoop defaults opts with
  | error text => simp [hopts, bind, Except.bind] at h
  | ok o' =>
    cases hslot : o'.slot with
    | none => simp [hopts, hslot, bind, Except.bind, throw, throwThe, MonadExceptOf.throw] at h
    | some slot =>
      cases hparse : parseSlot slot with
      | none =>
        simp [hopts, hslot, hparse, bind, Except.bind, throw, throwThe, MonadExceptOf.throw, pure,
          Except.pure] at h
      | some device =>
        obtain ⟨bus, dev, function⟩ := device
        cases hmap : mapRegion host sys o'.bar bus dev function with
        | error text => simp [hopts, hslot, hparse, hmap, bind, Except.bind, pure, Except.pure] at h
        | ok d' =>
          simp only [hopts, hslot, hparse, hmap, bind, Except.bind, pure, Except.pure, Except.ok.injEq,
            Prod.mk.injEq] at h
          rw [← h.2]
          exact mapRegion_offset hmap

/-- A run that gets to the session is the session of its command file and of the prompt. -/
theorem main_of_start (inputs : List (Option (List Char))) {o : Options} {d : Mapped}
    (h : start host sys opts = .ok (o, d)) :
    main host sys opts inputs = .ok (parseCommand host o.settings (initial o.settings.verbosity d.dev)
      (o.cmdFilePath.map sys.lines) inputs) := by
  simp [main, h, bind, Except.bind, pure, Except.pure]

/-- With the region of a naturally aligned address, a run whose commands are careful accesses no byte
outside the mapped pages. -/
theorem main_inMapping (host : ByteOrder) (sys : System) (opts : List Opt)
    (inputs : List (Option (List Char))) {o : Options} {d : Mapped} {k : ℕ}
    (hstart : start host sys opts = .ok (o, d)) (hsize : d.dev.size.toNat = 2 ^ k)
    (halign : 2 ^ k ∣ (d.phys &&& 0xFFFFFFF0).toNat)
    (hcareful : ∀ c ∈ sessionCommands o.settings d.dev.bar (o.cmdFilePath.map sys.lines) inputs,
      c.Careful d.dev) :
    ∃ s outcome, main host sys opts inputs = .ok (s, outcome) ∧
      ∀ a ∈ s.accesses, a.pos + a.width ≤ mappedBytes d.dev.size.toNat := by
  have hmachine := parseCommand_machine host o.settings (initial o.settings.verbosity d.dev)
    (o.cmdFilePath.map sys.lines) inputs
  have hrun := main_of_start inputs hstart
  cases hsession : parseCommand host o.settings (initial o.settings.verbosity d.dev)
    (o.cmdFilePath.map sys.lines) inputs with
  | mk s outcome =>
  rw [hsession] at hmachine hrun
  have hregion := (runAll_inRegion_iff (sessionCommands o.settings d.dev.bar
    (o.cmdFilePath.map sys.lines) inputs) (initial o.settings.verbosity d.dev).toMachine).mpr
    ⟨fun a ha => (List.not_mem_nil ha).elim, hcareful⟩
  refine ⟨s, outcome, hrun, fun a ha => ?_⟩
  have hin : a ∈ s.toMachine.accesses := ha
  rw [hmachine] at hin
  obtain ⟨-, hend⟩ := hregion a hin
  have hpages := offset_add_size_le halign
  calc a.pos + a.width ≤ d.dev.offset.toNat + d.dev.size.toNat := hend
    _ = (offsetOf d.phys).toNat + 2 ^ k := by rw [start_offset hstart, hsize]
    _ ≤ mappedBytes (2 ^ k) := hpages
    _ = mappedBytes d.dev.size.toNat := by rw [hsize]

theorem main_inMapping_small : ∃ s outcome,
    main .little ⟨fun _ => .ok (), fun _ => .ok 256, fun _ _ => some fun _ => 0, fun _ _ => true,
        fun _ _ => some [0, 1, 0, 0xf0], fun _ => none⟩ [.s "0a:1f.3".toList] [some "d8 0 10".toList] =
        .ok (s, outcome) ∧
      ∀ a ∈ s.accesses, a.pos + a.width ≤ 0x1000 := by
  refine main_inMapping .little _ _ _ (o := ⟨0, ⟨3, false⟩, some "0a:1f.3".toList, none⟩)
    (d := ⟨⟨0, fun _ => 0, 256, 0x100⟩, 0xf0000100⟩) (k := 8) rfl (by decide) (by decide) ?_
  have hcs : sessionCommands ⟨3, false⟩ 0 none [some "d8 0 10".toList] = [.display 8 0 16] := by decide
  show ∀ c ∈ sessionCommands ⟨3, false⟩ 0 none [some "d8 0 10".toList], _
  rw [hcs, List.forall_mem_singleton]
  rintro b hb
  obtain rfl : (⟨0, 1, 16⟩ : Block) = b := Option.some.inj hb
  decide

end DcPerf.PciDebug
