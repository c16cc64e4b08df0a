import DcPerf.PciDebug.Bounds
import DcPerf.PciDebug.Proofs.Session
import DcPerf.PciDebug.Proofs.Syntax

/-!
# Accesses stay in the region

All accesses of a session lie within the region exactly when its commands are careful. A length that is
found too long is cut to the size of the region, whatever the address; so it is careful at address 0
only.
-/

namespace DcPerf.PciDebug

open DcPerf.Library

variable {host : ByteOrder} {m : Machine} {c : Command} {dev : Device} {b : Block} {n : ℕ}
  {addr width len val inc : BitVec 32}

/-! ## Blocks -/

theorem itemSize_pos (h : itemSize width = some n) : 0 < n ∧ n ≤ 4 := by
  rcases itemSize_cases width with ⟨-, hn⟩ | ⟨-, hn⟩ | ⟨-, hn⟩ | hn
  · obtain rfl : 1 = n := Option.some.inj (hn.symm.trans h)
    omega
  · obtain rfl : 2 = n := Option.some.inj (hn.symm.trans h)
    omega
  · obtain rfl : 4 = n := Option.some.inj (hn.symm.trans h)
    omega
  · simp [hn] at h

theorem block_map {count : ℕ → ℕ} (h : (if dev.size < addr then none
    else (itemSize width).map fun n => (⟨addr, n, count n⟩ : Block)) = some b) :
    ¬dev.size < addr ∧ itemSize width = some b.size ∧ b = ⟨addr, b.size, count b.size⟩ := by
  by_cases hsize : dev.size < addr
  · rw [if_pos hsize] at h
    cases h
  · rw [if_neg hsize] at h
    obtain ⟨n, hn, rfl⟩ := Option.map_eq_some_iff.mp h
    exact ⟨hsize, hn, rfl⟩

theorem block_none {count : ℕ → ℕ} (h : (if dev.size < addr then none
    else (itemSize width).map fun n => (⟨addr, n, count n⟩ : Block)) = none) :
    dev.size < addr ∨ itemSize width = none := by
  by_cases hsize : dev.size < addr
  · exact Or.inl hsize
  · rw [if_neg hsize] at h
    exact Or.inr (Option.map_eq_none_iff.mp h)

/-- A block starts in the region or right after it, and has items of up to four bytes. -/
theorem block_bounds (h : c.block dev = some b) :
    b.addr.toNat ≤ dev.size.toNat ∧ 0 < b.size ∧ b.size ≤ 4 := by
  have hmain {count : ℕ → ℕ} {addr width : BitVec 32} (h : (if dev.size < addr then none
      else (itemSize width).map fun n => (⟨addr, n, count n⟩ : Block)) = some b) :
      b.addr.toNat ≤ dev.size.toNat ∧ 0 < b.size ∧ b.size ≤ 4 := by
    obtain ⟨hsize, hn, hb⟩ := block_map h
    rw [hb]
    exact ⟨by simpa [BitVec.lt_def] using hsize, itemSize_pos hn⟩
  cases c with
  | display width addr len => exact hmain h
  | change width addr val => exact hmain h
  | fill width addr val len inc => exact hmain h
  | nothing | help | showEndian | setEndian _ | quit | invalid => cases h

/-! ## The accesses to a block -/

theorem accesses_none (h : c.block m.dev = none) : c.accesses m = [] := by
  cases c with
  | display width addr len =>
    rcases block_none h with hsize | hn
    · simp only [Command.accesses, if_pos hsize]
    · simp only [Command.accesses, hn, ite_self]
  | change width addr val =>
    rcases block_none h with hsize | hn
    · simp only [Command.accesses, if_pos hsize]
    · simp only [Command.accesses, hn, ite_self]
  | fill width addr val len inc =>
    rcases block_none h with hsize | hn
    · simp only [Command.accesses, if_pos hsize]
    · simp only [Command.accesses, hn, ite_self]
  | nothing | help | showEndian | setEndian _ | quit | invalid => rfl

/-- A command that does not write loads the items of its block. -/
theorem accesses_load (hw : c.writes = false) (h : c.block m.dev = some b) :
    c.accesses m = (List.range b.count).map fun i => .load (b.pos m.dev i) b.size := by
  cases c with
  | display width addr len =>
    obtain ⟨hsize, hn, hb⟩ := block_map h
    rw [hb]
    simp only [Command.accesses, if_neg hsize, hn, Block.pos, dumped, length_below]
    simp [below, Nat.mul_comm]
  | change width addr val => cases hw
  | fill width addr val len inc => cases hw
  | nothing | help | showEndian | setEndian _ | quit | invalid => cases h

/-- A command that writes stores its items in its block. -/
theorem accesses_store (h : c.target m.dev = some b) :
    c.accesses m = (List.range b.count).map fun i =>
      .store (b.pos m.dev i) (m.order.bytes b.size ((c.value i).setWidth (8 * b.size))) := by
  cases c with
  | change width addr val =>
    obtain ⟨hsize, hn, hb⟩ := block_map h
    rw [hb]
    simp [Command.accesses, hsize, hn, Block.pos, Machine.put, Command.value]
  | fill width addr val len inc =>
    obtain ⟨hsize, hn, hb⟩ := block_map h
    rw [hb]
    simp only [Command.accesses, if_neg hsize, hn, Block.pos, Machine.put, Command.value, filled,
      List.length_range]
  | nothing | help | display _ _ _ | showEndian | setEndian _ | quit | invalid => cases h

theorem accesses_spans (h : c.block m.dev = some b) :
    (c.accesses m).map (fun a => (a.pos, a.width)) =
      (List.range b.count).map fun i => (b.pos m.dev i, b.size) := by
  cases hw : c.writes with
  | false =>
    rw [accesses_load hw h]
    simp [Access.pos, Access.width]
  | true =>
    have ht : c.target m.dev = some b := by rw [Command.target, hw, if_pos rfl, h]
    rw [accesses_store ht]
    simp [Access.pos, Access.width]

/-! ## Fitting blocks -/

/-- Items that follow one another are all below a bound exactly when the last one is; the addresses of
a block that goes too far leave the bound before they wrap. -/
theorem items_below_iff {a s k : ℕ} (ha : a ≤ s) (hs : s < 2 ^ 32) (hn : 0 < n) :
    (∀ i < k, (a + n * i) % 2 ^ 32 + n ≤ s) ↔ k = 0 ∨ a + n * k ≤ s := by
  constructor
  · intro h
    induction k with
    | zero => exact Or.inl rfl
    | succ k ih =>
      have hlast := h k (by omega)
      have hle : a + n * k ≤ s := by
        rcases ih fun i hi => h i (by omega) with rfl | hk
        · omega
        · exact hk
      rw [Nat.mod_eq_of_lt (by omega)] at hlast
      rw [Nat.mul_succ]
      omega
  · intro h i hi
    have hmul : n * (i + 1) ≤ n * k := Nat.mul_le_mul_left n hi
    rw [Nat.mul_succ] at hmul
    have hle : a + n * k ≤ s := by omega
    rw [Nat.mod_eq_of_lt (by omega)]
    omega

theorem pos_eq (b : Block) (i : ℕ) :
    b.pos dev i = dev.offset.toNat + (b.addr.toNat + b.size * i) % 2 ^ 32 := by
  simp [Block.pos, Device.posOf, BitVec.toNat_add]

theorem fits_iff (h : c.block dev = some b) :
    (∀ i < b.count, dev.offset.toNat ≤ b.pos dev i ∧
      b.pos dev i + b.size ≤ dev.offset.toNat + dev.size.toNat) ↔ b.Fits dev := by
  obtain ⟨haddr, hpos, -⟩ := block_bounds h
  unfold Block.Fits Block.extent
  rw [← items_below_iff haddr dev.size.isLt hpos]
  constructor
  · intro hall i hi
    have hin := hall i hi
    rw [pos_eq] at hin
    omega
  · intro hall i hi
    have hin := hall i hi
    rw [pos_eq]
    omega

/-- The accesses of a command lie within the region exactly when the command is careful. -/
theorem careful_iff (c : Command) (m : Machine) :
    (∀ a ∈ c.accesses m, InRegion m.dev a) ↔ c.Careful m.dev := by
  unfold Command.Careful
  cases hb : c.block m.dev with
  | none => simp [accesses_none hb]
  | some b =>
    have hspans (P : ℕ × ℕ → Prop) : (∀ a ∈ c.accesses m, P (a.pos, a.width)) ↔
        ∀ i < b.count, P (b.pos m.dev i, b.size) := by
      have hmap := accesses_spans hb
      have hlhs : (∀ a ∈ c.accesses m, P (a.pos, a.width)) ↔
          ∀ p ∈ (c.accesses m).map (fun a => (a.pos, a.width)), P p := by simp
      rw [hlhs, hmap]
      simp
    refine (hspans fun p => m.dev.offset.toNat ≤ p.1 ∧
      p.1 + p.2 ≤ m.dev.offset.toNat + m.dev.size.toNat).trans ?_
    simpa using fits_iff hb

/-! ## Sessions -/

/-- Only the size of the region matters. -/
theorem block_congr {dev' : Device} (h : dev.size = dev'.size) (c : Command) :
    c.block dev = c.block dev' := by
  cases c <;> simp only [Command.block, Device.clip, h]

theorem careful_congr {dev' : Device} (h : dev.size = dev'.size) : c.Careful dev ↔ c.Careful dev' := by
  unfold Command.Careful Block.Fits
  rw [block_congr h, h]

theorem inRegion_congr {dev' : Device} (ho : dev.offset = dev'.offset) (hs : dev.size = dev'.size)
    (a : Access) : InRegion dev a ↔ InRegion dev' a := by
  unfold InRegion
  rw [ho, hs]

theorem run_accesses (c : Command) (m : Machine) : (c.run m).accesses = m.accesses ++ c.accesses m := rfl

/-- The accesses of commands lie within the region exactly when all commands are careful. -/
theorem runAll_inRegion_iff (cs : List Command) (m : Machine) :
    (∀ a ∈ (runAll cs m).accesses, InRegion m.dev a) ↔
      (∀ a ∈ m.accesses, InRegion m.dev a) ∧ ∀ c ∈ cs, c.Careful m.dev := by
  induction cs generalizing m with
  | nil => simp [runAll]
  | cons c cs ih =>
    have hrest := ih (c.run m)
    simp only [inRegion_congr (run_offset c m) (run_size c m), careful_congr (run_size c m),
      run_accesses, List.forall_mem_append, careful_iff] at hrest
    rw [runAll_cons, hrest, List.forall_mem_cons, and_assoc]

/-- The accesses of a session lie within the region exactly when all of its commands are careful. -/
theorem session_inRegion_iff (host : ByteOrder) (settings : Settings) (s : State)
    (cmdFilePath : Option (Option (List (List Char)))) (inputs : List (Option (List Char)))
    (h : s.accesses = []) :
    (∀ a ∈ (parseCommand host settings s cmdFilePath inputs).1.accesses, InRegion s.dev a) ↔
      ∀ c ∈ sessionCommands settings s.dev.bar cmdFilePath inputs, c.Careful s.dev := by
  have hrun := runAll_inRegion_iff (sessionCommands settings s.dev.bar cmdFilePath inputs) s.toMachine
  rw [← parseCommand_machine host settings s cmdFilePath inputs, h] at hrun
  simpa using hrun

theorem session_inRegion_iff_display :
    (∀ a ∈ (parseCommand .little ⟨0, false⟩ sample none [some "d8 0 10".toList]).1.accesses,
      InRegion sample.dev a) ↔
      ∀ c ∈ sessionCommands ⟨0, false⟩ 0 none [some "d8 0 10".toList], c.Careful sample.dev :=
  session_inRegion_iff .little ⟨0, false⟩ sample none [some "d8 0 10".toList] rfl

/-! ## Lengths that are cut -/

theorem clip_of_lt (h : dev.size < addr + len) : dev.clip addr len = dev.size := if_pos h

theorem turns_of_lt (h : len.toNat < 2 ^ 31) : turns len = len.toNat := by
  rw [turns, BitVec.toInt_eq_toNat_of_lt (by omega), Int.toNat_natCast]

/-- A display that is found too long runs on to the size of the region, from where it starts. So it is
careful only at address 0. -/
theorem careful_display_clipped_iff (hsize : dev.size.toNat < 2 ^ 31) (hpos : 0 < dev.size.toNat)
    (haddr : ¬dev.size < addr) (hn : itemSize width = some n) (hlen : dev.size < addr + len) :
    (Command.display width addr len).Careful dev ↔ addr = 0 ∧ n ∣ dev.size.toNat := by
  obtain ⟨hn0, -⟩ := itemSize_pos hn
  have hcount : 0 < (dev.size.toNat + n - 1) / n := Nat.div_pos (by omega) hn0
  have hround : n * ((dev.size.toNat + n - 1) / n) ≤ dev.size.toNat + n - 1 := Nat.mul_div_le _ _
  have hceil : dev.size.toNat ≤ n * ((dev.size.toNat + n - 1) / n) := by
    have hmod := Nat.div_add_mod (dev.size.toNat + n - 1) n
    have hlt := Nat.mod_lt (dev.size.toNat + n - 1) hn0
    omega
  simp only [Command.Careful, Command.block, if_neg haddr, hn, Option.map_some, Option.mem_def,
    Option.some.injEq, forall_eq', Block.Fits, Block.extent, clip_of_lt hlen, dumped, length_below,
    turns_of_lt hsize]
  constructor
  · rintro (hzero | hle)
    · omega
    · refine ⟨BitVec.eq_of_toNat_eq ?_, (dev.size.toNat + n - 1) / n, by omega⟩
      show addr.toNat = 0
      omega
  · rintro ⟨rfl, k, hk⟩
    refine Or.inr ?_
    have hdiv : (dev.size.toNat + n - 1) / n = k := by
      rw [hk]
      exact Nat.div_eq_of_lt_le (by rw [Nat.mul_comm]; omega) (by rw [Nat.succ_mul, Nat.mul_comm]; omega)
    show 0 + _ ≤ _
    rw [hdiv, hk]
    omega

/-- A fill that is found too long leaves the region unless the address is within the rest of whole
items. -/
theorem careful_fill_clipped_iff (hsize : dev.size.toNat < 2 ^ 31) (haddr : ¬dev.size < addr)
    (hn : itemSize width = some n) (hlen : dev.size < addr + len) :
    (Command.fill width addr val len inc).Careful dev ↔
      dev.size.toNat < n ∨ addr.toNat ≤ dev.size.toNat % n := by
  obtain ⟨hn0, -⟩ := itemSize_pos hn
  have hmod := Nat.div_add_mod dev.size.toNat n
  simp only [Command.Careful, Command.block, if_neg haddr, hn, Option.map_some, Option.mem_def,
    Option.some.injEq, forall_eq', Block.Fits, Block.extent, clip_of_lt hlen, filled,
    List.length_range, turns_of_lt hsize, Nat.div_eq_zero_iff]
  omega

/-- What the debugger calls truncating a length keeps a display in the region at address 0 only, and a
fill where less than an item would be left over. -/
theorem truncated_inRegion_iff (host : ByteOrder) (s : State) (width addr len val inc : BitVec 32)
    {n : ℕ} {line line' : List Char} (hs : s.accesses = []) (hsize : s.dev.size.toNat < 2 ^ 31)
    (hpos : 0 < s.dev.size.toNat) (haddr : ¬s.dev.size < addr) (hn : itemSize width = some n)
    (hlen : s.dev.size < addr + len) (hd : Writes (.display width addr len) line)
    (hf : Writes (.fill width addr val len inc) line') :
    ((∀ a ∈ (processCommand host s line).1.accesses, InRegion s.dev a) ↔
        addr = 0 ∧ n ∣ s.dev.size.toNat) ∧
      ((∀ a ∈ (processCommand host s line').1.accesses, InRegion s.dev a) ↔
        s.dev.size.toNat < n ∨ addr.toNat ≤ s.dev.size.toNat % n) := by
  have hone (c : Command) : (∀ a ∈ (c.exec s).accesses, InRegion s.dev a) ↔ c.Careful s.dev := by
    show (∀ a ∈ s.accesses ++ c.accesses s.toMachine, _) ↔ _
    rw [hs, List.nil_append, careful_iff]
  rw [processCommand_eq, parse_of_writes hd, processCommand_eq, parse_of_writes hf, hone, hone,
    careful_display_clipped_iff hsize hpos haddr hn hlen, careful_fill_clipped_iff hsize haddr hn hlen]
  exact ⟨Iff.rfl, Iff.rfl⟩

theorem truncated_inRegion_iff_display :
    ¬∀ a ∈ (processCommand .little sample (Command.display 8 16 256).line).1.accesses,
      InRegion sample.dev a := by
  have h := truncated_inRegion_iff .little sample 8 16 256 0 1 rfl (by decide) (by decide) (by decide)
    (n := 1) rfl (by decide) (writes_line ⟨by decide, by decide⟩) (writes_line ⟨by decide, by decide⟩)
  exact fun hall => absurd (h.1.mp hall).1 (by decide)

end DcPerf.PciDebug
