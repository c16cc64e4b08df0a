import DcPerf.PciDebug.Proofs.Bounds

/-!
# What commands leave in the memory

A command changes the bytes of the block that it writes to and no others. So what it writes is found
again after any commands that write elsewhere.
-/

namespace DcPerf.PciDebug

open DcPerf.Library

variable {host : ByteOrder} {m : Machine} {c : Command} {cs : List Command} {dev : Device} {b b' : Block}
  {i a : ℕ}

/-! ## The bytes of a block -/

theorem target_congr {dev' : Device} (h : dev.size = dev'.size) (c : Command) :
    c.target dev = c.target dev' := by
  rw [Command.target, Command.target, block_congr h]

theorem pos_congr {dev' : Device} (h : dev.offset = dev'.offset) (b : Block) (i : ℕ) :
    b.pos dev i = b.pos dev' i := by
  rw [Block.pos, Block.pos, Device.posOf, Device.posOf, h]

theorem covers_congr {dev' : Device} (h : dev.offset = dev'.offset) :
    b.Covers dev a ↔ b.Covers dev' a := by
  simp only [Block.Covers, pos_congr h]

/-- The items of a block that fits follow one another. -/
theorem pos_of_fits (h : b.Fits dev) (hi : i < b.count) : b.pos dev i = b.first dev + b.size * i := by
  have hsize := dev.size.isLt
  have hmul : b.size * i ≤ b.size * b.count := Nat.mul_le_mul_left _ (Nat.le_of_lt hi)
  rcases h with hzero | hle
  · omega
  · rw [Block.extent] at hle
    rcases Nat.lt_or_ge (b.addr.toNat + b.size * i) (2 ^ 32) with hlt | hge
    · rw [pos_eq, Nat.mod_eq_of_lt hlt, Block.first, Device.posOf, Nat.add_assoc]
    · omega

/-- Blocks that fit have no byte in common if one ends before the other starts. -/
theorem apart_of_fits (h : b.Fits dev) (h' : b'.Fits dev)
    (hle : b.first dev + b.extent ≤ b'.first dev ∨ b'.first dev + b'.extent ≤ b.first dev) :
    b.Apart dev b' := by
  rintro a ⟨i, hi, hpos⟩ ⟨j, hj, hpos'⟩
  rw [pos_of_fits h hi] at hpos
  rw [pos_of_fits h' hj] at hpos'
  have hend : b.size * (i + 1) ≤ b.size * b.count := Nat.mul_le_mul_left _ hi
  have hend' : b'.size * (j + 1) ≤ b'.size * b'.count := Nat.mul_le_mul_left _ hj
  rw [Nat.mul_succ] at hend hend'
  unfold Block.extent at hle
  omega

/-! ## What a command leaves alone -/

theorem run_maddr (c : Command) (m : Machine) :
    (c.run m).dev.maddr = (c.accesses m).foldl Access.apply m.dev.maddr := rfl

/-- A command that writes nowhere leaves the memory as it is. -/
theorem run_maddr_of_none (h : c.target m.dev = none) : (c.run m).dev.maddr = m.dev.maddr := by
  rw [run_maddr]
  cases hb : c.block m.dev with
  | none =>
    rw [accesses_none hb]
    rfl
  | some b =>
    have hw : c.writes = false := by
      by_contra hw
      rw [Command.target, if_pos (by simpa using hw), hb] at h
      cases h
    have hloads := Access.foldl_loads m.dev.maddr ((List.range b.count).map fun i => (b.pos m.dev i, b.size))
    rw [List.map_map] at hloads
    rw [accesses_load hw hb]
    exact hloads

/-- The bytes outside the block that a command writes to stay. -/
theorem run_of_not_covers (h : ∀ b ∈ c.target m.dev, ¬b.Covers m.dev a) :
    (c.run m).dev.maddr a = m.dev.maddr a := by
  cases ht : c.target m.dev with
  | none => rw [run_maddr_of_none ht]
  | some b =>
    rw [run_maddr, accesses_store ht]
    refine Access.foldl_apply_of_not _ _ fun x hx hin => h b ht ?_
    obtain ⟨i, hi, rfl⟩ := List.mem_map.mp hx
    refine ⟨i, List.mem_range.mp hi, ?_⟩
    simpa [Access.pos, Access.width] using hin

/-- Commands change the bytes that some of them writes to, and no others. -/
theorem runAll_of_not_covers (cs : List Command) (m : Machine)
    (h : ∀ c ∈ cs, ∀ b ∈ c.target m.dev, ¬b.Covers m.dev a) :
    (runAll cs m).dev.maddr a = m.dev.maddr a := by
  induction cs generalizing m with
  | nil => rfl
  | cons c cs ih =>
    rw [runAll_cons, ih, run_of_not_covers (h c List.mem_cons_self)]
    intro d hd b hb hcov
    rw [target_congr (run_size c m)] at hb
    exact h d (List.mem_cons_of_mem _ hd) b hb ((covers_congr (run_offset c m)).mp hcov)

/-- A session changes the bytes that some command of it writes to, and no others. -/
theorem session_of_not_covers (host : ByteOrder) (settings : Settings) (s : State)
    (cmdFilePath : Option (Option (List (List Char)))) (inputs : List (Option (List Char))) (a : ℕ)
    (h : ∀ c ∈ sessionCommands settings s.dev.bar cmdFilePath inputs,
      ∀ b ∈ c.target s.dev, ¬b.Covers s.dev a) :
    (parseCommand host settings s cmdFilePath inputs).1.dev.maddr a = s.dev.maddr a := by
  have hrun := runAll_of_not_covers (sessionCommands settings s.dev.bar cmdFilePath inputs) s.toMachine h
  rw [← parseCommand_machine host] at hrun
  exact hrun

theorem session_of_not_covers_change :
    (parseCommand .little ⟨0, false⟩ sample none [some "c8 10 ff".toList]).1.dev.maddr 0 = 0 := by
  refine session_of_not_covers .little ⟨0, false⟩ sample none [some "c8 10 ff".toList] 0 ?_
  have hcs : sessionCommands ⟨0, false⟩ sample.dev.bar none [some "c8 10 ff".toList] =
      [.change 8 16 255] := by decide
  rw [hcs]
  simp [Command.target, Command.writes, Command.block, itemSize, sample, Block.Covers, Block.pos,
    Device.posOf]

/-! ## What a command writes -/

/-- A command that fits writes its values one after the other. -/
theorem run_maddr_of_fits (h : c.target m.dev = some b) (hf : b.Fits m.dev) :
    (c.run m).dev.maddr = m.dev.maddr.write (b.first m.dev)
      ((List.range b.count).flatMap fun i => m.order.bytes b.size ((c.value i).setWidth (8 * b.size))) := by
  have hlen (i : ℕ) : (m.order.bytes b.size ((c.value i).setWidth (8 * b.size))).length = b.size := by simp
  rw [run_maddr, accesses_store h, List.foldl_map, ← Memory.foldl_write hlen]
  refine List.foldl_ext _ _ _ fun mem i hi => ?_
  rw [Access.apply, pos_of_fits hf (List.mem_range.mp hi)]

theorem item_eq (m : Machine) (b : Block) (i : ℕ) :
    m.item b.size (b.addr + BitVec.ofNat 32 (b.size * i)) =
      m.order.word b.size (m.dev.maddr.read (b.pos m.dev i) b.size) := rfl

/-- An item holds what was written to it last. -/
theorem item_of_run (h : c.target m.dev = some b) (hf : b.Fits m.dev) (hi : i < b.count)
    (cs : List Command) (hcs : ∀ d ∈ cs, ∀ b' ∈ d.target m.dev, b.Apart m.dev b')
    (he : (runAll cs (c.run m)).bigEndian = m.bigEndian) :
    (runAll cs (c.run m)).item b.size (b.addr + BitVec.ofNat 32 (b.size * i)) =
      (c.value i).setWidth (8 * b.size) := by
  have hlen (i : ℕ) : (m.order.bytes b.size ((c.value i).setWidth (8 * b.size))).length = b.size := by simp
  have hoffset (cs : List Command) (m : Machine) : (runAll cs m).dev.offset = m.dev.offset := by
    induction cs generalizing m with
    | nil => rfl
    | cons c cs ih => exact ih (c.run m)
  have horder : (runAll cs (c.run m)).order = m.order := by rw [Machine.order, he, Machine.order]
  have hpos : b.pos (runAll cs (c.run m)).dev i = b.pos m.dev i := pos_congr (hoffset (c :: cs) m) b i
  have hkeep : (runAll cs (c.run m)).dev.maddr.read (b.pos m.dev i) b.size =
      (c.run m).dev.maddr.read (b.pos m.dev i) b.size := by
    refine Memory.read_congr fun j hj => runAll_of_not_covers cs _ fun d hd b' hb' hcov => ?_
    rw [target_congr (run_size c m)] at hb'
    exact hcs d hd b' hb' _ ⟨i, hi, by omega, by omega⟩ ((covers_congr (run_offset c m)).mp hcov)
  rw [item_eq, horder, hpos, hkeep, run_maddr_of_fits h hf, pos_of_fits hf hi,
    Memory.read_items hlen _ _ hi, ByteOrder.word_bytes]

/-! ## Fills as changes -/

section Changes

variable {width addr val len inc : BitVec 32} {n : ℕ} {s : State}

/-- The change of an item that a fill would write. -/
def changeOf (width addr val inc : BitVec 32) (n i : ℕ) : Command :=
  .change width (addr + BitVec.ofNat 32 (n * i)) (val + BitVec.ofNat 32 i * inc)

/-- Changes that are not refused are stores one after the other. -/
theorem foldl_changeOf (hn : itemSize width = some n) (is : List ℕ)
    (h : ∀ i ∈ is, ¬s.dev.size < addr + BitVec.ofNat 32 (n * i)) :
    is.foldl (fun s i => (changeOf width addr val inc n i).exec s) s =
      s.perform (is.map fun i => s.toMachine.put n (addr + BitVec.ofNat 32 (n * i))
        ((val + BitVec.ofNat 32 i * inc).setWidth (8 * n))) := by
  have hsame (t : State) (ht : t.dev.size = s.dev.size) :
      is.foldl (fun s i => (changeOf width addr val inc n i).exec s) t =
        is.foldl (fun t i => t.perform [t.toMachine.put n (addr + BitVec.ofNat 32 (n * i))
          ((val + BitVec.ofNat 32 i * inc).setWidth (8 * n))]) t := by
    induction is generalizing t with
    | nil => rfl
    | cons i is ih =>
      have hi : ¬t.dev.size < addr + BitVec.ofNat 32 (n * i) := by
        rw [ht]
        exact h i List.mem_cons_self
      rw [List.foldl_cons, List.foldl_cons, changeOf, exec_change hi hn]
      exact ih (fun j hj => h j (List.mem_cons_of_mem _ hj)) _ ht
  rw [hsame s rfl]
  exact fillLoop_eq is fun _ _ => rfl

/-- A change is refused if its address is beyond the region, and is one store otherwise. -/
theorem length_foldl_changeOf (hn : itemSize width = some n) (is : List ℕ) (s : State) :
    (is.foldl (fun s i => (changeOf width addr val inc n i).exec s) s).accesses.length =
      s.accesses.length +
        is.countP fun i => decide (¬s.dev.size < addr + BitVec.ofNat 32 (n * i)) := by
  induction is generalizing s with
  | nil => rfl
  | cons i is ih =>
    rw [List.foldl_cons, ih, List.countP_cons]
    by_cases hi : s.dev.size < addr + BitVec.ofNat 32 (n * i)
    · rw [changeOf, change_refused hi]
      simp [addressError, State.print, hi]
    · rw [changeOf, exec_change hi hn, if_pos (decide_eq_true hi)]
      show (s.accesses ++ [_]).length + is.countP (fun j => decide (¬s.dev.size < _)) = _
      rw [List.length_append, List.length_singleton]
      omega

/-- A fill does what changes of its items do one after the other exactly when none of the changes is
refused: a fill looks at its first address only. -/
theorem fill_eq_changes_iff (host : ByteOrder) (s : State) (width addr val len inc : BitVec 32)
    {line : List Char} {f : ℕ → List Char}
    (hline : parse line = .fill width addr val len inc)
    (hb : (Command.fill width addr val len inc).block s.dev = some b)
    (hf : ∀ i, parse (f i) = changeOf width addr val inc b.size i) :
    (List.range b.count).foldl (fun s i => (processCommand host s (f i)).1) s =
        (processCommand host s line).1 ↔
      ∀ i < b.count, ¬s.dev.size < addr + BitVec.ofNat 32 (b.size * i) := by
  obtain ⟨hsize, hn, hblock⟩ := block_map hb
  have hcount : b.count = (filled (s.dev.clip addr len) b.size).length := congrArg Block.count hblock
  have hrange : filled (s.dev.clip addr len) b.size = List.range b.count := by
    rw [hcount, filled, List.length_range]
  simp only [processCommand_eq, hf, hline, exec_fill hsize hn, hrange]
  constructor
  · intro heq i hi
    have hlen := congrArg (fun t : State => t.accesses.length) heq
    simp only [length_foldl_changeOf hn, State.perform, perform_accesses, List.length_append,
      List.length_map, Nat.add_left_cancel_iff, List.countP_eq_length] at hlen
    exact of_decide_eq_true (hlen i (List.mem_range.mpr hi))
  · intro h
    exact foldl_changeOf hn _ fun i hi => h i (List.mem_range.mp hi)

theorem fill_eq_changes_iff_four :
    (List.range 4).foldl (fun s i => (processCommand .little s (changeOf 8 16 7 1 1 i).line).1) sample =
      (processCommand .little sample "f8 10 7 4".toList).1 := by
  refine (fill_eq_changes_iff .little sample 8 16 7 4 1 (b := ⟨16, 1, 4⟩) (by decide) (by decide)
    (f := fun i => (changeOf 8 16 7 1 1 i).line) fun i => parse_line (by simp [changeOf])).mpr ?_
  decide

end Changes

end DcPerf.PciDebug
