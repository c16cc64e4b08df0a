import DcPerf.PciDebug.Language

/-!
# The debugger executes its command language

`process_command` does what the command of the line says: the same accesses, the same memory and the
same text, whatever the byte order of the host. A session executes the commands of its lines one after
the other.
-/

namespace DcPerf.PciDebug

open DcPerf.Library DcPerf.Library.Scanf

variable {host : ByteOrder} {n : ℕ} {s : State} {m m' : Machine} {addr : BitVec 32} {c : Command}
  {line : List Char}

/-! ## Accesses -/

@[simp] theorem perform_size (m : Machine) (as : List Access) :
    (m.perform as).dev.size = m.dev.size := rfl

@[simp] theorem perform_offset (m : Machine) (as : List Access) :
    (m.perform as).dev.offset = m.dev.offset := rfl

@[simp] theorem perform_bigEndian (m : Machine) (as : List Access) :
    (m.perform as).bigEndian = m.bigEndian := rfl

@[simp] theorem perform_accesses (m : Machine) (as : List Access) :
    (m.perform as).accesses = m.accesses ++ as := rfl

@[simp] theorem perform_maddr (m : Machine) (as : List Access) :
    (m.perform as).dev.maddr = as.foldl Access.apply m.dev.maddr := rfl

@[simp] theorem perform_nil (m : Machine) : m.perform [] = m := by
  simp [Machine.perform]

theorem perform_perform (m : Machine) (as bs : List Access) :
    (m.perform as).perform bs = m.perform (as ++ bs) := by
  simp [Machine.perform, List.append_assoc]

theorem load_eq (s : State) (addr : BitVec 32) (n : ℕ) :
    s.load addr n = (s.dev.maddr.read (s.dev.posOf addr) n,
      s.perform [.load (s.dev.posOf addr) n]) := rfl

theorem store_eq (s : State) (addr : BitVec 32) (bs : List Byte) :
    s.store addr bs = s.perform [.store (s.dev.posOf addr) bs] := rfl

/-! ## Byte orders -/

/-- A little-endian write stores the lowest byte first, on any host. -/
theorem writeLe_eq (data : BitVec (8 * n)) :
    writeLe host n s addr data = s.store addr (ByteOrder.little.bytes n data) := by
  unfold writeLe
  cases host with
  | little => rfl
  | big =>
    show s.store addr (ByteOrder.big.bytes n (bswap n data)) = _
    rw [ByteOrder.bytes_bswap]
    rfl

theorem writeBe_eq (data : BitVec (8 * n)) :
    writeBe host n s addr data = s.store addr (ByteOrder.big.bytes n data) := by
  unfold writeBe
  cases host with
  | little =>
    show s.store addr (ByteOrder.little.bytes n (bswap n data)) = _
    rw [ByteOrder.bytes_bswap]
    rfl
  | big => rfl

theorem readLe_eq :
    readLe host n s addr = (ByteOrder.little.word n (s.load addr n).1, (s.load addr n).2) := by
  unfold readLe
  cases host with
  | little => rfl
  | big =>
    show (bswap n (ByteOrder.big.word n (s.load addr n).1), (s.load addr n).2) = _
    rw [ByteOrder.bswap_word _ (by simp [State.load])]
    rfl

theorem readBe_eq :
    readBe host n s addr = (ByteOrder.big.word n (s.load addr n).1, (s.load addr n).2) := by
  unfold readBe
  cases host with
  | little =>
    show (bswap n (ByteOrder.little.word n (s.load addr n).1), (s.load addr n).2) = _
    rw [ByteOrder.bswap_word _ (by simp [State.load])]
    rfl
  | big => rfl

/-- The writes of `change_mem` and `fill_mem`. -/
theorem write_eq (data : BitVec (8 * n)) :
    (if s.bigEndian = false then writeLe host n s addr data else writeBe host n s addr data) =
      s.perform [s.toMachine.put n addr data] := by
  unfold Machine.put Machine.order
  cases h : s.bigEndian with
  | false =>
    rw [if_pos rfl, writeLe_eq, store_eq]
    rfl
  | true =>
    rw [if_neg (by simp), writeBe_eq, store_eq]
    rfl

/-- The reads of `display_mem`. -/
theorem read_eq :
    (if s.bigEndian = false then readLe host n s addr else readBe host n s addr) =
      (s.toMachine.item n addr,
        s.perform [.load (s.dev.posOf addr) n]) := by
  unfold Machine.item Machine.order
  cases h : s.bigEndian with
  | false =>
    rw [if_pos rfl, readLe_eq, load_eq]
    rfl
  | true =>
    rw [if_neg (by simp), readBe_eq, load_eq]
    rfl

/-- A single byte has one order. -/
theorem write8_eq (data : BitVec 8) :
    write8 host s addr data =
      s.perform [s.toMachine.put 1 addr data] := by
  unfold write8 Machine.put
  rw [store_eq, ByteOrder.bytes_one, ByteOrder.bytes_one]

theorem read8_eq :
    read8 host s addr = (s.toMachine.item 1 addr,
      s.perform [.load (s.dev.posOf addr) 1]) := by
  have hread : s.dev.maddr.read (s.dev.posOf addr) 1 = [s.dev.maddr (s.dev.posOf addr)] := by
    simp [Memory.read]
  unfold read8 Machine.item
  rw [load_eq]
  simp only [hread, ByteOrder.word_one]

/-! ## Loops -/

/-- A loop whose turns each make one access and print one text. `P` is what the turns rely on. -/
theorem foldl_perform {step : State → ℕ → State} {f : ℕ → Access} {g : ℕ → List Char}
    (P : Machine → Prop) (hP : ∀ m i, P m → P (m.perform [f i])) (is : List ℕ)
    (hstep : ∀ s i, P s.toMachine → step s i = (s.perform [f i]).print (g i))
    (s : State) (hs : P s.toMachine) :
    is.foldl step s = (s.perform (is.map f)).print (is.flatMap g) := by
  induction is generalizing s with
  | nil => simp [State.perform, State.print]
  | cons i is ih =>
    rw [List.foldl_cons, hstep s i hs, ih _ (hP _ _ hs)]
    simp [State.perform, State.print, perform_perform]

/-- The loops of `display_mem`. -/
theorem displayLoop_eq {len : BitVec 32} {item : State → BitVec 32 → List Char × State}
    (hitem : ∀ s a, item s a = (upperHex (2 * n) (s.toMachine.item n a).toNat,
      s.perform [.load (s.dev.posOf a) n])) :
    displayLoop s addr len n item =
      (s.perform ((dumped len n).map fun i =>
        .load (s.dev.posOf (addr + BitVec.ofNat 32 i)) n)).print
        ((dumped len n).flatMap (itemText s.toMachine n addr)) := by
  -- Loads leave the device as it is.
  apply foldl_perform (fun m => m.dev = s.dev ∧ m.bigEndian = s.bigEndian)
  · rintro m i ⟨hdev, hbig⟩
    exact ⟨hdev, hbig⟩
  · rintro t i ⟨hdev, hbig⟩
    have htext (u : State) (hu : u.toMachine = t.toMachine) :
        upperHex (2 * n) (u.toMachine.item n (addr + BitVec.ofNat 32 i)).toNat =
          upperHex (2 * n) (s.toMachine.item n (addr + BitVec.ofNat 32 i)).toNat := by
      rw [hu]
      unfold Machine.item Machine.order
      rw [hdev, hbig]
    simp only [hitem, itemText]
    split
    · simp only [State.print, State.perform, htext, hdev, List.append_assoc]
    · simp only [State.print, State.perform, htext, hdev, List.nil_append]
  · exact ⟨rfl, rfl⟩

/-- The loops of `fill_mem`. -/
theorem fillLoop_eq {step : State → ℕ → State} {val inc : BitVec 32} (is : List ℕ)
    (hstep : ∀ s i, step s i = s.perform [s.toMachine.put n (addr + BitVec.ofNat 32 (n * i))
      ((val + BitVec.ofNat 32 i * inc).setWidth (8 * n))]) :
    is.foldl step s =
      s.perform (is.map fun i => s.toMachine.put n (addr + BitVec.ofNat 32 (n * i))
        ((val + BitVec.ofNat 32 i * inc).setWidth (8 * n))) := by
  have hloop : is.foldl step s =
      (s.perform (is.map fun i => s.toMachine.put n (addr + BitVec.ofNat 32 (n * i))
        ((val + BitVec.ofNat 32 i * inc).setWidth (8 * n)))).print (is.flatMap fun _ => []) := by
    apply foldl_perform (fun m => m.dev.offset = s.dev.offset ∧ m.bigEndian = s.bigEndian)
    · exact fun m i h => h
    · rintro t i ⟨hoffset, hbig⟩
      rw [hstep]
      simp only [Machine.put, Machine.order, Device.posOf, hoffset, hbig, State.print, List.append_nil]
    · exact ⟨rfl, rfl⟩
  have hsilent : is.flatMap (fun _ => ([] : List Char)) = [] := by simp [List.flatMap_eq_nil_iff]
  rw [hloop, hsilent]
  simp [State.print, State.perform]

/-! ## Commands -/

theorem print_print (s : State) (a b : List Char) : (s.print a).print b = s.print (a ++ b) := by
  simp [State.print, List.append_assoc]

/-- A command that prints nothing. -/
theorem exec_of_silent (c : Command) (hrun : c.endianAfter s.bigEndian = s.bigEndian)
    {as : List Access} (haccess : c.accesses s.toMachine = as) (htext : c.text s.toMachine = []) :
    c.exec s = s.perform as := by
  unfold Command.exec Command.run State.perform
  rw [hrun, haccess, htext, List.append_nil]
  rfl

/-- A command that accesses nothing. -/
theorem exec_of_idle (c : Command) (hrun : c.endianAfter s.bigEndian = s.bigEndian)
    {text : List Char} (haccess : c.accesses s.toMachine = []) (htext : c.text s.toMachine = text) :
    c.exec s = s.print text := by
  unfold Command.exec Command.run State.print
  rw [hrun, haccess, htext, perform_nil]

/-- The widths that there are. -/
theorem itemSize_cases (width : BitVec 32) :
    (width = 8 ∧ itemSize width = some 1) ∨ (width = 16 ∧ itemSize width = some 2) ∨
      (width = 32 ∧ itemSize width = some 4) ∨
      ((width ≠ 8 ∧ width ≠ 16 ∧ width ≠ 32) ∧ itemSize width = none) := by
  unfold itemSize
  by_cases h8 : width = 8
  · exact Or.inl ⟨h8, if_pos h8⟩
  · rw [if_neg h8]
    by_cases h16 : width = 16
    · exact Or.inr (Or.inl ⟨h16, if_pos h16⟩)
    · rw [if_neg h16]
      by_cases h32 : width = 32
      · exact Or.inr (Or.inr (Or.inl ⟨h32, if_pos h32⟩))
      · exact Or.inr (Or.inr (Or.inr ⟨⟨h8, h16, h32⟩, if_neg h32⟩))

section Exec

variable {width val len inc : BitVec 32}

/-- An address beyond the region is refused. -/
theorem display_refused (h : s.dev.size < addr) :
    (Command.display width addr len).exec s = addressError s :=
  exec_of_idle _ rfl (if_pos h) (if_pos h)

theorem change_refused (h : s.dev.size < addr) :
    (Command.change width addr val).exec s = addressError s :=
  exec_of_idle _ rfl (if_pos h) (if_pos h)

theorem fill_refused (h : s.dev.size < addr) :
    (Command.fill width addr val len inc).exec s = addressError s :=
  exec_of_idle _ rfl (if_pos h) (if_pos h)

/-- So is a width that there is not. -/
theorem display_noWidth (h : ¬s.dev.size < addr) (hn : itemSize width = none) :
    (Command.display width addr len).exec s = (syntaxError s).print ['\n'] := by
  rw [syntaxError, print_print]
  exact exec_of_idle _ rfl (by simp only [Command.accesses, if_neg h, hn])
    (by simp only [Command.text, if_neg h, hn])

theorem change_noWidth (h : ¬s.dev.size < addr) (hn : itemSize width = none) :
    (Command.change width addr val).exec s = syntaxError s :=
  exec_of_idle _ rfl (by simp only [Command.accesses, if_neg h, hn])
    (by simp only [Command.text, if_neg h, hn, if_pos])

theorem fill_noWidth (h : ¬s.dev.size < addr) (hn : itemSize width = none) :
    (Command.fill width addr val len inc).exec s = syntaxError s :=
  exec_of_idle _ rfl (by simp only [Command.accesses, if_neg h, hn])
    (by simp only [Command.text, if_neg h, hn, if_pos])

theorem exec_display (h : ¬s.dev.size < addr) (hn : itemSize width = some n) :
    (Command.display width addr len).exec s =
      (s.perform ((dumped (s.dev.clip addr len) n).map fun i =>
        .load (s.dev.posOf (addr + BitVec.ofNat 32 i)) n)).print
        (dumpText s.toMachine n addr (s.dev.clip addr len)) := by
  simp only [Command.exec, Command.run, Command.endianAfter, Command.accesses, Command.text,
    if_neg h, hn, State.perform, State.print]
  rfl

theorem exec_change (h : ¬s.dev.size < addr) (hn : itemSize width = some n) :
    (Command.change width addr val).exec s =
      s.perform [s.toMachine.put n addr (val.setWidth (8 * n))] :=
  exec_of_silent _ rfl (by simp only [Command.accesses, if_neg h, hn]) (by simp [Command.text, h, hn])

theorem exec_fill (h : ¬s.dev.size < addr) (hn : itemSize width = some n) :
    (Command.fill width addr val len inc).exec s =
      s.perform ((filled (s.dev.clip addr len) n).map fun i =>
        s.toMachine.put n (addr + BitVec.ofNat 32 (n * i))
          ((val + BitVec.ofNat 32 i * inc).setWidth (8 * n))) :=
  exec_of_silent _ rfl (by simp only [Command.accesses, if_neg h, hn]) (by simp [Command.text, h, hn])

end Exec

theorem displayMem_eq : displayMem host s line = ((displayCommand line).exec s, 0) := by
  unfold displayMem displayCommand
  rcases twoOperands line with _ | ⟨width, addr, len⟩
  · exact congrArg (·, 0) (exec_of_idle .invalid rfl rfl rfl).symm
  · by_cases hsize : s.dev.size < addr
    · simp only [if_pos hsize, display_refused hsize]
    · simp only [if_neg hsize]
      rcases itemSize_cases width with ⟨rfl, hn⟩ | ⟨rfl, hn⟩ | ⟨rfl, hn⟩ | ⟨⟨h8, h16, h32⟩, hn⟩
      · rw [exec_display hsize hn, if_pos rfl, displayLoop_eq fun s a => congrArg
          (fun p : BitVec 8 × State => (upperHex 2 p.1.toNat, p.2)) read8_eq, print_print, print_print]
        rfl
      · rw [exec_display hsize hn, if_neg (by decide), if_pos rfl, displayLoop_eq fun s a => congrArg
          (fun p : BitVec 16 × State => (upperHex 4 p.1.toNat, p.2)) (read_eq (n := 2)), print_print,
          print_print]
        rfl
      · rw [exec_display hsize hn, if_neg (by decide), if_neg (by decide), if_pos rfl,
          displayLoop_eq fun s a => congrArg
            (fun p : BitVec 32 × State => (upperHex 8 p.1.toNat, p.2)) (read_eq (n := 4)), print_print,
          print_print]
        rfl
      · rw [display_noWidth hsize hn, if_neg h8, if_neg h16, if_neg h32]

theorem changeMem_eq : changeMem host s line = ((changeCommand line).exec s, 0) := by
  unfold changeMem changeCommand
  rcases twoOperands line with _ | ⟨width, addr, val⟩
  · exact congrArg (·, 0) (exec_of_idle .invalid rfl rfl rfl).symm
  · by_cases hsize : s.dev.size < addr
    · simp only [if_pos hsize, change_refused hsize]
    · simp only [if_neg hsize]
      unfold changeItem
      rcases itemSize_cases width with ⟨rfl, hn⟩ | ⟨rfl, hn⟩ | ⟨rfl, hn⟩ | ⟨⟨h8, h16, h32⟩, hn⟩
      · rw [exec_change hsize hn, if_pos rfl, write8_eq]
      · rw [exec_change hsize hn, if_neg (by decide), if_pos rfl]
        exact congrArg (·, 0) (write_eq (n := 2) _)
      · have hval : val.setWidth (8 * 4) = val := BitVec.setWidth_eq val
        rw [exec_change hsize hn, if_neg (by decide), if_neg (by decide), if_pos rfl, hval]
        exact congrArg (·, 0) (write_eq (n := 4) val)
      · rw [change_noWidth hsize hn, if_neg h8, if_neg h16, if_neg h32]

theorem fillMem_eq : fillMem host s line = ((fillCommand line).exec s, 0) := by
  unfold fillMem fillCommand
  rcases fillOperands line with _ | ⟨width, addr, val, len, inc⟩
  · exact congrArg (·, 0) (exec_of_idle .invalid rfl rfl rfl).symm
  · by_cases hsize : s.dev.size < addr
    · simp only [if_pos hsize, fill_refused hsize]
    · simp only [if_neg hsize]
      rcases itemSize_cases width with ⟨rfl, hn⟩ | ⟨rfl, hn⟩ | ⟨rfl, hn⟩ | ⟨⟨h8, h16, h32⟩, hn⟩
      · rw [exec_fill hsize hn, if_pos rfl, filled, Nat.div_one]
        refine congrArg (·, 0) (fillLoop_eq (n := 1) _ fun s i => ?_)
        rw [Nat.one_mul]
        exact write8_eq _
      · rw [exec_fill hsize hn, if_neg (by decide), if_pos rfl]
        refine congrArg (·, 0) (fillLoop_eq (n := 2) _ fun s i => ?_)
        rw [BitVec.ofNat_mul]
        exact write_eq (n := 2) _
      · rw [exec_fill hsize hn, if_neg (by decide), if_neg (by decide), if_pos rfl]
        refine congrArg (·, 0) (fillLoop_eq (n := 4) _ fun s i => ?_)
        have hval : (val + BitVec.ofNat 32 i * inc).setWidth (8 * 4) = val + BitVec.ofNat 32 i * inc :=
          BitVec.setWidth_eq _
        rw [BitVec.ofNat_mul, hval]
        exact write_eq (n := 4) _
      · rw [fill_noWidth hsize hn, if_neg h8, if_neg h16, if_neg h32]

theorem exec_setEndian (s : State) (big : Bool) :
    (Command.setEndian big).exec s = { s with bigEndian := big } := by
  simp [Command.exec, Command.run, Command.accesses, Command.endianAfter, Command.text]

theorem endianCommand_invalid (hstatus : ¬(sscanf line [.skipChar, .char]).status < 0)
    (hb : sscanf line [.skipChar, .char] ≠ ⟨1, [.char 'b']⟩)
    (hl : sscanf line [.skipChar, .char] ≠ ⟨1, [.char 'l']⟩) : endianCommand line = .invalid := by
  unfold endianCommand
  simp only [if_neg hstatus]

theorem changeEndian_eq : changeEndian s line = ((endianCommand line).exec s, 0) := by
  unfold changeEndian
  by_cases hstatus : (sscanf line [.skipChar, .char]).status < 0
  · have hshow : endianCommand line = .showEndian := if_pos hstatus
    simp only [if_pos hstatus, hshow]
    exact congrArg (·, 0) (exec_of_idle .showEndian rfl rfl rfl).symm
  · simp only [if_neg hstatus]
    split
    · rename_i heq
      have hbig : endianCommand line = .setEndian true := by simp [endianCommand, heq]
      rw [hbig, exec_setEndian]
    · rename_i heq
      have hlittle : endianCommand line = .setEndian false := by simp [endianCommand, heq]
      rw [hlittle, exec_setEndian]
    · rename_i hb hl
      have hinvalid : Command.invalid.exec s = syntaxError s := exec_of_idle .invalid rfl rfl rfl
      rw [endianCommand_invalid hstatus hb hl, hinvalid]

/-- Only the commands that ask to leave have a negative status. -/
theorem status_operands (line : List Char) : (displayCommand line).status = 0 ∧
    (changeCommand line).status = 0 ∧ (fillCommand line).status = 0 ∧
    (endianCommand line).status = 0 := by
  refine ⟨?_, ?_, ?_, ?_⟩
  · unfold displayCommand
    cases twoOperands line <;> rfl
  · unfold changeCommand
    cases twoOperands line <;> rfl
  · unfold fillCommand
    cases fillOperands line <;> rfl
  · unfold endianCommand
    simp only
    split
    · rfl
    · split <;> rfl

/-- `process_command` executes the command of the line. -/
theorem processCommand_eq (host : ByteOrder) (s : State) (line : List Char) :
    processCommand host s line = ((parse line).exec s, (parse line).status) := by
  have hsilent (c : Command) (h : c = .nothing ∨ c = .quit) : c.exec s = s := by
    rcases h with rfl | rfl
    · exact (exec_of_idle .nothing rfl rfl rfl).trans (by simp [State.print, Command.text])
    · exact (exec_of_idle .quit rfl rfl rfl).trans (by simp [State.print, Command.text])
  obtain ⟨hdisplay, hchange, hfill, hendian⟩ := status_operands line
  unfold processCommand
  split
  · exact congrArg (·, 0) (hsilent .nothing (.inl rfl)).symm
  · exact congrArg (·, 0) (exec_of_idle .help rfl rfl rfl).symm
  · rw [changeMem_eq, ← hchange]
    rfl
  · rw [changeMem_eq, ← hchange]
    rfl
  · rw [displayMem_eq, ← hdisplay]
    rfl
  · rw [displayMem_eq, ← hdisplay]
    rfl
  · rw [changeEndian_eq, ← hendian]
    rfl
  · rw [changeEndian_eq, ← hendian]
    rfl
  · rw [fillMem_eq, ← hfill]
    rfl
  · rw [fillMem_eq, ← hfill]
    rfl
  · exact congrArg (·, -1) (hsilent .quit (.inr rfl)).symm
  · exact congrArg (·, -1) (hsilent .quit (.inr rfl)).symm
  · -- No other letter is a command.
    have hparse : parse line = .nothing := by
      unfold parse
      split <;> simp_all
    rw [hparse, hsilent .nothing (.inl rfl)]
    rfl

end DcPerf.PciDebug
