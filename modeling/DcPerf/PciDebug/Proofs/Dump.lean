import DcPerf.Library.ShellText
import DcPerf.PciDebug.Proofs.Memory

/-!
# Dumps can be read back

A reader of a dump skips the words with a colon, which are addresses, and takes the others for numbers.
It gets the items of the dump, and so the bytes of the memory, and what was written there last.
-/

namespace DcPerf.PciDebug

open DcPerf.Library DcPerf.Library.ShellText

variable {host : ByteOrder} {m : Machine} {s : State} {c : Command} {b b' : Block} {n : ℕ}
  {width addr len : BitVec 32} {line line' : List Char} {lines : List (List Char)}

/-- The numbers of a dump. -/
def readDump (text : List Char) : List ℕ :=
  ((words text).filter fun w => !w.contains ':').map (valueIn 16)

/-- The bytes that a dump of items of `n` bytes shows. -/
def readBytes (order : ByteOrder) (n : ℕ) (text : List Char) : List Byte :=
  (readDump text).flatMap fun v => order.bytes n (BitVec.ofNat (8 * n) v)

/-! ## Words of a dump -/

theorem noBlank_xDigit {c : Char} (h : isXDigit c = true) : ShellText.isBlank c = false ∧ c ≠ ':' := by
  have hcode := isXDigit_iff.mp h
  refine ⟨?_, ?_⟩
  · rw [ShellText.isBlank, Bool.or_eq_false_iff, Bool.or_eq_false_iff]
    refine ⟨⟨?_, ?_⟩, ?_⟩
    all_goals
      rw [beq_eq_false_iff_ne]
      rintro rfl
      revert hcode
      decide
  · rintro rfl
    revert hcode
    decide

theorem isWord_upperHex {k : ℕ} (hk : 0 < k) (v : ℕ) : IsWord (upperHex k v) := by
  refine ⟨fun hnil => ?_, fun c hc => (noBlank_xDigit (isXDigit_upperHex k v c hc)).1⟩
  have hlen := length_upperHex k v
  rw [hnil, List.length_nil] at hlen
  omega

theorem isWord_address (v : ℕ) : IsWord (upperHex 8 v ++ [':']) := by
  refine ⟨by simp, fun c hc => ?_⟩
  rcases List.mem_append.mp hc with hc | hc
  · exact (noBlank_xDigit (isXDigit_upperHex 8 v c hc)).1
  · obtain rfl := List.mem_singleton.mp hc
    rfl

/-- An address is skipped, and the item after it is read. -/
theorem readDump_itemText (hn : 0 < n) (m : Machine) (addr : BitVec 32) (i : ℕ) (text : List Char) :
    readDump (itemText m n addr i ++ text) =
      (m.item n (addr + BitVec.ofNat 32 i)).toNat :: readDump text := by
  have hbound : (m.item n (addr + BitVec.ofNat 32 i)).toNat < 16 ^ (2 * n) := by
    have hpow : 16 ^ (2 * n) = 2 ^ (8 * n) := by
      rw [Nat.pow_mul, Nat.pow_mul]
    rw [hpow]
    exact BitVec.isLt _
  have hvalue : readDump (upperHex (2 * n) (m.item n (addr + BitVec.ofNat 32 i)).toNat ++ ' ' :: text) =
      (m.item n (addr + BitVec.ofNat 32 i)).toNat :: readDump text := by
    have hcolon : ':' ∉ upperHex (2 * n) (m.item n (addr + BitVec.ofNat 32 i)).toNat := fun hc =>
      (noBlank_xDigit (isXDigit_upperHex _ _ _ hc)).2 rfl
    rw [readDump, words_append_cons rfl, words_word (isWord_upperHex (by omega) _), List.singleton_append,
      List.filter_cons_of_pos (by simpa using hcolon), List.map_cons, valueIn_upperHex hbound]
    rfl
  by_cases hi : i % 16 = 0
  · have haddress (t : List Char) : readDump ('\n' :: (upperHex 8 (addr + BitVec.ofNat 32 i).toNat ++
        ':' :: ' ' :: t)) = readDump t := by
      have hsplit : '\n' :: (upperHex 8 (addr + BitVec.ofNat 32 i).toNat ++ ':' :: ' ' :: t) =
          [] ++ '\n' :: ((upperHex 8 (addr + BitVec.ofNat 32 i).toNat ++ [':']) ++ ' ' :: t) := by simp
      rw [readDump, hsplit, words_append_cons rfl, words_append_cons rfl, words_word (isWord_address _)]
      simp [readDump]
    rw [← hvalue, itemText, if_pos hi, ← haddress (upperHex (2 * n) _ ++ _)]
    simp only [List.cons_append, List.append_assoc, List.nil_append]
  · rw [← hvalue, itemText, if_neg hi]
    simp only [List.nil_append, List.append_assoc, List.cons_append]

/-- A reader of a dump gets its items. -/
theorem readDump_dumpText (hn : 0 < n) (m : Machine) (addr len : BitVec 32) :
    readDump (dumpText m n addr len) =
      (dumped len n).map fun i => (m.item n (addr + BitVec.ofNat 32 i)).toNat := by
  have hitems (l : List ℕ) (text : List Char) : readDump (l.flatMap (itemText m n addr) ++ text) =
      (l.map fun i => (m.item n (addr + BitVec.ofNat 32 i)).toNat) ++ readDump text := by
    induction l with
    | nil => rfl
    | cons i l ih =>
      rw [List.flatMap_cons, List.append_assoc, readDump_itemText hn, ih]
      rfl
  rw [dumpText, hitems]
  have hend : readDump ['\n', '\n'] = [] := by decide
  rw [hend, List.append_nil]

/-- A display of a block shows its items. -/
theorem readDump_text (h : (Command.display width addr len).block m.dev = some b) :
    readDump ((Command.display width addr len).text m) = (List.range b.count).map fun i =>
      (m.item b.size (b.addr + BitVec.ofNat 32 (b.size * i))).toNat := by
  obtain ⟨-, hpos, -⟩ := block_bounds h
  obtain ⟨hsize, hn, hb⟩ := block_map h
  have htext : (Command.display width addr len).text m =
      dumpText m b.size addr (m.dev.clip addr len) := by
    simp only [Command.text, if_neg hsize, hn]
  have haddr : b.addr = addr := congrArg Block.addr hb
  have hcount : b.count = (dumped (m.dev.clip addr len) b.size).length := congrArg Block.count hb
  rw [htext, readDump_dumpText hpos, hcount, haddr]
  simp [dumped, below, Nat.mul_comm]

/-! ## Dumps of the memory -/

/-- The bytes that a display of a block shows are those of the memory. -/
theorem readBytes_text (h : (Command.display width addr len).block m.dev = some b) (hf : b.Fits m.dev) :
    readBytes m.order b.size ((Command.display width addr len).text m) =
      m.dev.maddr.read (b.first m.dev) b.extent := by
  rw [readBytes, readDump_text h, List.flatMap_map, Block.extent, Memory.read_mul]
  refine List.flatMap_congr fun i hi => ?_
  rw [item_eq, BitVec.ofNat_toNat, BitVec.setWidth_eq,
    ByteOrder.bytes_word _ (Memory.length_read _ _ _), pos_of_fits hf (List.mem_range.mp hi)]

/-- A display that stays within the region prints its bytes, in a text that they can be read from. -/
theorem display_shows (host : ByteOrder) (s : State) (hline : Writes (.display width addr len) line)
    (h : (Command.display width addr len).block s.dev = some b) (hf : b.Fits s.dev) :
    ∃ text, (processCommand host s line).1.out = s.out ++ text ∧
      readBytes s.order b.size text = s.dev.maddr.read (b.first s.dev) b.extent := by
  refine ⟨(Command.display width addr len).text s.toMachine, ?_, readBytes_text h hf⟩
  rw [processCommand_eq, parse_of_writes hline]
  rfl

/-- The debugger in big-endian mode, on a region whose bytes count up from 1. -/
def sampleCounted : State :=
  { sample with
    dev := { sample.dev with maddr := fun a => BitVec.ofNat 8 (a + 1) }
    bigEndian := true }

theorem display_shows_counted : ∃ text,
    (processCommand .little sampleCounted (Command.display 16 2 6).line).1.out = [] ++ text ∧
      readBytes .big 2 text = [3, 4, 5, 6, 7, 8] :=
  display_shows .little sampleCounted (writes_line (c := .display 16 2 6) ⟨by decide, by decide⟩)
    (b := ⟨2, 2, 3⟩) (by decide) (by decide)

/-! ## What was written is displayed -/

theorem foldl_machine (host : ByteOrder) (s : State) (lines : List (List Char)) :
    (lines.foldl (fun s line => (processCommand host s line).1) s).toMachine =
      runAll (lines.map parse) s.toMachine := by
  induction lines generalizing s with
  | nil => rfl
  | cons line lines ih =>
    rw [List.foldl_cons, ih, processCommand_eq]
    rfl

theorem runAll_bigEndian (cs : List Command) (m : Machine) (h : ∀ c ∈ cs, ∀ big, c ≠ .setEndian big) :
    (runAll cs m).bigEndian = m.bigEndian := by
  induction cs generalizing m with
  | nil => rfl
  | cons c cs ih =>
    rw [runAll_cons, ih _ fun d hd => h d (List.mem_cons_of_mem _ hd)]
    cases c with
    | setEndian big => exact absurd rfl (h _ List.mem_cons_self big)
    | nothing | help | display _ _ _ | change _ _ _ | fill _ _ _ _ _ | showEndian | quit | invalid => rfl

theorem runAll_size (cs : List Command) (m : Machine) : (runAll cs m).dev.size = m.dev.size := by
  induction cs generalizing m with
  | nil => rfl
  | cons c cs ih => exact ih (c.run m)

/-- A display shows the values that were written to its items last, in the same mode, whatever was
done elsewhere since then. -/
theorem display_of_written (host : ByteOrder) (s : State) (lines : List (List Char)) (b b' : Block)
    (hw : (parse line).target s.dev = some b) (hf : b.Fits s.dev)
    (hlines : ∀ l ∈ lines, ∀ b' ∈ (parse l).target s.dev, b.Apart s.dev b')
    (hmode : ∀ l ∈ lines, ∀ big, parse l ≠ .setEndian big)
    (hd : Writes (.display width addr len) line')
    (hb : (Command.display width addr len).block s.dev = some b') (haddr : b'.addr = b.addr)
    (hsize : b'.size = b.size) (hcount : b'.count ≤ b.count) :
    ∃ text, (processCommand host
        ((line :: lines).foldl (fun s l => (processCommand host s l).1) s) line').1.out =
        ((line :: lines).foldl (fun s l => (processCommand host s l).1) s).out ++ text ∧
      readDump text = (List.range b'.count).map fun i =>
        (((parse line).value i).setWidth (8 * b.size)).toNat := by
  generalize ht : (line :: lines).foldl (fun s l => (processCommand host s l).1) s = t
  have hmachine : t.toMachine = runAll (lines.map parse) ((parse line).run s.toMachine) := by
    rw [← ht, foldl_machine]
    rfl
  have hmap {P : Command → Prop} (h : ∀ l ∈ lines, P (parse l)) : ∀ d ∈ lines.map parse, P d := by
    intro d hd
    obtain ⟨l, hl, rfl⟩ := List.mem_map.mp hd
    exact h l hl
  have hendian : (runAll (lines.map parse) ((parse line).run s.toMachine)).bigEndian = s.bigEndian := by
    rw [runAll_bigEndian _ _ (hmap hmode)]
    cases hc : parse line with
    | setEndian big =>
      rw [hc] at hw
      cases hw
    | nothing | help | display _ _ _ | change _ _ _ | fill _ _ _ _ _ | showEndian | quit | invalid => rfl
  have hblock : (Command.display width addr len).block t.dev = some b' := by
    rw [hmachine, block_congr (runAll_size _ _)]
    exact hb
  refine ⟨(Command.display width addr len).text t.toMachine, ?_, ?_⟩
  · rw [processCommand_eq, parse_of_writes hd]
    rfl
  · rw [readDump_text hblock]
    refine List.map_congr_left fun i hi => ?_
    have hitem := item_of_run hw hf (Nat.lt_of_lt_of_le (List.mem_range.mp hi) hcount) (lines.map parse)
      (hmap hlines) hendian
    rw [haddr, hsize, hmachine, hitem]

theorem display_of_written_change : ∃ text,
    (processCommand .little ([(Command.change 8 16 255).line, (Command.change 8 32 1).line].foldl
      (fun s l => (processCommand .little s l).1) sample) (Command.display 8 16 1).line).1.out =
      ([(Command.change 8 16 255).line, (Command.change 8 32 1).line].foldl
        (fun s l => (processCommand .little s l).1) sample).out ++ text ∧ readDump text = [255] := by
  have hc : parse (Command.change 8 16 255).line = .change 8 16 255 := parse_line (by decide)
  have hc' : parse (Command.change 8 32 1).line = .change 8 32 1 := parse_line (by decide)
  have hshown := display_of_written .little sample [(Command.change 8 32 1).line] ⟨16, 1, 1⟩ ⟨16, 1, 1⟩
    (by rw [hc]; decide) (by decide) ?_ ?_ (writes_line (c := .display 8 16 1) ⟨by decide, by decide⟩) (by decide) rfl rfl (Nat.le_refl 1)
  · rw [hc] at hshown
    exact hshown
  · rw [List.forall_mem_singleton, hc']
    rintro b hb
    obtain rfl : (⟨32, 1, 1⟩ : Block) = b := Option.some.inj hb
    exact apart_of_fits (by decide) (by decide) (by decide)
  · rw [List.forall_mem_singleton, hc']
    exact fun big => nofun

end DcPerf.PciDebug
