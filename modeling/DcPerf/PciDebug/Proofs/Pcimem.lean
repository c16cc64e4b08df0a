import DcPerf.Library.ShellText
import DcPerf.Library.Words
import DcPerf.PciDebug.Pcimem
import DcPerf.PciDebug.Proofs.Dump

/-!
# What `pcimem` prints and changes

The items that were read can be found from what is printed, although repeated ones are left out. All
accesses lie in the mapping, and only the last item is changed.
-/

namespace DcPerf.PciDebug.Pcimem

open DcPerf.Library DcPerf.Library.ShellText DcPerf.Library.Elision DcPerf.Library.Scanf

variable {host : ByteOrder} {sys : System} {r : Request} {width : ℕ} {mem : Memory}
  {target : BitVec 64} {i k p : ℕ} {argv0 : List Char} {args : List (List Char)} {run : Run}

/-! ## The listing -/

/-- What is printed for an entry. -/
def entryText (target : BitVec 64) (width : ℕ) : Entry (BitVec 64) → List Char
  | .shown i x => itemLine target width i x
  | .mark => "...\n".toList

/-- The items that are read. -/
def items (host : ByteOrder) (sys : System) (r : Request) (width : ℕ) (mem : Memory) :
    List (BitVec 64) := (List.range (itemsRead r)).map (readItem host sys r width mem)

theorem dumpItem_out (s : Dump) (xs : List (BitVec 64)) :
    let t := dumpItem host sys r width mem s i
    s.out ++ (listing i (if i = 0 then none else some s.prevReadResult) s.readResultDupped
        (readItem host sys r width mem i :: xs)).flatMap (entryText r.target width) =
      t.out ++ (listing (i + 1) (some t.prevReadResult) t.readResultDupped xs).flatMap
        (entryText r.target width) := by
  by_cases hshown : readItem host sys r width mem i ≠ s.prevReadResult ∨ i = 0
  · have hprev : (if i = 0 then none else some s.prevReadResult) ≠
        some (readItem host sys r width mem i) := by
      rcases hshown with hne | rfl
      · split
        · simp
        · simpa using hne.symm
      · simp
    rw [listing, if_neg hprev]
    simp [dumpItem, hshown, entryText]
  · obtain ⟨heq, hi⟩ := not_or.mp hshown
    have hprev : (if i = 0 then none else some s.prevReadResult) =
        some (readItem host sys r width mem i) := by
      rw [if_neg hi, not_not.mp heq]
    rw [hprev, listing, if_pos rfl]
    cases hd : s.readResultDupped <;> simp [dumpItem, hshown, hd, entryText]

/-- The loop prints the listing of the items. -/
theorem dumpLoop_eq (host : ByteOrder) (sys : System) (r : Request) (width : ℕ) (mem : Memory) :
    dumpLoop host sys r width mem =
      (listing 0 none false (items host sys r width mem)).flatMap (entryText r.target width) := by
  have hloop (k i : ℕ) (s : Dump) : ((List.range' i k).foldl (dumpItem host sys r width mem) s).out =
      s.out ++ (listing i (if i = 0 then none else some s.prevReadResult) s.readResultDupped
        ((List.range' i k).map (readItem host sys r width mem))).flatMap (entryText r.target width) := by
    induction k generalizing i s with
    | zero => simp [listing]
    | succ k ih =>
      rw [List.range'_succ, List.foldl_cons, ih, List.map_cons, dumpItem_out, if_neg (Nat.succ_ne_zero i)]
  rw [dumpLoop, items, List.range_eq_range', hloop]
  rfl

/-! ## The reader -/

/-- The pairs of an address and a value. -/
def readPairs : List (List Char) → List (ℕ × BitVec 64)
  | w :: v :: ws =>
    if w = ['.', '.', '.'] then readPairs (v :: ws)
    else (valueIn 16 (w.drop 2).dropLast, BitVec.ofNat 64 (valueIn 16 (v.drop 2))) :: readPairs ws
  | _ => []

/-- The items that a listing tells, if it starts at an offset and has a number of items. -/
def readListing (target : BitVec 64) (width count : ℕ) (text : List Char) : List (BitVec 64) :=
  expand count ((readPairs (words text)).map fun e =>
    ((BitVec.ofNat 32 e.1 - target.setWidth 32).toNat / width, e.2))

theorem isWord_hex {k n : ℕ} (post : List Char) (hpost : ∀ c ∈ post, ShellText.isBlank c = false) :
    IsWord (['0', 'x'] ++ paddedHex k n ++ post) := by
  refine ⟨by simp, fun c hc => ?_⟩
  simp only [List.mem_append, List.mem_cons, List.not_mem_nil, or_false] at hc
  rcases hc with ((rfl | rfl) | hc) | hc
  · rfl
  · rfl
  · exact (noBlank_xDigit (isXDigit_upperHex _ _ c hc)).1
  · exact hpost c hc

/-- The words of a line. -/
theorem words_itemLine (x : BitVec 64) (text : List Char) :
    words (itemLine target width i x ++ text) =
      (['0', 'x'] ++ paddedHex 4 ((target + BitVec.ofNat 64 (i * width)).setWidth 32).toNat ++ [':']) ::
        (['0', 'x'] ++ paddedHex (2 * width) x.toNat ++ []) :: words text := by
  have hsplit : itemLine target width i x ++ text =
      (['0', 'x'] ++ paddedHex 4 ((target + BitVec.ofNat 64 (i * width)).setWidth 32).toNat ++ [':']) ++
        ' ' :: ((['0', 'x'] ++ paddedHex (2 * width) x.toNat ++ []) ++ '\n' :: text) := by
    simp [itemLine]
  rw [hsplit, words_append_cons (b := ' ') rfl, words_append_cons (b := '\n') rfl,
    words_word (isWord_hex [':'] (by simp [isBlank])), words_word (isWord_hex [] (by simp))]
  rfl

theorem words_mark (text : List Char) : words ("...\n".toList ++ text) = ['.', '.', '.'] :: words text := by
  have hsplit : "...\n".toList ++ text = ['.', '.', '.'] ++ '\n' :: text := by simp
  rw [hsplit, words_append_cons rfl, words_word ⟨by simp, by simp [isBlank]⟩]
  rfl

/-- A reader takes the pairs of the entries that are shown. -/
theorem readPairs_entries (es : List (Entry (BitVec 64))) :
    readPairs (words (es.flatMap (entryText target width))) = (shown es).map fun e =>
      (((target + BitVec.ofNat 64 (e.1 * width)).setWidth 32).toNat, e.2) := by
  induction es with
  | nil => rfl
  | cons e es ih =>
    rw [List.flatMap_cons]
    cases e with
    | shown i x =>
      have hdots : ['0', 'x'] ++ paddedHex 4 ((target + BitVec.ofNat 64 (i * width)).setWidth 32).toNat ++
          [':'] ≠ ['.', '.', '.'] := fun h => absurd (List.cons.inj h).1 (by decide)
      rw [entryText, words_itemLine, readPairs, if_neg hdots, ih]
      simp [shown, valueIn_paddedHex]
    | mark =>
      rw [entryText, words_mark]
      have hskip (ws : List (List Char)) : readPairs (['.', '.', '.'] :: ws) = readPairs ws := by
        cases ws with
        | nil => rfl
        | cons w ws => exact if_pos rfl
      rw [hskip, ih]
      rfl

/-- The index of an item, from its address. -/
theorem index_eq (hw : 0 < width) (hi : i * width < 2 ^ 32) :
    (BitVec.ofNat 32 ((target + BitVec.ofNat 64 (i * width)).setWidth 32).toNat -
      target.setWidth 32).toNat / width = i := by
  have hword : BitVec.ofNat 32 ((target + BitVec.ofNat 64 (i * width)).setWidth 32).toNat -
      target.setWidth 32 = BitVec.ofNat 32 (i * width) := by
    rw [BitVec.ofNat_toNat, BitVec.setWidth_eq, BitVec.setWidth_add _ _ (by omega),
      BitVec.setWidth_ofNat_of_le (by omega), BitVec.add_comm, BitVec.add_sub_cancel]
  rw [hword, BitVec.toNat_ofNat, Nat.mod_eq_of_lt hi, Nat.mul_div_cancel _ hw]

/-- All items are found from the listing. -/
theorem readListing_dumpLoop (host : ByteOrder) (sys : System) (mem : Memory) (hw : 0 < width)
    (h : itemsRead r * width ≤ 2 ^ 32) :
    readListing r.target width (itemsRead r) (dumpLoop host sys r width mem) =
      items host sys r width mem := by
  have hlen : (items host sys r width mem).length = itemsRead r := by simp [items]
  have hindex : (shown (listing 0 none false (items host sys r width mem))).map
      ((fun e => ((BitVec.ofNat 32 e.1 - r.target.setWidth 32).toNat / width, e.2)) ∘ fun e =>
        (((r.target + BitVec.ofNat 64 (e.1 * width)).setWidth 32).toNat, e.2)) =
      shown (listing 0 none false (items host sys r width mem)) := by
    refine (List.map_congr_left fun e he => ?_).trans (List.map_id _)
    have hlt : e.1 < itemsRead r := by
      have hbound := (shown_lt (x := e.2) he).2
      rwa [hlen, Nat.zero_add] at hbound
    have hmul : (e.1 + 1) * width ≤ itemsRead r * width := Nat.mul_le_mul_right _ hlt
    rw [Nat.succ_mul] at hmul
    exact Prod.ext (index_eq hw (by omega)) rfl
  rw [readListing, dumpLoop_eq, readPairs_entries, List.map_map, hindex]
  have hexpand := expand_listing 0 (items host sys r width mem)
  rwa [Nat.zero_add, hlen] at hexpand

/-! ## Runs that get to the mapping -/

/-- The request is valid, and its file can be opened and mapped. -/
structure Maps (sys : System) (r : Request) (width : ℕ) (mem : Memory) : Prop where
  typed : typeWidth r.accessType = some width
  opens : ∃ fd, sys.openFile r.filename = .ok fd
  maps : ∃ address,
    sys.mmap r.filename (targetBase sys r.target) (mapSize sys r width) = .ok (address, mem)

theorem Maps.width_pos (h : Maps sys r width mem) : 0 < width := by
  have hw := h.typed
  unfold typeWidth at hw
  split at hw
  · obtain rfl : 1 = width := Option.some.inj hw
    omega
  · split at hw
    · obtain rfl : 2 = width := Option.some.inj hw
      omega
    · split at hw
      · obtain rfl : 4 = width := Option.some.inj hw
        omega
      · split at hw
        · obtain rfl : 8 = width := Option.some.inj hw
          omega
        · cases hw

/-- The loads of the loop. -/
def loads (sys : System) (r : Request) (width : ℕ) : List Access :=
  (List.range (itemsRead r)).map fun i => .load (posOf sys r width i) width

/-- What a run does after the mapping. -/
structure Done (host : ByteOrder) (sys : System) (r : Request) (width : ℕ) (mem : Memory) (run : Run)
    (maddr : Memory) (post : List Char) (accesses : List Access) : Prop where
  out : ∃ fd address, sys.openFile r.filename = .ok fd ∧
    sys.mmap r.filename (targetBase sys r.target) (mapSize sys r width) = .ok (address, mem) ∧
    run.out = openedText sys r width fd ++ mappedText address ++ dumpLoop host sys r width mem ++ post
  maddr : run.maddr = maddr
  accesses : run.accesses = loads sys r width ++ accesses

/-- A run reads the items, and writes to the last one if there is a value to write. -/
theorem run_done (hargs : parseArgs args = some r) (h : Maps sys r width mem)
    (hrun : main host sys argv0 args = some run) :
    (r.data = none ∧ Done host sys r width mem run mem [] []) ∨
      ∃ data, r.data = some data ∧ 0 < itemsRead r ∧
        Done host sys r width mem run (writeLast host sys r width mem data).1
          (writeLast host sys r width mem data).2.1 (writeLast host sys r width mem data).2.2 := by
  obtain ⟨fd, hopen⟩ := h.opens
  obtain ⟨address, hmap⟩ := h.maps
  unfold main at hrun
  simp only [hargs, h.typed, hopen, hmap] at hrun
  cases hd : r.data with
  | none =>
    rw [hd] at hrun
    refine Or.inl ⟨rfl, ?_⟩
    cases hunmap : sys.munmap with
    | error f =>
      simp only [hunmap, Option.some.injEq] at hrun
      rw [← hrun]
      exact ⟨⟨fd, address, hopen, hmap, (List.append_nil _).symm⟩, rfl, (List.append_nil _).symm⟩
    | ok _ =>
      simp only [hunmap, Option.some.injEq] at hrun
      rw [← hrun]
      exact ⟨⟨fd, address, hopen, hmap, (List.append_nil _).symm⟩, rfl, (List.append_nil _).symm⟩
  | some data =>
    rw [hd] at hrun
    refine Or.inr ⟨data, rfl, ?_⟩
    by_cases hzero : itemsRead r = 0
    · simp [hzero] at hrun
    · refine ⟨by omega, ?_⟩
      cases hunmap : sys.munmap with
      | error f =>
        simp only [hunmap, if_neg hzero, Option.some.injEq] at hrun
        rw [← hrun]
        exact ⟨⟨fd, address, hopen, hmap, rfl⟩, rfl, rfl⟩
      | ok _ =>
        simp only [hunmap, if_neg hzero, Option.some.injEq] at hrun
        rw [← hrun]
        exact ⟨⟨fd, address, hopen, hmap, rfl⟩, rfl, rfl⟩

/-- A run is defined unless a value is to be written and no item was read. -/
theorem exists_run (host : ByteOrder) (argv0 : List Char) (hargs : parseArgs args = some r)
    (h : Maps sys r width mem) (hd : r.data = none ∨ 0 < itemsRead r) :
    ∃ run, main host sys argv0 args = some run := by
  obtain ⟨fd, hopen⟩ := h.opens
  obtain ⟨address, hmap⟩ := h.maps
  unfold main
  simp only [hargs, h.typed, hopen, hmap]
  cases hdata : r.data with
  | none => exact ⟨_, rfl⟩
  | some data =>
    have hpos : ¬itemsRead r = 0 := by
      rcases hd with hnone | hpos
      · simp [hdata] at hnone
      · omega
    simp only [if_neg hpos]
    exact ⟨_, rfl⟩

/-- What a run prints between the address of the mapping and the value that is written tells all items,
although repeated ones are left out. -/
theorem run_listing (host : ByteOrder) (hargs : parseArgs args = some r) (h : Maps sys r width mem)
    (hcount : itemsRead r * width ≤ 2 ^ 32) (hrun : main host sys argv0 args = some run) :
    (∃ fd address, sys.openFile r.filename = .ok fd ∧
      sys.mmap r.filename (targetBase sys r.target) (mapSize sys r width) = .ok (address, mem) ∧
      run.out = openedText sys r width fd ++ mappedText address ++ dumpLoop host sys r width mem ++
        match r.data with
        | none => []
        | some data => (writeLast host sys r width mem data).2.1) ∧
      readListing r.target width (itemsRead r) (dumpLoop host sys r width mem) =
        items host sys r width mem := by
  have hlisting := readListing_dumpLoop host sys mem h.width_pos hcount
  rcases run_done hargs h hrun with ⟨hd, hdone⟩ | ⟨data, hd, -, hdone⟩
  · rw [hd]
    exact ⟨hdone.out, hlisting⟩
  · rw [hd]
    exact ⟨hdone.out, hlisting⟩

/-- A system on which the items that are read are not all the same. -/
def sampleRepeated : System :=
  { sampleSystem with mmap := fun _ _ _ => .ok (0x7000, fun a => if a = 0x13 then 9 else 7) }

theorem run_listing_bytes : ∃ run,
    main .little sampleRepeated [] ["r".toList, "0x10".toList, "b*4".toList] = some run ∧
      ∃ fd address, run.out = openedText sampleRepeated ⟨"r".toList, 0x10, 'b', 4, none⟩ 1 fd ++
          mappedText address ++ "0x0010: 0x07\n...\n0x0013: 0x09\n".toList ++ [] ∧
        readListing 0x10 1 4 "0x0010: 0x07\n...\n0x0013: 0x09\n".toList = [7, 7, 7, 9] := by
  have hargs : parseArgs ["r".toList, "0x10".toList, "b*4".toList] =
      some ⟨"r".toList, 0x10, 'b', 4, none⟩ := rfl
  have hmaps : Maps sampleRepeated ⟨"r".toList, 0x10, 'b', 4, none⟩ 1
      fun a => if a = 0x13 then 9 else 7 := ⟨rfl, ⟨3, rfl⟩, ⟨0x7000, rfl⟩⟩
  have hdump : dumpLoop .little sampleRepeated ⟨"r".toList, 0x10, 'b', 4, none⟩ 1
      (fun a => if a = 0x13 then 9 else 7) = "0x0010: 0x07\n...\n0x0013: 0x09\n".toList := by
    decide +kernel
  obtain ⟨run, hrun⟩ := exists_run .little [] hargs hmaps (.inl rfl)
  obtain ⟨⟨fd, address, -, -, hout⟩, hread⟩ := run_listing .little hargs hmaps (by decide) hrun
  rw [hdump] at hout hread
  exact ⟨run, hrun, fd, address, hout, hread⟩

/-! ## Positions -/

/-- Positions count from the offset of the target in its page. -/
theorem posOf_eq (hpage : sys.pageSize = BitVec.twoPow 64 p) (hp : p < 64)
    (hlt : r.target.toNat % 2 ^ p + i * width < 2 ^ 64) :
    posOf sys r width i = r.target.toNat % 2 ^ p + i * width := by
  have hsum : r.target + BitVec.ofNat 64 (i * width) - targetBase sys r.target =
      r.target - targetBase sys r.target + BitVec.ofNat 64 (i * width) := by
    rw [BitVec.sub_eq_add_neg, BitVec.sub_eq_add_neg, BitVec.add_assoc, BitVec.add_assoc,
      BitVec.add_comm (BitVec.ofNat 64 _)]
  rw [posOf, hsum, BitVec.toNat_add, targetBase, hpage, toNat_sub_page _ hp, BitVec.toNat_ofNat,
    Nat.mod_eq_of_lt (by omega : i * width < 2 ^ 64), Nat.mod_eq_of_lt hlt]

/-- The mapping has all items if their end fits an `int`. -/
theorem le_mapSize (hpage : sys.pageSize = BitVec.twoPow 64 p) (hp : p < 64)
    (hcount : 0 ≤ r.itemsCount.toInt)
    (hfit : r.target.toNat % 2 ^ p + itemsRead r * width < 2 ^ 31) :
    ((r.target.toNat % 2 ^ p + itemsRead r * width : ℕ) : ℤ) ≤ mapSize sys r width := by
  have hprod : r.itemsCount.toInt * (width : ℤ) = ((itemsRead r * width : ℕ) : ℤ) := by
    rw [Int.natCast_mul, itemsRead, Int.toNat_of_nonneg hcount]
  have hnat : (r.target + BitVec.ofInt 64 (r.itemsCount.toInt * width) - targetBase sys r.target).toNat =
      r.target.toNat % 2 ^ p + itemsRead r * width := by
    rw [hprod, BitVec.ofInt_natCast]
    exact posOf_eq (i := itemsRead r) hpage hp (by omega)
  have hspan : span sys r width = ((r.target.toNat % 2 ^ p + itemsRead r * width : ℕ) : ℤ) := by
    rw [span, BitVec.toInt_eq_toNat_of_lt (by omega), hnat]
  have hint (e : ℕ) (he : e < 2 ^ 31) : (BitVec.ofInt 32 (e : ℤ)).toInt = e := by
    have hmod : (BitVec.ofNat 32 e).toNat = e := Nat.mod_eq_of_lt (by omega)
    rw [BitVec.ofInt_natCast, BitVec.toInt_eq_toNat_of_lt (by omega), hmod]
  unfold mapSize
  rw [hspan, hint _ hfit]
  split
  · exact Int.le_refl _
  · omega

/-- A run accesses nothing outside of what it has mapped, if the end of the items fits an `int`. -/
theorem run_inMapping (host : ByteOrder) (hargs : parseArgs args = some r) (h : Maps sys r width mem)
    (hpage : sys.pageSize = BitVec.twoPow 64 p) (hp : p < 64)
    (hfit : r.target.toNat % 2 ^ p + itemsRead r * width < 2 ^ 31)
    (hrun : main host sys argv0 args = some run) :
    ∀ a ∈ run.accesses, ((a.pos + a.width : ℕ) : ℤ) ≤ mapSize sys r width := by
  have hitem (i : ℕ) (hi : i < itemsRead r) : ((posOf sys r width i + width : ℕ) : ℤ) ≤
      mapSize sys r width := by
    have hcount : 0 ≤ r.itemsCount.toInt := by
      by_contra hneg
      have hzero : itemsRead r = 0 := Int.toNat_of_nonpos (by omega)
      omega
    have hmul : (i + 1) * width ≤ itemsRead r * width := Nat.mul_le_mul_right _ hi
    have hend : ((r.target.toNat % 2 ^ p + itemsRead r * width : ℕ) : ℤ) ≤ mapSize sys r width :=
      le_mapSize hpage hp hcount hfit
    rw [Nat.succ_mul] at hmul
    rw [posOf_eq hpage hp (by omega)]
    omega
  have hloads : ∀ a ∈ loads sys r width, ((a.pos + a.width : ℕ) : ℤ) ≤ mapSize sys r width := by
    intro a ha
    obtain ⟨i, hi, rfl⟩ := List.mem_map.mp ha
    exact hitem i (List.mem_range.mp hi)
  rcases run_done hargs h hrun with ⟨-, hdone⟩ | ⟨data, -, hpos, hdone⟩
  · rw [hdone.accesses, List.append_nil]
    exact hloads
  · have hlast := hitem (itemsRead r - 1) (by omega)
    rw [hdone.accesses, List.forall_mem_append]
    refine ⟨hloads, fun a ha => ?_⟩
    rcases List.mem_cons.mp ha with rfl | ha
    · simpa [Access.pos, Access.width] using hlast
    · obtain rfl := List.mem_singleton.mp ha
      exact hlast

theorem run_inMapping_bytes : ∃ run,
    main .little sampleSystem [] ["r".toList, "0x10".toList, "b*4".toList] = some run ∧
      ∀ a ∈ run.accesses, ((a.pos + a.width : ℕ) : ℤ) ≤
        mapSize sampleSystem ⟨"r".toList, 0x10, 'b', 4, none⟩ 1 := by
  have hargs : parseArgs ["r".toList, "0x10".toList, "b*4".toList] =
      some ⟨"r".toList, 0x10, 'b', 4, none⟩ := rfl
  have hmaps : Maps sampleSystem ⟨"r".toList, 0x10, 'b', 4, none⟩ 1 fun _ => 0 :=
    ⟨rfl, ⟨3, rfl⟩, ⟨0x7000, rfl⟩⟩
  obtain ⟨run, hrun⟩ := exists_run .little [] hargs hmaps (.inl rfl)
  exact ⟨run, hrun, run_inMapping (p := 12) .little hargs hmaps (by decide) (by decide) (by decide) hrun⟩

/-! ## The write -/

/-- A value that is given goes to the last item, of which the low bytes are read back, and to nothing
else; without one nothing is stored. -/
theorem run_writes (host : ByteOrder) (hargs : parseArgs args = some r) (h : Maps sys r width mem)
    (hrun : main host sys argv0 args = some run) :
    match r.data with
    | none => run.maddr = mem ∧ run.accesses = loads sys r width
    | some data =>
      let pos := posOf sys r width (itemsRead r - 1)
      let x := (strtoul0 data).setWidth (8 * width)
      host.word width (run.maddr.read pos width) = x ∧
        (∀ a, ¬(pos ≤ a ∧ a < pos + width) → run.maddr a = mem a) ∧
        (∃ pre, run.out = pre ++ "; readback 0x".toList ++ blankHex width x.toNat ++ ['\n']) ∧
        run.accesses = loads sys r width ++ [.store pos (host.bytes width x), .load pos width] := by
  rcases run_done hargs h hrun with ⟨hd, hdone⟩ | ⟨data, hd, -, hdone⟩
  · rw [hd]
    exact ⟨hdone.maddr, by simpa using hdone.accesses⟩
  · rw [hd]
    have hread (x : BitVec (8 * width)) (pos : ℕ) :
        host.word width ((mem.write pos (host.bytes width x)).read pos width) = x := by
      have hback := Memory.read_write mem pos (host.bytes width x)
      rw [ByteOrder.length_bytes] at hback
      rw [hback, ByteOrder.word_bytes]
    refine ⟨?_, fun a ha => ?_, ?_, hdone.accesses⟩
    · rw [hdone.maddr]
      exact hread _ _
    · rw [hdone.maddr]
      exact Memory.write_of_not (by rwa [ByteOrder.length_bytes])
    · obtain ⟨fd, address, -, -, hout⟩ := hdone.out
      rw [hout, writeLast]
      simp only [hread]
      exact ⟨openedText sys r width fd ++ mappedText address ++ dumpLoop host sys r width mem ++
        ("Written 0x".toList ++ paddedHex width (strtoul0 data).toNat), by simp only [List.append_assoc]⟩

theorem run_writes_byte : ∃ run,
    main .little sampleSystem [] ["r".toList, "0x10".toList, "b*4".toList, "0x1ff".toList] = some run ∧
      ByteOrder.little.word 1 (run.maddr.read 0x13 1) = 0xff ∧ run.maddr 0x12 = 0 := by
  have hargs : parseArgs ["r".toList, "0x10".toList, "b*4".toList, "0x1ff".toList] =
      some ⟨"r".toList, 0x10, 'b', 4, some "0x1ff".toList⟩ := rfl
  have hmaps : Maps sampleSystem ⟨"r".toList, 0x10, 'b', 4, some "0x1ff".toList⟩ 1 fun _ => 0 :=
    ⟨rfl, ⟨3, rfl⟩, ⟨0x7000, rfl⟩⟩
  obtain ⟨run, hrun⟩ := exists_run .little [] hargs hmaps (.inr (by decide))
  have hwrites := run_writes .little hargs hmaps hrun
  exact ⟨run, hrun, hwrites.1, hwrites.2.1 0x12 (by decide)⟩

end DcPerf.PciDebug.Pcimem
