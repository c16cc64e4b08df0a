import DcPerf.Library.Words
import DcPerf.Tracing.Command

/-!
# The PCI_COMMAND probes: every change is attributed to its call

The six map entries of a thread are a function of the calls in progress on it.
-/

namespace DcPerf.Tracing.Command

open DcPerf.Library

variable {τ : Type}

/-! ## What the stack of a thread determines -/

/-- The entries of one thread. -/
@[ext] structure Entry where
  inVirtioPciProbe : Option (BitVec 64)
  inPciSetMaster : Option (BitVec 64)
  pciMasterDev : Option (BitVec 64)
  pciMasterEnable : Option (BitVec 64)
  inPciDisableDevice : Option (BitVec 64)
  pciDisableDev : Option (BitVec 64)

def Maps.entry (m : Maps τ) (t : τ) : Entry where
  inVirtioPciProbe := m.inVirtioPciProbe t
  inPciSetMaster := m.inPciSetMaster t
  pciMasterDev := m.pciMasterDev t
  pciMasterEnable := m.pciMasterEnable t
  inPciDisableDevice := m.inPciDisableDevice t
  pciDisableDev := m.pciDisableDev t

/-- The stack is inside `virtio_pci_probe`. -/
def inProbe (calls : List Call) : Bool := calls.any fun f => f.function = .virtioPciProbe

def probeMark : Call → List Call → Option (BitVec 64)
  | .virtioPciProbe _, _ => some 1
  | _, _ => none

/-- The arguments of a `__pci_set_master` call inside `virtio_pci_probe`. -/
def masterArgs : Call → List Call → Option (BitVec 64 × BitVec 64)
  | .pciSetMaster dev enable, below => if inProbe below then some (dev, enable) else none
  | _, _ => none

def disabledDev : Call → List Call → Option (BitVec 64)
  | .pciDisableDevice dev, _ => some dev
  | _, _ => none

def entryOf (calls : List Call) : Entry where
  inVirtioPciProbe := tracked probeMark calls
  inPciSetMaster := (tracked masterArgs calls).map fun _ => 1
  pciMasterDev := (tracked masterArgs calls).map Prod.fst
  pciMasterEnable := (tracked masterArgs calls).map Prod.snd
  inPciDisableDevice := (tracked disabledDev calls).map fun _ => 1
  pciDisableDev := tracked disabledDev calls

variable {calls below : List Call} {f : Call} {dev enable : BitVec 64}

theorem inProbe_iff : inProbe calls = true ↔ ∃ pdev, .virtioPciProbe pdev ∈ calls := by
  rw [inProbe, List.any_eq_true]
  constructor
  · rintro ⟨f, hf, hfun⟩
    cases f with
    | virtioPciProbe pdev => exact ⟨pdev, hf⟩
    | _ => simp [Call.function] at hfun
  · rintro ⟨pdev, hf⟩
    exact ⟨_, hf, by simp [Call.function]⟩

theorem function_of_probeMark {b : BitVec 64} (h : probeMark f below = some b) :
    f.function = .virtioPciProbe := by
  cases f with
  | virtioPciProbe pdev => rfl
  | _ => cases h

theorem function_of_masterArgs {b : BitVec 64 × BitVec 64} (h : masterArgs f below = some b) :
    f.function = .pciSetMaster := by
  cases f with
  | pciSetMaster dev enable => rfl
  | _ => cases h

theorem function_of_disabledDev {b : BitVec 64} (h : disabledDev f below = some b) :
    f.function = .pciDisableDevice := by
  cases f with
  | pciDisableDevice dev => rfl
  | _ => cases h

theorem tracked_probeMark (calls : List Call) :
    tracked probeMark calls = if inProbe calls then some 1 else none := by
  induction calls with
  | nil => rfl
  | cons f below ih =>
    rw [tracked_cons, ih]
    cases f <;> simp [probeMark, inProbe, Call.function]

/-! ## Nested calls -/

/-- No function that the script follows is on the stack twice. -/
def Nested (calls : List Call) : Prop :=
  calls.Pairwise fun f g => f.function ≠ .pciWriteConfigWord → g.function ≠ f.function

section Nested

variable {β : Type} {v : Call → List Call → Option β} {F : Function}

/-- Without a call of its function, nothing is tracked. -/
theorem tracked_none_of_function
    (hv : ∀ {f : Call} {below : List Call} {b : β}, v f below = some b → f.function = F)
    (h : ∀ g ∈ calls, g.function ≠ F) : tracked v calls = none := by
  refine tracked_eq_none.mpr ?_
  rintro above f below rfl
  cases hf : v f below with
  | none => rfl
  | some b => exact absurd (hv hf) (h f (by simp))

theorem Nested.single (h : Nested calls) (hF : F ≠ .pciWriteConfigWord)
    (hv : ∀ {f : Call} {below : List Call} {b : β}, v f below = some b → f.function = F) :
    Single (fun f => f.function = F) v calls := by
  induction calls with
  | nil => trivial
  | cons f below ih =>
    obtain ⟨hf, hbelow⟩ := List.pairwise_cons.mp h
    refine ⟨fun hfun => tracked_none_of_function hv fun g hg => ?_, ih hbelow⟩
    rw [← hfun]
    exact hf g hg (by rwa [hfun])

/-- Beneath a call of its function, nothing is tracked. -/
theorem Nested.tracked_below (F : Function) (h : Nested (f :: below)) (hfun : f.function = F)
    (hF : F ≠ .pciWriteConfigWord)
    (hv : ∀ {f : Call} {below : List Call} {b : β}, v f below = some b → f.function = F) :
    tracked v below = none := by
  refine tracked_none_of_function hv fun g hg => ?_
  rw [← hfun] at hF ⊢
  exact (List.pairwise_cons.mp h).1 g hg hF

end Nested

/-- The arguments that are tracked are those of the `__pci_set_master` call in progress. -/
theorem tracked_masterArgs (h : Nested calls) :
    tracked masterArgs calls = some (dev, enable) ↔ SetsMaster calls dev enable := by
  have hv : ∀ f below b, masterArgs f below = some b → f.function = .pciSetMaster :=
    fun _ _ _ => function_of_masterArgs
  rw [tracked_eq_some hv (h.single (by decide) function_of_masterArgs)]
  constructor
  · rintro ⟨above, f, below, rfl, hf⟩
    cases f with
    | pciSetMaster dev' enable' =>
      obtain ⟨hprobe, heq⟩ := Option.ite_none_right_eq_some.mp hf
      obtain ⟨rfl, rfl⟩ := Prod.mk.inj (Option.some.inj heq)
      exact ⟨above, below, rfl, inProbe_iff.mp hprobe⟩
    | _ => cases hf
  · rintro ⟨above, below, rfl, hprobe⟩
    exact ⟨above, _, below, rfl, if_pos (inProbe_iff.mpr hprobe)⟩

theorem tracked_disabledDev (h : Nested calls) :
    tracked disabledDev calls = some dev ↔ .pciDisableDevice dev ∈ calls := by
  have hv : ∀ f below b, disabledDev f below = some b → f.function = .pciDisableDevice :=
    fun _ _ _ => function_of_disabledDev
  rw [tracked_eq_some hv (h.single (by decide) function_of_disabledDev)]
  constructor
  · rintro ⟨above, f, below, rfl, hf⟩
    cases f with
    | pciDisableDevice dev' =>
      obtain rfl := Option.some.inj hf
      simp
    | _ => cases hf
  · intro hmem
    obtain ⟨above, below, rfl⟩ := List.append_of_mem hmem
    exact ⟨above, _, below, rfl, rfl⟩

/-! ## The probes -/

theorem entryOf_probe (dev : BitVec 64) : entryOf (.virtioPciProbe dev :: calls) =
    { entryOf calls with inVirtioPciProbe := some 1 } := rfl

theorem entryOf_master (dev enable : BitVec 64) : entryOf (.pciSetMaster dev enable :: calls) =
    if inProbe calls then
      { entryOf calls with
        inPciSetMaster := some 1, pciMasterDev := some dev, pciMasterEnable := some enable }
    else
      entryOf calls := by
  have hargs : tracked masterArgs (.pciSetMaster dev enable :: calls) =
      (if inProbe calls then some (dev, enable) else none).or (tracked masterArgs calls) := rfl
  unfold entryOf
  rw [hargs]
  split <;> rfl

theorem entryOf_disable (dev : BitVec 64) : entryOf (.pciDisableDevice dev :: calls) =
    { entryOf calls with inPciDisableDevice := some 1, pciDisableDev := some dev } := rfl

theorem entryOf_write (dev pos val : BitVec 64) :
    entryOf (.pciWriteConfigWord dev pos val :: calls) = entryOf calls := rfl

section Probes

variable {m : Maps τ} {t : τ} {at_ : Stamp} {pos val : BitVec 64}

/-- The probe of `__pci_set_master` knows whether the call is inside `virtio_pci_probe`. -/
theorem fetch_inVirtioPciProbe (h : m.entry t = entryOf calls) :
    m.inVirtioPciProbe.fetch t ≠ 0 ↔ inProbe calls = true := by
  have hmark : m.inVirtioPciProbe t = tracked probeMark calls :=
    congrArg Entry.inVirtioPciProbe h
  rw [BpfMap.fetch, hmark, tracked_probeMark]
  cases inProbe calls <;> simp

/-- The line of the first probe. -/
def changeLine (at_ : Stamp) (dev enable val : BitVec 64) : Line :=
  let new := val &&& 0xffff
  let old := if enable ≠ 0 then new &&& 0xfffb else new ||| 4
  .masterChanged at_ dev old new (old &&& 4 != 0) (new &&& 4 != 0)

theorem mem_kprobeWriteSetMaster (h : m.entry t = entryOf calls) (hn : Nested calls) {line : Line} :
    line ∈ kprobeWriteSetMaster m t at_ dev pos val ↔
      ∃ enable, SetsMaster calls dev enable ∧ pos = 4 ∧ line = changeLine at_ dev enable val := by
  have hin : m.inPciSetMaster t = _ := congrArg Entry.inPciSetMaster h
  have hdev : m.pciMasterDev t = _ := congrArg Entry.pciMasterDev h
  have hen : m.pciMasterEnable t = _ := congrArg Entry.pciMasterEnable h
  simp only [← tracked_masterArgs hn]
  unfold kprobeWriteSetMaster BpfMap.fetch
  rw [hin, hdev, hen]
  unfold entryOf
  cases tracked masterArgs calls with
  | none => simp
  | some args =>
    obtain ⟨dev', enable'⟩ := args
    by_cases hcond : dev = dev' ∧ pos = 4
    · obtain ⟨rfl, rfl⟩ := hcond
      simp [changeLine]
    · rw [if_neg (by simpa using hcond)]
      constructor
      · intro hmem
        cases hmem
      · rintro ⟨enable, heq, hpos, -⟩
        obtain ⟨rfl, -⟩ := Prod.mk.inj (Option.some.inj heq)
        exact absurd ⟨rfl, hpos⟩ hcond

theorem mem_kprobeWriteDisableDevice (h : m.entry t = entryOf calls) (hn : Nested calls)
    {line : Line} :
    line ∈ kprobeWriteDisableDevice m t at_ dev pos val ↔
      .pciDisableDevice dev ∈ calls ∧ pos = 4 ∧ val.getLsbD 2 = false ∧
        line = .masterCleared at_ dev ((val &&& 0xffff) ||| 4) (val &&& 0xffff) := by
  have hin : m.inPciDisableDevice t = _ := congrArg Entry.inPciDisableDevice h
  have hdev : m.pciDisableDev t = _ := congrArg Entry.pciDisableDev h
  have hmask : (4 : BitVec 64) = BitVec.twoPow 64 2 := rfl
  have hbit : val &&& 4 = 0 ↔ val.getLsbD 2 = false := by
    rw [hmask]
    exact and_twoPow_eq_zero (by decide)
  rw [← tracked_disabledDev hn, ← hbit]
  unfold kprobeWriteDisableDevice BpfMap.fetch
  rw [hin, hdev]
  unfold entryOf
  cases tracked disabledDev calls with
  | none => simp
  | some dev' =>
    by_cases hcond : dev = dev' ∧ pos = 4 ∧ val &&& 4 = 0
    · obtain ⟨rfl, rfl, hval⟩ := hcond
      simp
    · rw [if_neg (by simpa using hcond)]
      constructor
      · intro hmem
        cases hmem
      · rintro ⟨heq, hpos, hval, -⟩
        exact absurd ⟨(Option.some.inj heq).symm, hpos, hval⟩ hcond

variable [DecidableEq τ]

def Event.thread : Event τ → τ
  | .call t _ _ => t
  | .ret t _ => t
  | .commit t => t

/-- An event concerns the entries of its own thread only. -/
theorem fire_entry_of_ne {e : Event τ} {t' : τ} (ht : t' ≠ e.thread) :
    (fire m e).1.entry t' = m.entry t' := by
  cases e with
  | call t f at_ =>
    cases f with
    | virtioPciProbe dev => ext1 <;> first | rfl | exact BpfMap.set_of_ne ht
    | pciSetMaster dev enable =>
      show (kprobePciSetMaster m t at_ dev enable).1.entry t' = m.entry t'
      unfold kprobePciSetMaster
      split
      · ext1 <;> first | rfl | exact BpfMap.set_of_ne ht
      · rfl
    | pciDisableDevice dev => ext1 <;> first | rfl | exact BpfMap.set_of_ne ht
    | pciWriteConfigWord dev pos val => rfl
  | ret t f =>
    cases f with
    | pciWriteConfigWord dev pos val => rfl
    | _ => ext1 <;> first | rfl | exact BpfMap.delete_of_ne ht
  | commit t => rfl

/-- A call leaves the entries that its stack determines. -/
theorem entry_call (h : m.entry t = entryOf calls) :
    (fire m (.call t f at_)).1.entry t = entryOf (f :: calls) := by
  cases f with
  | virtioPciProbe dev =>
    rw [entryOf_probe, ← h]
    simp [fire, kprobeVirtioPciProbe, Maps.entry]
  | pciSetMaster dev enable =>
    rw [entryOf_master, ← h]
    show (kprobePciSetMaster m t at_ dev enable).1.entry t = _
    unfold kprobePciSetMaster
    simp only [fetch_inVirtioPciProbe h]
    split
    · simp [Maps.entry]
    · rfl
  | pciDisableDevice dev =>
    rw [entryOf_disable, ← h]
    simp [fire, kprobePciDisableDevice, Maps.entry]
  | pciWriteConfigWord dev pos val =>
    rw [entryOf_write, ← h]
    rfl

/-- So does a return: beneath it nothing of the same function is in progress. -/
theorem entry_ret (hn : Nested (f :: below)) (h : m.entry t = entryOf (f :: below)) :
    (fire m (.ret t f)).1.entry t = entryOf below := by
  cases f with
  | virtioPciProbe dev =>
    have hnone : tracked probeMark below = none :=
      hn.tracked_below .virtioPciProbe rfl (by decide) function_of_probeMark
    have hentry : entryOf below = { m.entry t with inVirtioPciProbe := none } := by
      rw [h, entryOf_probe, entryOf, hnone]
    rw [hentry]
    simp [fire, kretprobeVirtioPciProbe, Maps.entry]
  | pciSetMaster dev enable =>
    have hnone : tracked masterArgs below = none :=
      hn.tracked_below .pciSetMaster rfl (by decide) function_of_masterArgs
    have hentry : entryOf below = { m.entry t with
        inPciSetMaster := none, pciMasterDev := none, pciMasterEnable := none } := by
      rw [h, entryOf_master, entryOf, hnone]
      split <;> rfl
    rw [hentry]
    simp [fire, kretprobePciSetMaster, Maps.entry]
  | pciDisableDevice dev =>
    have hnone : tracked disabledDev below = none :=
      hn.tracked_below .pciDisableDevice rfl (by decide) function_of_disabledDev
    have hentry : entryOf below =
        { m.entry t with inPciDisableDevice := none, pciDisableDev := none } := by
      rw [h, entryOf_disable, entryOf, hnone]
      rfl
    rw [hentry]
    simp [fire, kretprobePciDisableDevice, Maps.entry]
  | pciWriteConfigWord dev pos val => exact h

end Probes

/-! ## Registers -/

theorem masterBit (x : BitVec 16) : (x.setWidth 64 &&& 4 != 0) = x.getLsbD 2 := by
  have hmask : (4 : BitVec 64) = BitVec.twoPow 64 2 := rfl
  have hzero : x.setWidth 64 &&& BitVec.twoPow 64 2 = 0 ↔ (x.setWidth 64).getLsbD 2 = false :=
    and_twoPow_eq_zero (by decide)
  have hbit : (x.setWidth 64).getLsbD 2 = x.getLsbD 2 := by simp
  rw [hmask, Bool.eq_iff_iff, bne_iff_ne, ne_eq, hzero, hbit, Bool.not_eq_false]

/-- The old value that a change line computes, for a write that flips the master bit. -/
theorem oldValue_eq {x w : BitVec 16} (hx : x = w ^^^ 4) (hbit : x.getLsbD 2 = (enable != 0)) :
    (if enable ≠ 0 then x.setWidth 64 &&& 0xfffb else x.setWidth 64 ||| 4) = w.setWidth 64 := by
  have hmask : BitVec.twoPow 16 2 = 4 := rfl
  have hflip : w = x ^^^ BitVec.twoPow 16 2 := by
    rw [hmask, hx, BitVec.xor_assoc, BitVec.xor_self, BitVec.xor_zero]
  split
  · rename_i hen
    have hset : x.getLsbD 2 = true := by
      rw [hbit]
      simpa using hen
    rw [hflip, ← and_not_twoPow hset, BitVec.setWidth_and]
    rfl
  · rename_i hen
    have hclear : x.getLsbD 2 = false := by
      rw [hbit]
      simpa using hen
    rw [hflip, ← or_twoPow hclear, BitVec.setWidth_or]
    rfl

/-- The values of a change line, for a write that flips the master bit to what it is asked for. -/
theorem changeLine_values {at_ : Stamp} {val old new : BitVec 64} {bme bme' : Bool} {w : BitVec 16}
    (hline : .masterChanged at_ dev old new bme bme' = changeLine at_ dev enable val)
    (hval : val.setWidth 16 = w ^^^ 4) (hbit : val.getLsbD 2 = (enable != 0)) :
    old = w.setWidth 64 ∧ new = (val.setWidth 16).setWidth 64 ∧ bme = w.getLsbD 2 ∧
      bme' = (val.setWidth 16).getLsbD 2 := by
  obtain ⟨-, -, hold, hnew, hbme, hbme'⟩ := Line.masterChanged.inj hline
  have hlow : val &&& 0xffff = (val.setWidth 16).setWidth 64 := and_setWidth_allOnes (v := 16) val
  have hbit16 : (val.setWidth 16).getLsbD 2 = (enable != 0) := by simpa using hbit
  rw [hlow] at hold hnew hbme hbme'
  rw [oldValue_eq hval hbit16] at hold hbme
  exact ⟨hold, hnew, hbme.trans (masterBit w), hbme'.trans (masterBit _)⟩

/-! ## Runs -/

/-- A change line stands with the write that it was printed for. -/
def Honest : List Frame → Prop
  | [] => True
  | frame :: below => (∀ at_ dev old new bme bme',
      .masterChanged at_ dev old new bme bme' ∈ frame.lines →
      ∃ val enable, frame.call = .pciWriteConfigWord dev 4 val ∧
        SetsMaster (below.map Frame.call) dev enable ∧
        .masterChanged at_ dev old new bme bme' = changeLine at_ dev enable val) ∧ Honest below

section Run

variable {s : State τ} {e : Event τ} {command : BitVec 64 → BitVec 16}
  {evs : List (Event τ)}

/-- The state keeps up with the calls. -/
structure Mirrored (s : State τ) : Prop where
  nested : ∀ t, Nested (s.calls t)
  maps : Mirrors id entryOf s.calls s.maps.entry
  honest : ∀ t, Honest (s.stackOf t)

theorem mirrored_start (command : BitVec 64 → BitVec 16) : Mirrored (start command : State τ) :=
  ⟨fun _ => List.Pairwise.nil, .empty _ _, fun _ => trivial⟩

theorem Mirrored.entry (h : Mirrored s) (t : τ) : s.maps.entry t = entryOf (s.calls t) :=
  h.maps.read (alone_of_injective Function.injective_id)

theorem Mirrored.eq_empty (h : Mirrored s) (hall : ∀ t, s.stackOf t = []) : s.maps = .empty := by
  have hentry := h.maps.eq_empty fun t => by rw [State.calls, hall t, List.map_nil]
  have hfield : ∀ t, s.maps.entry t = entryOf [] := congrFun hentry
  obtain ⟨m, stackOf, command⟩ := s
  obtain ⟨m₁, m₂, m₃, m₄, m₅, m₆⟩ := m
  simp only [Maps.empty, Maps.mk.injEq]
  refine ⟨?_, ?_, ?_, ?_, ?_, ?_⟩ <;> funext t
  · exact congrArg Entry.inVirtioPciProbe (hfield t)
  · exact congrArg Entry.inPciSetMaster (hfield t)
  · exact congrArg Entry.pciMasterDev (hfield t)
  · exact congrArg Entry.pciMasterEnable (hfield t)
  · exact congrArg Entry.inPciDisableDevice (hfield t)
  · exact congrArg Entry.pciDisableDev (hfield t)

variable [DecidableEq τ]

/-- The lines of the two probes of `pci_write_config_word`. -/
def Line.IsWrite : Line → Prop
  | .masterChanged .. | .masterCleared .. => True
  | _ => False

/-- They are printed at a write, by one of the two probes. -/
theorem mem_printed_write {line : Line} (hl : line.IsWrite) : line ∈ printed s e ↔
    ∃ t dev pos val at_, e = .call t (.pciWriteConfigWord dev pos val) at_ ∧
      (line ∈ kprobeWriteSetMaster s.maps t at_ dev pos val ∨
        line ∈ kprobeWriteDisableDevice s.maps t at_ dev pos val) := by
  have hprobe (at_ : Stamp) (dev : BitVec 64) : line ≠ .virtioPciProbe at_ dev := by
    rintro rfl
    exact hl
  have hset (at_ : Stamp) (dev enable : BitVec 64) : line ≠ .pciSetMaster at_ dev enable := by
    rintro rfl
    exact hl
  have hdisable (at_ : Stamp) (dev : BitVec 64) : line ≠ .pciDisableDevice at_ dev := by
    rintro rfl
    exact hl
  cases e with
  | call t f at' =>
    cases f with
    | virtioPciProbe d => simp [printed, fire, kprobeVirtioPciProbe, hprobe]
    | pciSetMaster d en =>
      simp only [printed, fire, kprobePciSetMaster]
      split <;> simp [hset]
    | pciDisableDevice d => simp [printed, fire, kprobePciDisableDevice, hdisable]
    | pciWriteConfigWord d pos val =>
      show _ ∈ kprobeWriteSetMaster _ _ _ _ _ _ ++ kprobeWriteDisableDevice _ _ _ _ _ _ ↔ _
      rw [List.mem_append]
      constructor
      · exact fun h => ⟨t, d, pos, val, at', rfl, h⟩
      · rintro ⟨t', d', pos', val', at_, he, h⟩
        cases he
        exact h
  | ret t f => cases f <;> simp [printed, fire]
  | commit t => simp [printed, fire]

/-- Where a change line comes from. -/
theorem Mirrored.mem_printed (h : Mirrored s) {at_ : Stamp} {old new : BitVec 64} {bme bme' : Bool} :
    .masterChanged at_ dev old new bme bme' ∈ printed s e ↔
      ∃ t val enable, e = .call t (.pciWriteConfigWord dev 4 val) at_ ∧
        SetsMaster (s.calls t) dev enable ∧
        .masterChanged at_ dev old new bme bme' = changeLine at_ dev enable val := by
  have hwrite : (Line.masterChanged at_ dev old new bme bme').IsWrite := trivial
  rw [mem_printed_write hwrite]
  constructor
  · rintro ⟨t, d, pos, val, at', rfl, hA | hB⟩
    · obtain ⟨enable, hsets, rfl, hline⟩ :=
        (mem_kprobeWriteSetMaster (h.entry t) (h.nested t)).mp hA
      obtain ⟨rfl, rfl, -⟩ := Line.masterChanged.inj hline
      exact ⟨t, val, enable, rfl, hsets, hline⟩
    · obtain ⟨-, -, -, hline⟩ := (mem_kprobeWriteDisableDevice (h.entry t) (h.nested t)).mp hB
      cases hline
  · rintro ⟨t, val, enable, rfl, hsets, hline⟩
    exact ⟨t, dev, 4, val, at_, rfl, .inl
      ((mem_kprobeWriteSetMaster (h.entry t) (h.nested t)).mpr ⟨enable, hsets, rfl, hline⟩)⟩

/-- Where a clearing line comes from. -/
theorem Mirrored.mem_printed_cleared (h : Mirrored s) {at_ : Stamp} {old new : BitVec 64} :
    .masterCleared at_ dev old new ∈ printed s e ↔
      ∃ t val, e = .call t (.pciWriteConfigWord dev 4 val) at_ ∧ val.getLsbD 2 = false ∧
        .pciDisableDevice dev ∈ s.calls t ∧ new = val &&& 0xffff ∧ old = new ||| 4 := by
  have hwrite : (Line.masterCleared at_ dev old new).IsWrite := trivial
  rw [mem_printed_write hwrite]
  constructor
  · rintro ⟨t, d, pos, val, at', rfl, hA | hB⟩
    · obtain ⟨enable, -, -, hline⟩ := (mem_kprobeWriteSetMaster (h.entry t) (h.nested t)).mp hA
      cases hline
    · obtain ⟨hdis, rfl, hbit, hline⟩ :=
        (mem_kprobeWriteDisableDevice (h.entry t) (h.nested t)).mp hB
      obtain ⟨rfl, rfl, rfl, rfl⟩ := Line.masterCleared.inj hline
      exact ⟨t, val, rfl, hbit, hdis, rfl, rfl⟩
  · rintro ⟨t, val, rfl, hbit, hdis, rfl, rfl⟩
    exact ⟨t, dev, 4, val, at_, rfl, .inr
      ((mem_kprobeWriteDisableDevice (h.entry t) (h.nested t)).mpr ⟨hdis, rfl, hbit, rfl⟩)⟩

/-! One step -/

theorem calls_call (s : State τ) (t : τ) (f : Call) (at_ : Stamp) :
    (step s (.call t f at_)).calls = Function.update s.calls t (f :: s.calls t) := by
  funext t'
  by_cases ht : t' = t
  · subst ht
    simp [State.calls, step]
  · simp [State.calls, step, Function.update_of_ne ht]

theorem calls_ret (s : State τ) (t : τ) (f : Call) :
    (step s (.ret t f)).calls = Function.update s.calls t (s.calls t).tail := by
  funext t'
  by_cases ht : t' = t
  · subst ht
    simp [State.calls, step]
  · simp [State.calls, step, Function.update_of_ne ht]

/-- Every thread but the one of the event keeps what is said of it, if that one does. -/
theorem forall_update {α : Type} {p : α → Prop} {x : τ → α} (h : ∀ t, p (x t)) {t : τ} {y : α}
    (hy : p y) (t' : τ) : p (Function.update x t y t') := by
  by_cases ht : t' = t
  · rw [ht, Function.update_self]
    exact hy
  · rw [Function.update_of_ne ht]
    exact h t'

theorem Mirrored.call (h : Mirrored s) {t : τ} {f : Call} {at_ : Stamp}
    (ha : Allowed s (.call t f at_)) : Mirrored (step s (.call t f at_)) where
  nested := by
    rw [calls_call]
    exact forall_update h.nested (List.pairwise_cons.mpr ⟨fun g hg hf => ha hf g hg, h.nested t⟩)
  maps := by
    rw [calls_call]
    exact h.maps.update (alone_of_injective Function.injective_id)
      (fun k hk => fire_entry_of_ne hk) (entry_call (h.entry t))
  honest := by
    refine forall_update h.honest ⟨?_, h.honest t⟩
    intro at' dev old new bme bme' hmem
    obtain ⟨t', val, enable, he, hsets, hline⟩ := h.mem_printed.mp hmem
    cases he
    exact ⟨val, enable, rfl, hsets, hline⟩

theorem Mirrored.ret (h : Mirrored s) {t : τ} {f : Call} (ha : Allowed s (.ret t f)) :
    Mirrored (step s (.ret t f)) := by
  obtain ⟨below, hcalls⟩ := List.head?_eq_some_iff.mp ha
  have hn := hcalls ▸ h.nested t
  have hentry := hcalls ▸ h.entry t
  refine ⟨?_, ?_, ?_⟩
  · rw [calls_ret, hcalls]
    exact forall_update h.nested (List.pairwise_cons.mp hn).2
  · rw [calls_ret, hcalls]
    exact h.maps.update (alone_of_injective Function.injective_id)
      (fun k hk => fire_entry_of_ne hk) (entry_ret hn hentry)
  · refine forall_update h.honest ?_
    have hh := h.honest t
    cases hs : s.stackOf t with
    | nil => trivial
    | cons frame rest =>
      rw [hs] at hh
      exact hh.2

theorem step_commit_of_cons {t : τ} {frame : Frame} {below : List Frame}
    (hs : s.stackOf t = frame :: below) :
    step s (.commit t) = { s with command := written s.command frame.call } := by
  simp [step, fire, hs]

theorem Mirrored.step (h : Mirrored s) (ha : Allowed s e) : Mirrored (step s e) := by
  cases e with
  | call t f at_ => exact h.call ha
  | ret t f => exact h.ret ha
  | commit t =>
    obtain ⟨dev, pos, val, below, hcalls⟩ := ha
    obtain ⟨frame, rest, hs, -, -⟩ := List.map_eq_cons_iff.mp hcalls
    rw [step_commit_of_cons hs]
    exact ⟨h.nested, h.maps, h.honest⟩

/-! What is to be shown -/

theorem Mirrored.firesRight (h : Mirrored s) : FiresRight s e := by
  constructor
  · constructor
    · rintro ⟨at_, dev, old, new, bme, bme', hmem⟩
      obtain ⟨t, val, enable, he, hsets, -⟩ := h.mem_printed.mp hmem
      exact ⟨t, dev, val, at_, he, enable, hsets⟩
    · rintro ⟨t, dev, val, at_, he, enable, hsets⟩
      exact ⟨at_, dev, _, _, _, _, h.mem_printed.mpr ⟨t, val, enable, he, hsets, rfl⟩⟩
  · constructor
    · rintro ⟨at_, dev, old, new, hmem⟩
      obtain ⟨t, val, he, hbit, hdis, -⟩ := h.mem_printed_cleared.mp hmem
      exact ⟨t, dev, val, at_, he, hbit, hdis⟩
    · rintro ⟨t, dev, val, at_, he, hbit, hdis⟩
      exact ⟨at_, dev, _, _, h.mem_printed_cleared.mpr ⟨t, val, he, hbit, hdis, rfl, rfl⟩⟩

theorem SetsMaster.mem (h : SetsMaster calls dev enable) : .pciSetMaster dev enable ∈ calls := by
  obtain ⟨above, below, rfl, -⟩ := h
  simp

theorem Mirrored.valuesRight (h : Mirrored s) (hk : SetsMasterOnly s e) : ValuesRight s e := by
  cases e with
  | call t f at_ => trivial
  | ret t f => trivial
  | commit t =>
    intro frame below hs at_ dev old new bme bme' hmem
    have hhonest := hs ▸ h.honest t
    obtain ⟨val, enable, hcall, hsets, hline⟩ := hhonest.1 _ _ _ _ _ _ hmem
    have hcalls : s.calls t = .pciWriteConfigWord dev 4 val :: below.map Frame.call := by
      rw [State.calls, hs, List.map_cons, hcall]
    obtain ⟨hval, hbit⟩ := hk dev val enable _ hcalls hsets.mem
    have hafter : (DcPerf.Tracing.Command.step s (.commit t)).command dev = val.setWidth 16 := by
      rw [step_commit_of_cons hs, hcall]
      simp [written]
    rw [hafter]
    exact changeLine_values hline hval hbit

theorem mirrored_run (ha : Always (fun pre e => Allowed (run command pre) e) evs) :
    Mirrored (run command evs) := by
  induction evs using List.reverseRecOn with
  | nil => exact mirrored_start command
  | append_singleton evs e ih =>
    obtain ⟨ha, he⟩ := always_snoc.mp ha
    have hstep := (ih ha).step he
    simpa [run] using hstep

/-- Every change of PCI_COMMAND that a followed call makes is attributed to it, whatever the threads
do in between. -/
theorem attributed_run (ha : Always (fun pre e => Allowed (run command pre) e) evs)
    (hk : Always (fun pre e => SetsMasterOnly (run command pre) e) evs) :
    Attributed command evs where
  fires := fun _ e post hl =>
    (mirrored_run (ha.of_prefix ⟨e :: post, hl.symm⟩)).firesRight
  values := fun pre e post hl =>
    (mirrored_run (ha.of_prefix ⟨e :: post, hl.symm⟩)).valuesRight (hk pre e post hl)
  empties := fun _ hpre => (mirrored_run (ha.of_prefix hpre)).eq_empty

end Run

/-! ## An example run -/

/-- One thread probes a device and makes it a master, while another disables a second device. -/
def twoThreads : List (Event Bool) :=
  let at_ : Stamp := { ns := 5, comm := "vblk", pid := 12 }
  [.call false (.virtioPciProbe 0x1000) at_, .call true (.pciDisableDevice 0x2000) at_,
    .call false (.pciSetMaster 0x1000 1) at_,
    .call true (.pciWriteConfigWord 0x2000 4 0x0003) at_,
    .call false (.pciWriteConfigWord 0x1000 4 0x0007) at_, .commit false, .commit true,
    .ret true (.pciWriteConfigWord 0x2000 4 0x0003), .ret true (.pciDisableDevice 0x2000),
    .ret false (.pciWriteConfigWord 0x1000 4 0x0007), .ret false (.pciSetMaster 0x1000 1),
    .ret false (.virtioPciProbe 0x1000)]

/-- PCI_COMMAND of the two devices at the start. -/
def twoCommands (dev : BitVec 64) : BitVec 16 := if dev = 0x2000 then 0x0007 else 0x0003

theorem attributed_twoThreads : Attributed twoCommands twoThreads := by
  refine attributed_run ?_ ?_
  · simp [twoThreads, always_cons, Allowed, run, step, start, fire, State.calls, Call.function]
  · simp [twoThreads, always_cons, SetsMasterOnly, run, step, start, fire, State.calls]
    rintro dev val enable rfl rfl - rfl
    decide

end DcPerf.Tracing.Command
