import DcPerf.Tracing.Marks

/-!
# The teardown probes of `vblk_pci_dev.bt`

The script reports what `vp_del_vqs` frees on its thread, and whether `pcie_flr` has asked its device for
the reset. The kernel's side is a history of calls and returns on any number of threads; a followed
function may also be entered again before it has returned.
-/

namespace DcPerf.Tracing.Teardown

open DcPerf.Library

inductive Function where
  | vpDelVqs
  | freeIrq
  | vringDelVirtqueue
  | pcieFlr
  | pcieCapabilityWriteWord
  deriving DecidableEq

/-- A call, with the registers of its arguments and the moment as the probes see them. -/
structure Call where
  function : Function
  arg0 : BitVec 64
  arg1 : BitVec 64
  arg2 : BitVec 64
  at_ : Stamp
  deriving DecidableEq

variable {τ : Type}

abbrev Event (τ : Type) := Transit τ Call

/-! ## The script -/

structure Maps (τ : Type) where
  inVpDelVqs : BpfMap τ
  inPcieFlr : BpfMap τ
  pcieFlrDev : BpfMap τ

/-- The three maps without entries. -/
def Maps.empty : Maps τ where
  inVpDelVqs := fun _ => none
  inPcieFlr := fun _ => none
  pcieFlrDev := fun _ => none

/-- The lines printed; a leaf is named by its probe. -/
inductive Line where
  | vpDelVqs (at_ : Stamp) (vdev : BitVec 64)
  | leaf (at_ : Stamp) (probe : Function)
  | pcieFlr (at_ : Stamp) (dev : BitVec 64)
  | flrSet (at_ : Stamp) (dev devctl : BitVec 64)
  deriving DecidableEq

section Script

variable [DecidableEq τ]

/-- `kprobe:vp_del_vqs` -/
def kprobeVpDelVqs (m : Maps τ) (tid : τ) (at_ : Stamp) (arg0 : BitVec 64) : Maps τ × List Line :=
  ({ m with inVpDelVqs := m.inVpDelVqs.set tid 1 }, [.vpDelVqs at_ arg0])

/-- `kprobe:free_irq` and `kprobe:vring_del_virtqueue` -/
def kprobeLeaf (m : Maps τ) (tid : τ) (at_ : Stamp) (probe : Function) : List Line :=
  if m.inVpDelVqs.fetch tid ≠ 0 then [.leaf at_ probe] else []

/-- `kretprobe:vp_del_vqs` -/
def kretprobeVpDelVqs (m : Maps τ) (tid : τ) : Maps τ :=
  { m with inVpDelVqs := m.inVpDelVqs.delete tid }

/-- `kprobe:pcie_flr` -/
def kprobePcieFlr (m : Maps τ) (tid : τ) (at_ : Stamp) (arg0 : BitVec 64) : Maps τ × List Line :=
  ({ m with inPcieFlr := m.inPcieFlr.set tid 1, pcieFlrDev := m.pcieFlrDev.set tid arg0 },
    [.pcieFlr at_ arg0])

/-- `kprobe:pcie_capability_write_word` -/
def kprobePcieCapabilityWriteWord (m : Maps τ) (tid : τ) (at_ : Stamp) (arg0 arg1 arg2 : BitVec 64) :
    List Line :=
  if m.inPcieFlr.fetch tid ≠ 0 ∧ arg0 = m.pcieFlrDev.fetch tid ∧ arg1 = 8 ∧ arg2 &&& 0x8000 ≠ 0 then
    [.flrSet at_ arg0 (arg2 &&& 0xffff)]
  else
    []

/-- `kretprobe:pcie_flr` -/
def kretprobePcieFlr (m : Maps τ) (tid : τ) : Maps τ :=
  { m with inPcieFlr := m.inPcieFlr.delete tid, pcieFlrDev := m.pcieFlrDev.delete tid }

/-- The probe at a call. -/
def enter (m : Maps τ) (tid : τ) (f : Call) : Maps τ × List Line :=
  match f.function with
  | .vpDelVqs => kprobeVpDelVqs m tid f.at_ f.arg0
  | .freeIrq | .vringDelVirtqueue => (m, kprobeLeaf m tid f.at_ f.function)
  | .pcieFlr => kprobePcieFlr m tid f.at_ f.arg0
  | .pcieCapabilityWriteWord => (m, kprobePcieCapabilityWriteWord m tid f.at_ f.arg0 f.arg1 f.arg2)

/-- The probe at a return. -/
def leave (m : Maps τ) (tid : τ) (f : Call) : Maps τ :=
  match f.function with
  | .vpDelVqs => kretprobeVpDelVqs m tid
  | .pcieFlr => kretprobePcieFlr m tid
  | .freeIrq | .vringDelVirtqueue | .pcieCapabilityWriteWord => m

def fire (m : Maps τ) : Event τ → Maps τ × List Line
  | .call tid f => enter m tid f
  | .ret tid f => (leave m tid f, [])

/-- The maps after a history. -/
def maps (evs : List (Event τ)) : Maps τ := evs.foldl (fun m e => (fire m e).1) .empty

/-- What is printed at an event. -/
def printed (pre : List (Event τ)) (e : Event τ) : List Line := (fire (maps pre) e).2

end Script

/-! ## What is said of a history -/

/-- `vp_del_vqs` is followed by a mark. -/
def delMark : Call → Option (BitVec 64) := mark fun f => f.function = .vpDelVqs

/-- `pcie_flr` is followed by its device. -/
def flrDev (f : Call) : Option (BitVec 64) := if f.function = .pcieFlr then some f.arg0 else none

/-- The call asks the device for the reset that the innermost `pcie_flr` is for: it writes the Device
Control register with the bit that starts it. -/
def AsksReset (calls : List Call) (f : Call) : Prop :=
  Transit.innermost flrDev calls = some f.arg0 ∧ f.arg1 = 8 ∧ f.arg2.getLsbD 15 = true

instance (calls : List Call) (f : Call) : Decidable (AsksReset calls f) :=
  inferInstanceAs (Decidable (_ ∧ _))

/-- What is to be printed at an event, with the calls in progress on every thread. -/
def due (calls : τ → List Call) : Event τ → List Line
  | .call tid f =>
    match f.function with
    | .vpDelVqs => [.vpDelVqs f.at_ f.arg0]
    | .freeIrq | .vringDelVirtqueue =>
      if ∃ g ∈ calls tid, g.function = .vpDelVqs then [.leaf f.at_ f.function] else []
    | .pcieFlr => [.pcieFlr f.at_ f.arg0]
    | .pcieCapabilityWriteWord =>
      if AsksReset (calls tid) f then [.flrSet f.at_ f.arg0 ((f.arg2.setWidth 16).setWidth 64)] else []
  | .ret _ _ => []

section Followed

variable [DecidableEq τ]

/-- The script has lost sight of the call to which the event belongs: the last that it has seen of the
followed function, on this thread, is a return from a call inside another one. -/
def LostSight (pre : List (Event τ)) : Event τ → Prop
  | .call tid f =>
    match f.function with
    | .freeIrq | .vringDelVirtqueue => Transit.Blind delMark pre tid
    | .pcieCapabilityWriteWord => Transit.Blind flrDev pre tid
    | .vpDelVqs | .pcieFlr => False
  | .ret _ _ => False

end Followed

end DcPerf.Tracing.Teardown
