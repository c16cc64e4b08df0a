import DcPerf.Library.Calls
import DcPerf.Library.History
import DcPerf.Tracing.Maps

/-!
# The PCI_COMMAND probes of `vblk_pci_dev.bt`

The script follows `virtio_pci_probe`, `__pci_set_master` and `pci_disable_device` on each thread, and
reports the writes of PCI_COMMAND that they make. The kernel's side is a history of calls and returns
on any number of threads, and of the moments in which a write in progress takes effect.
-/

namespace DcPerf.Tracing.Command

open DcPerf.Library

/-! ## The kernel -/

/-- A call of one of the functions, with its arguments as the probes see them in the registers. -/
inductive Call where
  | virtioPciProbe (dev : BitVec 64)
  | pciSetMaster (dev enable : BitVec 64)
  | pciDisableDevice (dev : BitVec 64)
  | pciWriteConfigWord (dev pos val : BitVec 64)
  deriving DecidableEq

inductive Function where
  | virtioPciProbe
  | pciSetMaster
  | pciDisableDevice
  | pciWriteConfigWord
  deriving DecidableEq

def Call.function : Call → Function
  | .virtioPciProbe _ => .virtioPciProbe
  | .pciSetMaster _ _ => .pciSetMaster
  | .pciDisableDevice _ => .pciDisableDevice
  | .pciWriteConfigWord _ _ _ => .pciWriteConfigWord

variable {τ : Type}

inductive Event (τ : Type) where
  | call (t : τ) (f : Call) (at_ : Stamp)
  | ret (t : τ) (f : Call)
  /-- The write that the thread is in the middle of takes effect. -/
  | commit (t : τ)

/-! ## The script -/

structure Maps (τ : Type) where
  inVirtioPciProbe : BpfMap τ
  inPciSetMaster : BpfMap τ
  pciMasterDev : BpfMap τ
  pciMasterEnable : BpfMap τ
  inPciDisableDevice : BpfMap τ
  pciDisableDev : BpfMap τ

/-- The six maps without entries. -/
def Maps.empty : Maps τ where
  inVirtioPciProbe := fun _ => none
  inPciSetMaster := fun _ => none
  pciMasterDev := fun _ => none
  pciMasterEnable := fun _ => none
  inPciDisableDevice := fun _ => none
  pciDisableDev := fun _ => none

/-- The lines printed, each by the probe of this name; the two probes of `pci_write_config_word` are
told apart by what they have seen change. -/
inductive Line where
  | virtioPciProbe (at_ : Stamp) (dev : BitVec 64)
  | pciSetMaster (at_ : Stamp) (dev enable : BitVec 64)
  | masterChanged (at_ : Stamp) (dev old new : BitVec 64) (oldBme newBme : Bool)
  | pciDisableDevice (at_ : Stamp) (dev : BitVec 64)
  | masterCleared (at_ : Stamp) (dev old new : BitVec 64)
  deriving DecidableEq

section Script

variable [DecidableEq τ]

/-- `kprobe:virtio_pci_probe` -/
def kprobeVirtioPciProbe (m : Maps τ) (tid : τ) (at_ : Stamp) (arg0 : BitVec 64) :
    Maps τ × List Line :=
  ({ m with inVirtioPciProbe := m.inVirtioPciProbe.set tid 1 }, [.virtioPciProbe at_ arg0])

/-- `kretprobe:virtio_pci_probe` -/
def kretprobeVirtioPciProbe (m : Maps τ) (tid : τ) : Maps τ :=
  { m with inVirtioPciProbe := m.inVirtioPciProbe.delete tid }

/-- `kprobe:__pci_set_master` -/
def kprobePciSetMaster (m : Maps τ) (tid : τ) (at_ : Stamp) (arg0 arg1 : BitVec 64) :
    Maps τ × List Line :=
  if m.inVirtioPciProbe.fetch tid ≠ 0 then
    ({ m with inPciSetMaster := m.inPciSetMaster.set tid 1,
              pciMasterDev := m.pciMasterDev.set tid arg0,
              pciMasterEnable := m.pciMasterEnable.set tid arg1 },
      [.pciSetMaster at_ arg0 arg1])
  else
    (m, [])

/-- `kretprobe:__pci_set_master` -/
def kretprobePciSetMaster (m : Maps τ) (tid : τ) : Maps τ :=
  { m with inPciSetMaster := m.inPciSetMaster.delete tid,
           pciMasterDev := m.pciMasterDev.delete tid,
           pciMasterEnable := m.pciMasterEnable.delete tid }

/-- The first probe of `pci_write_config_word`. -/
def kprobeWriteSetMaster (m : Maps τ) (tid : τ) (at_ : Stamp) (arg0 arg1 arg2 : BitVec 64) :
    List Line :=
  if m.inPciSetMaster.fetch tid ≠ 0 ∧ arg0 = m.pciMasterDev.fetch tid ∧ arg1 = 4 then
    let new := arg2 &&& 0xffff
    let old := if m.pciMasterEnable.fetch tid ≠ 0 then new &&& 0xfffb else new ||| 4
    [.masterChanged at_ arg0 old new (old &&& 4 != 0) (new &&& 4 != 0)]
  else
    []

/-- `kprobe:pci_disable_device` -/
def kprobePciDisableDevice (m : Maps τ) (tid : τ) (at_ : Stamp) (arg0 : BitVec 64) :
    Maps τ × List Line :=
  ({ m with inPciDisableDevice := m.inPciDisableDevice.set tid 1,
            pciDisableDev := m.pciDisableDev.set tid arg0 }, [.pciDisableDevice at_ arg0])

/-- The second probe of `pci_write_config_word`. -/
def kprobeWriteDisableDevice (m : Maps τ) (tid : τ) (at_ : Stamp) (arg0 arg1 arg2 : BitVec 64) :
    List Line :=
  if m.inPciDisableDevice.fetch tid ≠ 0 ∧ arg0 = m.pciDisableDev.fetch tid ∧ arg1 = 4 ∧
      arg2 &&& 4 = 0 then
    let new := arg2 &&& 0xffff
    let old := new ||| 4
    [.masterCleared at_ arg0 old new]
  else
    []

/-- `kretprobe:pci_disable_device` -/
def kretprobePciDisableDevice (m : Maps τ) (tid : τ) : Maps τ :=
  { m with inPciDisableDevice := m.inPciDisableDevice.delete tid,
           pciDisableDev := m.pciDisableDev.delete tid }

/-- The probes that an event fires. -/
def fire (m : Maps τ) : Event τ → Maps τ × List Line
  | .call t (.virtioPciProbe dev) at_ => kprobeVirtioPciProbe m t at_ dev
  | .call t (.pciSetMaster dev enable) at_ => kprobePciSetMaster m t at_ dev enable
  | .call t (.pciDisableDevice dev) at_ => kprobePciDisableDevice m t at_ dev
  | .call t (.pciWriteConfigWord dev pos val) at_ =>
    (m, kprobeWriteSetMaster m t at_ dev pos val ++ kprobeWriteDisableDevice m t at_ dev pos val)
  | .ret t (.virtioPciProbe _) => (kretprobeVirtioPciProbe m t, [])
  | .ret t (.pciSetMaster _ _) => (kretprobePciSetMaster m t, [])
  | .ret t (.pciDisableDevice _) => (kretprobePciDisableDevice m t, [])
  | .ret _ (.pciWriteConfigWord _ _ _) => (m, [])
  | .commit _ => (m, [])

end Script

/-! ## Runs -/

/-- A call in progress, with what was printed when it was made. -/
structure Frame where
  call : Call
  lines : List Line
  deriving DecidableEq

/-- The script, and the kernel: the calls in progress on every thread, and PCI_COMMAND of every
device. -/
structure State (τ : Type) where
  maps : Maps τ
  stackOf : τ → List Frame
  command : BitVec 64 → BitVec 16

/-- The register after a write of the word `val` at `pos`. -/
def written (command : BitVec 64 → BitVec 16) : Call → BitVec 64 → BitVec 16
  | .pciWriteConfigWord dev pos val =>
    if pos = 4 then Function.update command dev (val.setWidth 16) else command
  | _ => command

section Run

variable [DecidableEq τ]

def step (s : State τ) (e : Event τ) : State τ :=
  let (maps, lines) := fire s.maps e
  match e with
  | .call t f _ =>
    { s with maps, stackOf := Function.update s.stackOf t (⟨f, lines⟩ :: s.stackOf t) }
  | .ret t _ => { s with maps, stackOf := Function.update s.stackOf t (s.stackOf t).tail }
  | .commit t =>
    match s.stackOf t with
    | frame :: _ => { s with maps, command := written s.command frame.call }
    | [] => s

def start (command : BitVec 64 → BitVec 16) : State τ :=
  { maps := .empty, stackOf := fun _ => [], command }

/-- The state after a history. -/
def run (command : BitVec 64 → BitVec 16) (evs : List (Event τ)) : State τ :=
  evs.foldl step (start command)

/-- The calls in progress on a thread, the innermost first. -/
def State.calls (s : State τ) (t : τ) : List Call := (s.stackOf t).map Frame.call

/-- What is printed at an event. -/
def printed (s : State τ) (e : Event τ) : List Line := (fire s.maps e).2

/-! ## What the kernel does -/

/-- The calls of a thread are nested, and of the three functions that the script follows none is
entered again on its own thread. -/
def Allowed (s : State τ) : Event τ → Prop
  | .call t f _ => f.function ≠ .pciWriteConfigWord → ∀ g ∈ s.calls t, g.function ≠ f.function
  | .ret t f => (s.calls t).head? = some f
  | .commit t => ∃ dev pos val below, s.calls t = .pciWriteConfigWord dev pos val :: below

/-- A `__pci_set_master` call writes PCI_COMMAND of its device only when the master bit is not yet what
it is called for, and changes this bit only. -/
def SetsMasterOnly (s : State τ) : Event τ → Prop
  | .commit t => ∀ dev val enable below, s.calls t = .pciWriteConfigWord dev 4 val :: below →
      .pciSetMaster dev enable ∈ below →
      val.setWidth 16 = s.command dev ^^^ 4 ∧ val.getLsbD 2 = (enable != 0)
  | _ => True

/-! ## What is said of a run -/

/-- On this stack a `__pci_set_master` call for the device is active inside `virtio_pci_probe`. -/
def SetsMaster (calls : List Call) (dev enable : BitVec 64) : Prop :=
  ∃ above below, calls = above ++ .pciSetMaster dev enable :: below ∧
    ∃ pdev, .virtioPciProbe pdev ∈ below

/-- The first probe of `pci_write_config_word` fires at the event. -/
def FiresFirst (s : State τ) (e : Event τ) : Prop :=
  ∃ at_ dev old new bme bme', .masterChanged at_ dev old new bme bme' ∈ printed s e

/-- The second probe fires. -/
def FiresSecond (s : State τ) (e : Event τ) : Prop :=
  ∃ at_ dev old new, .masterCleared at_ dev old new ∈ printed s e

/-- The probes fire for the right writes. -/
def FiresRight (s : State τ) (e : Event τ) : Prop :=
  (FiresFirst s e ↔ ∃ t dev val at_, e = .call t (.pciWriteConfigWord dev 4 val) at_ ∧
    ∃ enable, SetsMaster (s.calls t) dev enable) ∧
  (FiresSecond s e ↔ ∃ t dev val at_, e = .call t (.pciWriteConfigWord dev 4 val) at_ ∧
    val.getLsbD 2 = false ∧ .pciDisableDevice dev ∈ s.calls t)

/-- What the first probe printed for a write that now takes effect: the register before and after. -/
def ValuesRight (s : State τ) : Event τ → Prop
  | .commit t => ∀ frame below, s.stackOf t = frame :: below →
      ∀ at_ dev old new bme bme', .masterChanged at_ dev old new bme bme' ∈ frame.lines →
        old = (s.command dev).setWidth 64 ∧
        new = ((step s (.commit t)).command dev).setWidth 64 ∧
        bme = (s.command dev).getLsbD 2 ∧ bme' = ((step s (.commit t)).command dev).getLsbD 2
  | _ => True

/-- The changes of PCI_COMMAND are attributed correctly, and nothing is left in the maps when all
calls have returned. -/
structure Attributed (command : BitVec 64 → BitVec 16) (evs : List (Event τ)) : Prop where
  fires : Always (fun pre e => FiresRight (run command pre) e) evs
  values : Always (fun pre e => ValuesRight (run command pre) e) evs
  empties : ∀ pre, pre <+: evs → (∀ t, (run command pre).stackOf t = []) →
    (run command pre).maps = .empty

end Run

end DcPerf.Tracing.Command
