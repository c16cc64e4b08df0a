import DcPerf.Library.Calls
import DcPerf.Library.History
import DcPerf.Tracing.Maps

/-!
# The slot status probes of `virtio_unplug.bt`

The script marks the task in which the interrupt handler `pciehp_isr` runs, and reports what the
handler's reads of the slot status register return. The kernel's side is a history of calls and
returns: the handler runs on top of whatever the interrupted task was doing, and several tasks are
interrupted at a time on as many CPUs.
-/

namespace DcPerf.Tracing.Unplug

open DcPerf.Library

/-- `tid` -/
abbrev Tid := BitVec 32

/-- What a CPU runs, and an interrupt finds there: a thread, or the idle task of the CPU. -/
inductive Task (ι : Type) where
  | idle (cpu : ι)
  | thread (tid : {t : Tid // t ≠ 0})
  deriving DecidableEq

variable {ι : Type}

/-- The idle tasks of all CPUs have the same `tid`. -/
def Task.tid : Task ι → Tid
  | .idle _ => 0
  | .thread tid => tid.val

/-- A call in progress. The buffer `val` of a read is memory, so not at address 0. -/
inductive Frame where
  | pciehpIsr
  | pcieCapabilityReadWord (pos : BitVec 64) (val : {p : BitVec 64 // p ≠ 0})
  deriving DecidableEq

/-- What a return finds: the time, the value returned, and the 16-bit words of memory. -/
structure Return where
  nsecs : BitVec 64
  retval : BitVec 64
  memory : BitVec 64 → BitVec 16
  deriving Inhabited

inductive Event (ι : Type) where
  | call (task : Task ι) (f : Frame)
  | ret (task : Task ι) (f : Frame) (r : Return)

/-! ## The script -/

structure Maps where
  inIsr : BpfMap Tid
  sltstaPtr : BpfMap Tid

/-- `@in_isr` and `@sltsta_ptr` without entries. -/
def Maps.empty : Maps := { inIsr := fun _ => none, sltstaPtr := fun _ => none }

/-- What is printed for a read. -/
structure Line where
  nsecs : BitVec 64
  sltsta : BitVec 16
  ret : BitVec 64
  deriving DecidableEq

/-- `kprobe:pciehp_isr` -/
def kprobePciehpIsr (m : Maps) (tid : Tid) : Maps := { m with inIsr := m.inIsr.set tid 1 }

/-- `kretprobe:pciehp_isr` -/
def kretprobePciehpIsr (m : Maps) (tid : Tid) : Maps := { m with inIsr := m.inIsr.delete tid }

/-- `kprobe:pcie_capability_read_word` -/
def kprobePcieCapabilityReadWord (m : Maps) (tid : Tid) (arg1 arg2 : BitVec 64) : Maps :=
  if m.inIsr.fetch tid ≠ 0 ∧ arg1 = 0x1a then
    { m with sltstaPtr := m.sltstaPtr.set tid arg2 }
  else
    m

/-- `kretprobe:pcie_capability_read_word` -/
def kretprobePcieCapabilityReadWord (m : Maps) (tid : Tid) (r : Return) : Maps × List Line :=
  if m.sltstaPtr.fetch tid ≠ 0 then
    let s := r.memory (m.sltstaPtr.fetch tid)
    ({ m with sltstaPtr := m.sltstaPtr.delete tid }, [⟨r.nsecs, s, r.retval⟩])
  else
    (m, [])

/-- The probe that an event fires. -/
def fire (m : Maps) : Event ι → Maps × List Line
  | .call task .pciehpIsr => (kprobePciehpIsr m task.tid, [])
  | .ret task .pciehpIsr _ => (kretprobePciehpIsr m task.tid, [])
  | .call task (.pcieCapabilityReadWord pos val) =>
    (kprobePcieCapabilityReadWord m task.tid pos val, [])
  | .ret task (.pcieCapabilityReadWord _ _) r => kretprobePcieCapabilityReadWord m task.tid r

/-- The maps after a history. -/
def maps (evs : List (Event ι)) : Maps := evs.foldl (fun m e => (fire m e).1) .empty

/-- What is printed at an event. -/
def printed (pre : List (Event ι)) (e : Event ι) : List Line := (fire (maps pre) e).2

/-! ## The kernel -/

section Kernel

variable [DecidableEq ι]

/-- A call puts its frame on the stack of its task, and the return takes it away. -/
def move (stk : Task ι → List Frame) : Event ι → Task ι → List Frame
  | .call task f => Function.update stk task (f :: stk task)
  | .ret task _ _ => Function.update stk task (stk task).tail

/-- The calls in progress after a history. -/
def stackOf (evs : List (Event ι)) : Task ι → List Frame := evs.foldl move fun _ => []

/-- The handler reads, and a read calls no other read. A thread reads for itself too, an idle task does
not. -/
def mayRead : Task ι → List Frame → Bool
  | _, .pciehpIsr :: _ => true
  | _, .pcieCapabilityReadWord _ _ :: _ => false
  | .idle _, [] => false
  | .thread _, [] => true

/-- What the kernel does in a state; the handler is not interrupted by itself. -/
def Allowed (stk : Task ι → List Frame) : Event ι → Prop
  | .call task .pciehpIsr => .pciehpIsr ∉ stk task
  | .call task (.pcieCapabilityReadWord _ _) => mayRead task (stk task) = true
  | .ret task f _ => (stk task).head? = some f

instance (stk : Task ι → List Frame) (e : Event ι) : Decidable (Allowed stk e) := by
  cases e with
  | call task f =>
    cases f with
    | pciehpIsr => exact inferInstanceAs (Decidable (_ ∉ _))
    | pcieCapabilityReadWord pos val => exact inferInstanceAs (Decidable (_ = true))
  | ret task f r => exact inferInstanceAs (Decidable (_ = some f))

/-- A history of the kernel. -/
def Nested (evs : List (Event ι)) : Prop := Always (fun pre e => Allowed (stackOf pre) e) evs

/-! ## What is said of a history -/

/-- What is to be printed at an event: the read that returns was one of the slot status register made
by the handler, so the line has the value in the buffer of this read. -/
def due (stk : Task ι → List Frame) : Event ι → List Line
  | .ret task (.pcieCapabilityReadWord pos val) r =>
    if pos = 0x1a ∧ .pciehpIsr ∈ (stk task).tail then [⟨r.nsecs, r.memory val, r.retval⟩] else []
  | _ => []

/-- Each slot status read of a handler is reported at its return, with the value in its own buffer,
and nothing else is; when every handler has returned, the maps are empty. -/
def Faithful (evs : List (Event ι)) : Prop :=
  Always (fun pre e => printed pre e = due (stackOf pre) e) evs ∧
  ∀ pre, pre <+: evs → (∀ task, .pciehpIsr ∉ stackOf pre task) → maps pre = .empty

/-- When the handler starts, no other run of it sees the same `tid`: of the CPUs that are idle, one at
most is in the handler. -/
def StartsAlone (stk : Task ι → List Frame) : Event ι → Prop
  | .call task .pciehpIsr => ∀ task', task'.tid = task.tid → .pciehpIsr ∈ stk task' → task' = task
  | _ => True

end Kernel

end DcPerf.Tracing.Unplug
