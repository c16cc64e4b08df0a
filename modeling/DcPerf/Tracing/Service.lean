import DcPerf.Tracing.Marks

/-!
# The service probes of `virtio_unplug.bt`

The script reports when the interrupt thread `pciehp_ist` starts to serve a controller, which of five
functions it reaches, and every call of `pciehp_disable_slot`. The kernel's side is a history of calls and
returns on any number of threads.
-/

namespace DcPerf.Tracing.Service

open DcPerf.Library

inductive Function where
  | pciehpIst
  | pciehpHandleButtonPress
  | pciehpSetIndicators
  | pciDpcRecovered
  | pciehpHandleDisableRequest
  | pciehpHandlePresenceOrLinkChange
  | pciehpDisableSlot
  deriving DecidableEq

/-- `struct controller` -/
structure Controller where
  pendingEvents : BitVec 32
  state : BitVec 8
  deriving DecidableEq

/-- A call, with what the probes see: the register of the second argument, the controller to which the
argument points that is one, and `nsecs`. -/
structure Call where
  function : Function
  arg1 : BitVec 64
  ctrl : Controller
  nsecs : BitVec 64
  deriving DecidableEq

variable {τ : Type}

abbrev Event (τ : Type) := Transit τ Call

/-! ## The script -/

/-- The lines printed; a leaf is named by its probe. -/
inductive Line where
  | enter (nsecs : BitVec 64) (ctrl : Controller)
  | leaf (nsecs : BitVec 64) (probe : Function)
  | disableSlot (nsecs : BitVec 64) (ctrl : Controller) (safeRemoval : BitVec 64)
  deriving DecidableEq

section Script

variable [DecidableEq τ]

/-- `kprobe:pciehp_ist`, on the map `@in_ist` -/
def kprobePciehpIst (inIst : BpfMap τ) (tid : τ) (nsecs : BitVec 64) (ctrl : Controller) :
    BpfMap τ × List Line :=
  (inIst.set tid 1, [.enter nsecs ctrl])

/-- The probe of the five functions. -/
def kprobeLeaf (inIst : BpfMap τ) (tid : τ) (nsecs : BitVec 64) (probe : Function) : List Line :=
  if inIst.fetch tid ≠ 0 then [.leaf nsecs probe] else []

/-- `kretprobe:pciehp_ist` -/
def kretprobePciehpIst (inIst : BpfMap τ) (tid : τ) : BpfMap τ := inIst.delete tid

/-- `kprobe:pciehp_disable_slot` -/
def kprobePciehpDisableSlot (nsecs : BitVec 64) (ctrl : Controller) (arg1 : BitVec 64) : List Line :=
  [.disableSlot nsecs ctrl (arg1 &&& 0xff)]

/-- The probe at a call. -/
def enter (inIst : BpfMap τ) (tid : τ) (f : Call) : BpfMap τ × List Line :=
  match f.function with
  | .pciehpIst => kprobePciehpIst inIst tid f.nsecs f.ctrl
  | .pciehpDisableSlot => (inIst, kprobePciehpDisableSlot f.nsecs f.ctrl f.arg1)
  | .pciehpHandleButtonPress | .pciehpSetIndicators | .pciDpcRecovered | .pciehpHandleDisableRequest
  | .pciehpHandlePresenceOrLinkChange => (inIst, kprobeLeaf inIst tid f.nsecs f.function)

/-- The probe at a return. -/
def leave (inIst : BpfMap τ) (tid : τ) (f : Call) : BpfMap τ :=
  if f.function = .pciehpIst then kretprobePciehpIst inIst tid else inIst

def fire (inIst : BpfMap τ) : Event τ → BpfMap τ × List Line
  | .call tid f => enter inIst tid f
  | .ret tid f => (leave inIst tid f, [])

/-- `@in_ist` after a history. -/
def inIst (evs : List (Event τ)) : BpfMap τ := evs.foldl (fun m e => (fire m e).1) fun _ => none

/-- What is printed at an event. -/
def printed (pre : List (Event τ)) (e : Event τ) : List Line := (fire (inIst pre) e).2

end Script

/-! ## What is said of a history -/

/-- `pciehp_ist` is followed by a mark. -/
def istMark : Call → Option (BitVec 64) := mark fun f => f.function = .pciehpIst

/-- What is to be printed at an event, with the calls in progress on every thread. -/
def due (calls : τ → List Call) : Event τ → List Line
  | .call tid f =>
    match f.function with
    | .pciehpIst => [.enter f.nsecs f.ctrl]
    | .pciehpDisableSlot => [.disableSlot f.nsecs f.ctrl ((f.arg1.setWidth 8).setWidth 64)]
    | .pciehpHandleButtonPress | .pciehpSetIndicators | .pciDpcRecovered | .pciehpHandleDisableRequest
    | .pciehpHandlePresenceOrLinkChange =>
      if ∃ g ∈ calls tid, g.function = .pciehpIst then [.leaf f.nsecs f.function] else []
  | .ret _ _ => []

/-- The functions that report that they were reached. -/
def Function.IsLeaf (f : Function) : Prop := f ≠ .pciehpIst ∧ f ≠ .pciehpDisableSlot

/-- A leaf is called where the script has lost sight of `pciehp_ist`. -/
def LostSight [DecidableEq τ] (pre : List (Event τ)) : Event τ → Prop
  | .call tid f => f.function.IsLeaf ∧ Transit.Blind istMark pre tid
  | .ret _ _ => False

end DcPerf.Tracing.Service
