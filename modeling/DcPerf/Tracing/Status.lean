import DcPerf.Library.History
import DcPerf.Tracing.Maps

/-!
# The status probes of `vblk_pci_dev.bt`

Five probes follow `vp_modern_set_status`: one sees a reset of the device, the others report what the
driver acknowledges after it. What a run does is a list of calls, of any devices in any order.
-/

namespace DcPerf.Tracing.Status

open DcPerf.Library

/-- What the driver acknowledges. -/
inductive Milestone where
  | ack
  | driver
  | featuresOk
  | driverOk
  deriving DecidableEq

/-- Two readings of `nsecs` in one probe. The clock counts from the start of the machine, so it never
shows 0. -/
structure Clock where
  first : {t : BitVec 64 // t ≠ 0}
  later : {t : BitVec 64 // t ≠ 0}
  deriving DecidableEq

/-- A call of `vp_modern_set_status`, with what the probes find there. -/
structure Event where
  /-- `arg0` -/
  mdev : BitVec 64
  /-- `arg1`, a register of which the status is the low byte. -/
  status : BitVec 64
  /-- `*(uint64 *)arg0` -/
  pciDev : BitVec 64
  resetClock : Clock
  clock : Milestone → Clock
  comm : String
  pid : BitVec 32

structure Maps where
  seenAck : BpfMap (BitVec 64)
  seenDriver : BpfMap (BitVec 64)
  seenFeaturesOk : BpfMap (BitVec 64)
  seenDriverOk : BpfMap (BitVec 64)
  resetNs : BpfMap (BitVec 64)

def Maps.empty : Maps where
  seenAck := fun _ => none
  seenDriver := fun _ => none
  seenFeaturesOk := fun _ => none
  seenDriverOk := fun _ => none
  resetNs := fun _ => none

/-- The map of a milestone. -/
def Maps.seen (m : Maps) : Milestone → BpfMap (BitVec 64)
  | .ack => m.seenAck
  | .driver => m.seenDriver
  | .featuresOk => m.seenFeaturesOk
  | .driverOk => m.seenDriverOk

/-- `@seen_…[mdev] = v` -/
def Maps.setSeen (m : Maps) (mdev v : BitVec 64) : Milestone → Maps
  | .ack => { m with seenAck := m.seenAck.set mdev v }
  | .driver => { m with seenDriver := m.seenDriver.set mdev v }
  | .featuresOk => { m with seenFeaturesOk := m.seenFeaturesOk.set mdev v }
  | .driverOk => { m with seenDriverOk := m.seenDriverOk.set mdev v }

inductive Line where
  | reset (at_ : Stamp) (mdev pciDev : BitVec 64)
  | reached (milestone : Milestone) (at_ : Stamp) (status deltaMs mdev pciDev : BitVec 64)
  deriving DecidableEq

/-! ## The probes -/

/-- `(arg1 & 0xff) == 0` -/
def Event.Resets (e : Event) : Prop := e.status &&& 0xff = 0

instance (e : Event) : Decidable e.Resets := inferInstanceAs (Decidable (_ = _))

def kprobeReset (m : Maps) (e : Event) : Maps × List Line :=
  if e.Resets then
    ({ seenAck := m.seenAck.set e.mdev 0,
       seenDriver := m.seenDriver.set e.mdev 0,
       seenFeaturesOk := m.seenFeaturesOk.set e.mdev 0,
       seenDriverOk := m.seenDriverOk.set e.mdev 0,
       resetNs := m.resetNs.set e.mdev e.resetClock.first },
      [.reset ⟨e.resetClock.later, e.comm, e.pid⟩ e.mdev e.pciDev])
  else
    (m, [])

/-- The probe of the milestone with the status bit `bit`. -/
def kprobeMilestone (milestone : Milestone) (bit : BitVec 64) (m : Maps) (e : Event) :
    Maps × List Line :=
  if e.status &&& bit ≠ 0 ∧ (m.seen milestone).fetch e.mdev = 0 then
    let m := m.setSeen e.mdev 1 milestone
    let ns := (e.clock milestone).first
    let status := e.status &&& 0xff
    let deltaMs := if m.resetNs.fetch e.mdev ≠ 0 then
        ((e.clock milestone).later.val - m.resetNs.fetch e.mdev) / 1000000
      else 0
    (m, [.reached milestone ⟨ns, e.comm, e.pid⟩ status deltaMs e.mdev e.pciDev])
  else
    (m, [])

def kprobeAck : Maps → Event → Maps × List Line := kprobeMilestone .ack 1

def kprobeDriver : Maps → Event → Maps × List Line := kprobeMilestone .driver 2

def kprobeFeaturesOk : Maps → Event → Maps × List Line := kprobeMilestone .featuresOk 8

def kprobeDriverOk : Maps → Event → Maps × List Line := kprobeMilestone .driverOk 4

/-- The five probes, one after the other. -/
def fire (m : Maps) (e : Event) : Maps × List Line :=
  let (m, reset) := kprobeReset m e
  let (m, ack) := kprobeAck m e
  let (m, driver) := kprobeDriver m e
  let (m, featuresOk) := kprobeFeaturesOk m e
  let (m, driverOk) := kprobeDriverOk m e
  (m, reset ++ ack ++ driver ++ featuresOk ++ driverOk)

/-- The maps after a list of calls. -/
def maps (evs : List Event) : Maps := evs.foldl (fun m e => (fire m e).1) .empty

/-- What is printed at a call. -/
def printed (pre : List Event) (e : Event) : List Line := (fire (maps pre) e).2

/-! ## What is said of a run -/

/-- The status bit of a milestone. -/
def Milestone.bit : Milestone → ℕ
  | .ack => 0
  | .driver => 1
  | .featuresOk => 3
  | .driverOk => 2

/-- The call is for the device, and its status has the bit of the milestone. -/
def Event.Reaches (e : Event) (mdev : BitVec 64) (milestone : Milestone) : Prop :=
  e.mdev = mdev ∧ e.status.getLsbD milestone.bit = true

instance (e : Event) (mdev : BitVec 64) (milestone : Milestone) :
    Decidable (e.Reaches mdev milestone) :=
  inferInstanceAs (Decidable (_ ∧ _))

/-- The call resets the device. -/
def Event.ResetsDevice (e : Event) (mdev : BitVec 64) : Prop :=
  e.mdev = mdev ∧ e.status.setWidth 8 = 0

/-- The lines about a milestone of a device. -/
def linesFor (mdev : BitVec 64) (milestone : Milestone) (lines : List Line) : List Line :=
  lines.filter fun line => match line with
    | .reset _ _ _ => false
    | .reached milestone' _ _ _ mdev' _ => milestone' = milestone ∧ mdev' = mdev

/-- The line has the milliseconds from the reset to the call, and what the call is. -/
def Reports (line : Line) (milestone : Milestone) (reset e : Event) : Prop :=
  ∃ deltaMs, line = .reached milestone ⟨(e.clock milestone).first, e.comm, e.pid⟩
      (e.status &&& 0xff) deltaMs e.mdev e.pciDev ∧
    (reset.resetClock.first.val ≤ (e.clock milestone).later.val →
      deltaMs.toNat = ((e.clock milestone).later.val.toNat - reset.resetClock.first.val.toNat) / 1000000)

/-- Since its latest reset, a device's milestone is reported at the first call that reaches it, and at
no other. -/
def ReportedOnce (evs : List Event) (mdev : BitVec 64) (milestone : Milestone) : Prop :=
  ∀ pre reset mid e post, evs = pre ++ reset :: mid ++ e :: post →
    reset.ResetsDevice mdev → (∀ x ∈ mid, ¬x.ResetsDevice mdev) →
    if e.Reaches mdev milestone ∧ ∀ x ∈ mid, ¬x.Reaches mdev milestone then
      ∃ line, linesFor mdev milestone (printed (pre ++ reset :: mid) e) = [line] ∧
        Reports line milestone reset e
    else
      linesFor mdev milestone (printed (pre ++ reset :: mid) e) = []

end DcPerf.Tracing.Status
