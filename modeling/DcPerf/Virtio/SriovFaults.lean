import DcPerf.Virtio.SriovStub

/-!
# What `bind_sriovpf_pci_stub.sh` leaves behind

Between the write that sets `driver_override` and the one that clears it the script may exit, and the
count that it was given is read by shell arithmetic. Both are followed here through every way a run
can take.
-/

namespace DcPerf.Virtio.SriovStub

open DcPerf.Library DcPerf.Pci

/-! ## The override -/

/-- The script up to its first look at the device: the address and the count. -/
def prepare (host : Host) (args : List String) : Script State (String × ℤ) :=
  if args.head? = some "-h" ∨ args.head? = some "--help" then
    if args.length = 1 then throw ⟨0, ""⟩
    else throw (usageError "--help does not accept arguments")
  else
    match args with
    | [rawBdf, vfCountRaw] => do
      let bdf ← readBdf rawBdf.toList
      orExit (isDigits vfCountRaw.toList)
        (usageError s!"SRIOV_VFS must be a non-negative integer: {vfCountRaw}")
      checkHost host (String.ofList bdf) (decimal vfCountRaw.toList)
      return (String.ofList bdf, decimal vfCountRaw.toList)
    | _ => throw (usageError "BDF and SRIOV_VFS are required")

/-- What `get_current_driver` prints. -/
def Pf.driverName (pf : Pf) : String := pf.driver.getD ""

/-- The state after a write that succeeds. -/
def State.after (host : Host) (s : State) (w : Write) : State where
  pf := host.effect s.log s.pf w
  log := s.log ++ [⟨w, true, s.pf⟩]

/-- The states on the way to the target driver, as long as every write succeeds: without virtual
functions, with the override, unbound and bound. -/
def Host.removed (host : Host) (s : State) : State :=
  if s.pf.numVfs ≠ 0 then s.after host (.numVfs 0) else s

def Host.overridden (host : Host) (s : State) : State :=
  (host.removed s).after host (.driverOverride targetDriver)

def Host.unbound (host : Host) (s : State) : State :=
  if s.pf.driverName ≠ "" then (host.overridden s).after host .unbind else host.overridden s

def Host.bound (host : Host) (s : State) : State := (host.unbound s).after host .bind

/-- Nothing ends the script before the override is set. -/
structure SetsOverride (host : Host) (s : State) : Prop where
  other : s.pf.driverName ≠ targetDriver
  resolved : s.pf.driver = none ∨ host.resolvesDriver s.log = true
  read : host.readsNumVfs s.log = true
  removed : s.pf.numVfs ≠ 0 → host.writes s.log (.numVfs 0) = true
  set : host.writes (host.removed s).log (.driverOverride targetDriver) = true

/-- Nothing ends it from there on before the override is cleared. -/
structure ClearsOverride (host : Host) (s : State) : Prop where
  unbound : s.pf.driverName ≠ "" → host.unbindWritable (host.overridden s).log = true ∧
    host.writes (host.overridden s).log .unbind = true
  bound : host.writes (host.unbound s).log .bind = true
  resolved : host.resolvesDriver (host.bound s).log = true
  target : host.boundTo (host.unbound s).log = some targetDriver

/-! ## The count -/

/-- Every test before the range check succeeds. -/
def Host.reachesRange (host : Host) : Bool :=
  host.deviceExists && host.isSriovPf && host.autoprobeWritable && host.overrideWritable &&
    host.readsTotalVfs && decide (0 < host.totalVfs.toNat)

/-- The script goes past the range check exactly with the counts that the function supports, and
creates as many virtual functions as the digits say. -/
structure CountAsAsked (host : Host) (rawBdf vfCountRaw : String) (pf : Pf) : Prop where
  range : Returned (checkDevice host (String.ofList (canonicalBdf rawBdf.toList))
      (decimal vfCountRaw.toList) { pf := pf, log := [] }) ↔
    valueIn 10 vfCountRaw.toList ≤ host.totalVfs.toNat
  writes : ∀ e ∈ (finalState (run host [rawBdf, vfCountRaw] pf)).log, ∀ value,
    e.write = .numVfs value → value ≠ 0 → value = valueIn 10 vfCountRaw.toList

end DcPerf.Virtio.SriovStub
