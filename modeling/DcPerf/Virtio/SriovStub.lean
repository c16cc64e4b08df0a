import DcPerf.Library.History
import DcPerf.Pci.Address

/-!
# The script `bind_sriovpf_pci_stub.sh`

The script binds an SR-IOV physical function to `pci-pf-stub` and sets the number of its virtual
functions by writing to sysfs. Every write may fail and then has no effect; a write that succeeds
sets the value of its file, a successful write to `sriov_numvfs` leaves virtual functions of the
host's choice, and only a successful bind or unbind changes the driver.
-/

namespace DcPerf.Virtio.SriovStub

open DcPerf.Library DcPerf.Pci

def targetDriver : String := "pci-pf-stub"

/-! ## The device -/

/-- An entry `virtfn*` of the device's directory. -/
structure VirtFn where
  /-- `-L` -/
  isLink : Bool
  bdf : String
  /-- What the `driver` of the virtual function links to. -/
  driver : Option String
  deriving DecidableEq

/-- What sysfs holds of a physical function. -/
structure Pf where
  driver : Option String
  numVfs : ℤ
  autoprobe : ℤ
  driverOverride : String
  virtFns : List VirtFn
  deriving DecidableEq

/-- The links among the entries `virtfn*`. -/
def Pf.vfLinks (pf : Pf) : List VirtFn := pf.virtFns.filter VirtFn.isLink

/-- A write to a file of sysfs. -/
inductive Write where
  | numVfs (value : ℤ)
  | autoprobe (value : ℤ)
  | driverOverride (value : String)
  | unbind
  | bind
  deriving DecidableEq

/-- A write, whether it succeeded, and the device before it. -/
structure Event where
  write : Write
  ok : Bool
  before : Pf
  deriving DecidableEq

/-- What the script finds and what answers it gets, given what was written before. -/
structure Host where
  euid : ℕ
  /-- `-d` of the device's directory. -/
  deviceExists : Bool
  /-- `-r` of `sriov_totalvfs` and `-w` of `sriov_numvfs`. -/
  isSriovPf : Bool
  autoprobeWritable : Bool
  overrideWritable : Bool
  /-- What `sriov_totalvfs` holds, and whether it can be read. -/
  totalVfs : BitVec 16
  readsTotalVfs : Bool
  hasModprobe : Bool
  /-- `modprobe pci-pf-stub` -/
  loadsDriver : Bool
  /-- `-d` of the driver's directory. -/
  driverAvailable : Bool
  bindWritable : Bool
  /-- Whether a write succeeds. -/
  writes : List Event → Write → Bool
  /-- The driver after a bind that succeeded. -/
  boundTo : List Event → Option String
  /-- The entries `virtfn*` after a number of virtual functions was set. -/
  createdVfs : List Event → List VirtFn
  /-- Whether the current driver can be resolved. -/
  resolvesDriver : List Event → Bool
  /-- `-w` of the current driver's `unbind`. -/
  unbindWritable : List Event → Bool
  /-- Whether `sriov_numvfs` and `sriov_drivers_autoprobe` can be read. -/
  readsNumVfs : List Event → Bool
  readsAutoprobe : List Event → Bool
  /-- Whether a link, and the driver of the function it leads to, can be resolved. -/
  resolvesVf : VirtFn → Bool
  resolvesVfDriver : VirtFn → Bool

/-- The device after a write that succeeded. -/
def Host.effect (host : Host) (log : List Event) (pf : Pf) : Write → Pf
  | .numVfs value => { pf with numVfs := value, virtFns := host.createdVfs log }
  | .autoprobe value => { pf with autoprobe := value }
  | .driverOverride value => { pf with driverOverride := value }
  | .unbind => { pf with driver := none }
  | .bind => { pf with driver := host.boundTo log }

structure State where
  pf : Pf
  log : List Event
  deriving DecidableEq

/-! ## The script -/

/-- The value and the file of a write, for its error message. -/
def Write.describe (bdf : String) : Write → String × String
  | .numVfs value => (toString value, s!"/sys/bus/pci/devices/{bdf}/sriov_numvfs")
  | .autoprobe value => (toString value, s!"/sys/bus/pci/devices/{bdf}/sriov_drivers_autoprobe")
  | .driverOverride value => (value, s!"/sys/bus/pci/devices/{bdf}/driver_override")
  | .unbind => (bdf, s!"/sys/bus/pci/devices/{bdf}/driver/unbind")
  | .bind => (bdf, s!"/sys/bus/pci/drivers/{targetDriver}/bind")

/-- `write_sysfs` -/
def writeSysfs (host : Host) (bdf : String) (w : Write) : Script State Unit := do
  let s ← get
  let ok := host.writes s.log w
  set { pf := if ok then host.effect s.log s.pf w else s.pf, log := s.log ++ [⟨w, ok, s.pf⟩] : State }
  let (value, path) := w.describe bdf
  orExit ok (die s!"failed to write '{value}' to {path}")

/-- `get_current_driver`: the empty string when there is none. -/
def getCurrentDriver (host : Host) (bdf : String) : Script State String := do
  let s ← get
  match s.pf.driver with
  | none => return ""
  | some driver =>
    orExit (host.resolvesDriver s.log) (die s!"failed to resolve the current driver for {bdf}")
    return driver

/-- The number that `sriov_numvfs` reads. -/
def readNumVfs (host : Host) (msg : String) : Script State ℤ := do
  let s ← get
  orExit (host.readsNumVfs s.log) (die msg)
  return s.pf.numVfs

/-- The unbinding of the current driver, if there is one. -/
def unbindCurrent (host : Host) (bdf currentDriver : String) : Script State Unit :=
  onlyIf (currentDriver ≠ "") do
    let s ← get
    orExit (host.unbindWritable s.log)
      (die s!"the unbind file for driver {currentDriver} is not writable")
    writeSysfs host bdf .unbind

/-- The change of the driver, when the function is not bound to the target; the result is the number
of virtual functions afterwards. -/
def changeDriver (host : Host) (bdf currentDriver : String) (currentVfs : ℤ) : Script State ℤ := do
  -- VFs must be disabled before changing the PF driver.
  onlyIf (currentVfs ≠ 0) (writeSysfs host bdf (.numVfs 0))
  writeSysfs host bdf (.driverOverride targetDriver)
  unbindCurrent host bdf currentDriver
  writeSysfs host bdf .bind
  let newDriver ← getCurrentDriver host bdf
  orExit (newDriver = targetDriver) (die s!"failed to bind {bdf} to {targetDriver}")
  -- The override was needed only for this bind operation.
  writeSysfs host bdf (.driverOverride "")
  return 0

/-- The driver part of the script. -/
def ensureDriver (host : Host) (bdf currentDriver : String) (currentVfs : ℤ) : Script State ℤ :=
  if currentDriver ≠ targetDriver then changeDriver host bdf currentDriver currentVfs
  else pure currentVfs

/-- The update of the VF count. -/
def updateVfs (host : Host) (bdf : String) (currentVfs vfCount : ℤ) : Script State Unit := do
  -- Prevent the enabled VFs from being automatically attached to host drivers.
  writeSysfs host bdf (.autoprobe 0)
  onlyIf (currentVfs ≠ vfCount) do
    onlyIf (currentVfs ≠ 0) (writeSysfs host bdf (.numVfs 0))
    onlyIf (vfCount ≠ 0) (writeSysfs host bdf (.numVfs vfCount))

/-- The check of one virtual function. -/
def checkVf (host : Host) (vf : VirtFn) : Script State Unit := do
  orExit (host.resolvesVf vf) (die s!"failed to resolve VF link of {vf.bdf}")
  match vf.driver with
  | none => return
  | some driver =>
    orExit (host.resolvesVfDriver vf) (die s!"failed to resolve the driver for VF {vf.bdf}")
    throw (die s!"VF {vf.bdf} is bound to driver {driver}")

/-- The readback verification. -/
def verify (host : Host) (bdf : String) (vfCount : ℤ) : Script State Unit := do
  let actualVfs ← readNumVfs host s!"unexpected sriov_numvfs readback for {bdf}"
  orExit (actualVfs = vfCount)
    (die s!"requested {vfCount} VFs, but sriov_numvfs read back as {actualVfs}")
  let s ← get
  orExit (host.readsAutoprobe s.log && s.pf.autoprobe = 0)
    (die s!"sriov_drivers_autoprobe read back as '{s.pf.autoprobe}' instead of 0")
  orExit (s.pf.vfLinks.length = vfCount)
    (die s!"requested {vfCount} VFs, but found {s.pf.vfLinks.length} virtfn links")
  s.pf.vfLinks.forM (checkVf host)

/-- The script from the first look at the device to its end. -/
def configure (host : Host) (bdf : String) (vfCount : ℤ) : Script State Unit := do
  let currentDriver ← getCurrentDriver host bdf
  let currentVfs ← readNumVfs host s!"unexpected sriov_numvfs value for {bdf}"
  let currentVfs ← ensureDriver host bdf currentDriver currentVfs
  updateVfs host bdf currentVfs vfCount
  verify host bdf vfCount

/-- `$((10#text))` -/
def decimal (text : List Char) : ℤ := ((numeralIn 10 text).getD 0#64).toInt

/-- The checks of the device's files and of the requested count. -/
def checkDevice (host : Host) (bdf : String) (vfCount : ℤ) : Script State Unit := do
  orExit host.deviceExists (die s!"PCI device {bdf} does not exist")
  orExit host.isSriovPf (die s!"{bdf} is not an SR-IOV Physical Function")
  orExit host.autoprobeWritable (die s!"{bdf} does not provide writable sriov_drivers_autoprobe")
  orExit host.overrideWritable (die s!"{bdf} does not provide writable driver_override")
  orExit host.readsTotalVfs (die s!"unexpected sriov_totalvfs value for {bdf}: ")
  orExit (0 < host.totalVfs.toNat) (die s!"{bdf} does not support any VFs")
  orExit (vfCount ≤ host.totalVfs.toNat)
    (die s!"requested {vfCount} VFs, but {bdf} supports 0 through {host.totalVfs.toNat}")

/-- The checks of the host before the device is changed. -/
def checkHost (host : Host) (bdf : String) (vfCount : ℤ) : Script State Unit := do
  orExit (host.euid = 0) (die "this script must be run as root")
  checkDevice host bdf vfCount
  orExit host.hasModprobe (die "'modprobe' is required")
  orExit host.loadsDriver (die s!"failed to load {targetDriver}")
  orExit host.driverAvailable (die s!"{targetDriver} is unavailable after loading the driver")
  orExit host.bindWritable (die s!"/sys/bus/pci/drivers/{targetDriver}/bind is not writable")

/-- The script with its two arguments. -/
def bindStub (host : Host) (rawBdf vfCountRaw : String) : Script State Unit := do
  let bdf ← readBdf rawBdf.toList
  orExit (isDigits vfCountRaw.toList)
    (usageError s!"SRIOV_VFS must be a non-negative integer: {vfCountRaw}")
  let vfCount := decimal vfCountRaw.toList
  checkHost host (String.ofList bdf) vfCount
  configure host (String.ofList bdf) vfCount

/-- The whole script. -/
def main (host : Host) (args : List String) : Script State Unit :=
  if args.head? = some "-h" ∨ args.head? = some "--help" then
    if args.length = 1 then throw ⟨0, ""⟩
    else throw (usageError "--help does not accept arguments")
  else
    match args with
    | [rawBdf, vfCountRaw] => bindStub host rawBdf vfCountRaw
    | _ => throw (usageError "BDF and SRIOV_VFS are required")

/-- A run of the script. -/
def run (host : Host) (args : List String) (pf : Pf) : EStateM.Result Exit State Unit :=
  main host args { pf := pf, log := [] }

/-! ## What is said of a run -/

/-- The function is unbound only without virtual functions, and virtual functions are created only
from none, on the target driver and after autoprobing was switched off. -/
def SafeWrite (pre : List Event) (e : Event) : Prop :=
  (e.write = .unbind → e.before.numVfs = 0) ∧
    ∀ value, e.write = .numVfs value → value ≠ 0 →
      e.before.numVfs = 0 ∧ e.before.driver = some targetDriver ∧
        ∃ x ∈ pre, x.write = .autoprobe 0 ∧ x.ok = true

/-- What the script reports with success. -/
structure Configured (pf : Pf) (count : ℕ) : Prop where
  driver : pf.driver = some targetDriver
  numVfs : pf.numVfs = count
  links : pf.vfLinks.length = count
  autoprobe : pf.autoprobe = 0
  unbound : ∀ vf ∈ pf.vfLinks, vf.driver = none

end DcPerf.Virtio.SriovStub
