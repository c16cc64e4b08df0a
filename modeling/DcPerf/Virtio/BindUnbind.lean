import DcPerf.Library.History
import DcPerf.Library.ShellNumber

/-!
# The script `bind_unbind.sh`

The script unbinds a virtio block device from its driver and binds it again, a given number of
times. What it finds on the host before the loop is a record; from the loop on, the host answers one
question at a time: whether a write succeeded, whether the driver link is gone, whether the block
device is there.
-/

namespace DcPerf.Virtio.BindUnbind

open DcPerf.Library

/-! ## Before the loop -/

/-- What the script finds on the host. -/
structure Host where
  euid : ℕ
  /-- `-e /sys/block/DEV` -/
  blockPresent : Bool
  /-- `findmnt -no SOURCE /` -/
  rootDev : String
  /-- The first fields of `/proc/mounts`. -/
  mountSrcs : List String
  /-- `readlink -f` of the block device's `device`, its components from the last to the first. -/
  devicePath : Option (List String)
  pciPresent : Bool
  /-- What the PCI device's `driver` links to, by its base name. -/
  driverName : Option String
  /-- `-w` of the driver's `unbind` and `bind` -/
  writable : Bool

/-- The test of the iteration count: a number that cannot be read is not less than one. -/
def acceptsIterations (iterations : List Char) : Bool :=
  isDigits iterations && !(match shellNumber iterations with
    | some v => v.slt 1#64
    | none => false)

/-- `=~ ^[0-9a-fA-F]{4}:[0-9a-fA-F]{2}:[0-9a-fA-F]{2}\.[0-7]$` -/
def isPciAddr (base : String) : Bool :=
  match base.toList with
  | [a, b, c, d, ':', e, f, ':', g, h, '.', i] =>
    [a, b, c, d, e, f, g, h].all isXDigit && '0' ≤ i && i ≤ '7'
  | _ => false

/-- `== *"sub"*` -/
def contains (s sub : String) : Bool := s.toList.tails.any fun t => sub.toList.isPrefixOf t

/-- `validate_block_device` -/
def validateBlockDevice (host : Host) (devName : String) : Except String Unit :=
  if !host.blockPresent then
    .error s!"ERROR: block device {devName} was not found at /sys/block/{devName}."
  else if contains host.rootDev devName then
    .error s!"ERROR: {devName} appears to back the root filesystem ({host.rootDev}); refusing to unbind it."
  else
    match host.mountSrcs.find? fun src => ("/dev/" ++ devName).toList.isPrefixOf src.toList with
    | some mountSrc => .error s!"ERROR: {mountSrc} is mounted; refusing to unbind {devName}."
    | none => .ok ()

/-- `resolve_pci_addr` -/
def resolvePciAddr (path : List String) : Except String String :=
  match path.find? isPciAddr with
  | some base => .ok base
  | none =>
    let devicePath := "/".intercalate path.reverse
    .error s!"ERROR: could not find a parent PCI address for {devicePath}."

/-- The checks of the PCI device and its driver. -/
def checkDriver (host : Host) (pciAddr : String) : Except String Unit :=
  if !host.pciPresent then
    .error s!"ERROR: PCI device {pciAddr} was not found at /sys/bus/pci/devices/{pciAddr}."
  else
    match host.driverName with
    | none => .error s!"ERROR: PCI device {pciAddr} is not currently bound to a driver."
    | some driverName =>
      if !host.writable then
        .error s!"ERROR: bind/unbind files are not writable for driver {driverName}."
      else
        .ok ()

/-- Everything before the loop; the result is the PCI address. -/
def prepare (host : Host) (devName : String) (iterations : List Char) : Except String String := do
  if host.euid ≠ 0 then
    throw "ERROR: this script must be run as root because it writes to /sys."
  if !acceptsIterations iterations then
    throw "ERROR: iterations must be a positive integer."
  validateBlockDevice host devName
  -- A failing `readlink` ends the script without a message of its own.
  let path ← host.devicePath.elim (throw "") pure
  let pciAddr ← resolvePciAddr path
  checkDriver host pciAddr
  return pciAddr

/-! ## The loop -/

/-- What the script asks of the host. -/
inductive Op where
  | unbind
  | pollLink
  | bind
  | pollBlock
  deriving DecidableEq

/-- A question with its answer: a write succeeded, the link is gone, the block device is there. -/
structure Event where
  op : Op
  answer : Bool
  deriving DecidableEq

/-- Where the script is; a wait counts the polls it has left after the next one. -/
inductive Pc where
  | unbind
  | waitDetached (left : ℕ)
  | bind
  | waitPresent (left : ℕ)
  | checkPresent
  | exited (code : ℕ)
  deriving DecidableEq

structure State where
  /-- The loop counter `i`. -/
  i : BitVec 64
  pc : Pc
  log : List Event
  deriving DecidableEq

/-- `i <= ITERATIONS`: a count that cannot be read ends the loop, and the script with success. -/
def loopTest (iterations : List Char) (i : BitVec 64) : Pc :=
  match shellNumber iterations with
  | some v => if i.sle v then .unbind else .exited 0
  | none => .exited 0

/-- One question to the host, and what the script does with the answer. -/
def step (iterations : List Char) (s : State) (answer : Bool) : State :=
  match s.pc with
  | .unbind =>
    { s with pc := if answer then .waitDetached 49 else .exited 1,
             log := s.log ++ [⟨.unbind, answer⟩] }
  | .waitDetached left =>
    { s with pc := if answer then .bind else match left with
                | 0 => .bind
                | left + 1 => .waitDetached left,
             log := s.log ++ [⟨.pollLink, answer⟩] }
  | .bind =>
    { s with pc := if answer then .waitPresent 99 else .exited 1,
             log := s.log ++ [⟨.bind, answer⟩] }
  | .waitPresent left =>
    { s with pc := if answer then .checkPresent else match left with
                | 0 => .checkPresent
                | left + 1 => .waitPresent left,
             log := s.log ++ [⟨.pollBlock, answer⟩] }
  | .checkPresent =>
    if answer then
      { i := s.i + 1#64, pc := loopTest iterations (s.i + 1#64),
        log := s.log ++ [⟨.pollBlock, answer⟩] }
    else
      { s with pc := .exited 1, log := s.log ++ [⟨.pollBlock, answer⟩] }
  | .exited _ => s

/-- The state in which the loop starts, or the script has ended. -/
def start (host : Host) (devName : String) (iterations : List Char) : State :=
  match prepare host devName iterations with
  | .ok _ => { i := 1#64, pc := loopTest iterations 1#64, log := [] }
  | .error _ => { i := 1#64, pc := .exited 1, log := [] }

/-- The run of the script as far as the answers go. -/
def run (host : Host) (devName : String) (iterations : List Char) (answers : List Bool) : State :=
  answers.foldl (step iterations) (start host devName iterations)

/-! ## What is said of a run -/

/-- The writes of a log. -/
def writes (log : List Event) : List Op :=
  (log.map Event.op).filter fun op => op = .unbind ∨ op = .bind

/-- The events since the last one with the operation `op`, if there is one. -/
def sinceLast (op : Op) (log : List Event) : Option (List Event) :=
  log.foldl (fun cycle e => if e.op = op then some [] else cycle.map (· ++ [e])) none

/-- The event `e` has happened since the last one with the operation `op`. -/
def SeenSince (op : Op) (e : Event) (log : List Event) : Prop :=
  ∃ cycle, sinceLast op log = some cycle ∧ e ∈ cycle

/-- Every bind follows a poll of its own cycle that saw the device detached. -/
def BindsDetached (log : List Event) : Prop :=
  Always (fun pre e => e.op = .bind → SeenSince .unbind ⟨.pollLink, true⟩ pre) log

/-- Every unbind but the first follows a poll, made since the bind before it, that saw the block
device. -/
def UnbindsPresent (log : List Event) : Prop :=
  Always (fun pre e => e.op = .unbind → (∃ x ∈ pre, x.op = .unbind) →
    SeenSince .bind ⟨.pollBlock, true⟩ pre) log

/-- The number that a digit string stands for is the number of unbinds and of binds, one after the
other. -/
def Cycles (iterations : List Char) (log : List Event) : Prop :=
  (writes log).count .unbind = valueIn 10 iterations ∧
    (writes log).count .bind = valueIn 10 iterations ∧
    (writes log).head? = some .unbind ∧ (writes log).IsChain (· ≠ ·)

/-- What the script is for. -/
def CyclesAsAsked (iterations : List Char) (s : State) : Prop :=
  (s.pc = .exited 0 → Cycles iterations s.log) ∧ BindsDetached s.log ∧ UnbindsPresent s.log

/-- The last poll of a wait for the detached device, if it comes to that, sees it detached. -/
def WaitSucceeds (s : State) (answer : Bool) : Prop :=
  s.pc = .waitDetached 0 → answer = true

/-- Every wait for the detached device sees it. -/
def WaitsSucceed (host : Host) (devName : String) (iterations : List Char) (answers : List Bool) :
    Prop :=
  Always (fun pre answer => WaitSucceeds (run host devName iterations pre) answer) answers

/-- The shell reads a digit string as the number it stands for, or as the largest one it has, which
no loop counter passes. -/
def ReadAsWritten (iterations : List Char) : Prop :=
  ∃ v, shellNumber iterations = some v ∧
    (v.toNat = valueIn 10 iterations ∨ v.toNat = 2 ^ 63 - 1)

end DcPerf.Virtio.BindUnbind
