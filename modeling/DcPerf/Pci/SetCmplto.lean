import DcPerf.Library.History
import DcPerf.Pci.Address

/-!
# The script `set_cmplto.sh`

The script sets the Completion Timeout of a PCIe root port, or disables it, by one write to its
DevCtl2 register. It reads the registers with `setpci`, whose every call may fail or print text that
is not a register value.
-/

namespace DcPerf.Pci.SetCmplto

open DcPerf.Library DcPerf.Pci

/-! ## The port -/

/-- The registers of a function that the script looks at. -/
structure Port where
  /-- The PCI Express Capabilities register, `CAP_EXP+02.w`. -/
  pcieCap : BitVec 16
  /-- `CAP_EXP+24.l` -/
  devCap2 : BitVec 32
  /-- `CAP_EXP+28.w` -/
  devCtl2 : BitVec 16
  deriving DecidableEq

inductive Reg where
  | pcieCap
  | devCap2
  | devCtl2
  deriving DecidableEq

/-- The number of hexadecimal digits of a register. -/
def Reg.digits : Reg → ℕ
  | .pcieCap => 4
  | .devCap2 => 8
  | .devCtl2 => 4

def Port.value (port : Port) : Reg → ℕ
  | .pcieCap => port.pcieCap.toNat
  | .devCap2 => port.devCap2.toNat
  | .devCtl2 => port.devCtl2.toNat

/-- A `value:mask` write changes the masked bits only. -/
def maskedWrite (old value mask : BitVec 16) : BitVec 16 := (old &&& ~~~ mask) ||| (value &&& mask)

/-! ## Calls of `setpci` -/

/-- How a read may go: the value of the register, a failure, or text that is no value of it. -/
inductive ReadAnswer (reg : Reg) where
  | value
  | fails
  | malformed (text : List Char) (h : isHexWord reg.digits text = false)

/-- A call of `setpci`: what a read prints if it succeeds, and a write with its success. -/
inductive Call where
  | read (reg : Reg) (output : Option (List Char))
  | write (value mask : BitVec 16) (ok : Bool)
  deriving DecidableEq

/-- What the script finds and what answers it gets, given the calls before. -/
structure Host where
  hasSetpci : Bool
  euid : ℕ
  hasSudo : Bool
  /-- `sudo -v` -/
  sudoWorks : Bool
  reads : List Call → (reg : Reg) → ReadAnswer reg
  writes : List Call → Bool

structure State where
  port : Port
  log : List Call
  deriving DecidableEq

/-- What a read prints. -/
def ReadAnswer.output {reg : Reg} (port : Port) : ReadAnswer reg → Option (List Char)
  | .value => some (hexText reg.digits (port.value reg))
  | .fails => none
  | .malformed text _ => some text

/-- The state after a read. -/
def State.afterRead (s : State) (reg : Reg) (output : Option (List Char)) : State :=
  { s with log := s.log ++ [.read reg output] }

/-- The state after a write to DevCtl2, which is without effect when it fails. -/
def State.afterWrite (s : State) (value mask : BitVec 16) (ok : Bool) : State :=
  { port := if ok = true then { s.port with devCtl2 := maskedWrite s.port.devCtl2 value mask }
      else s.port,
    log := s.log ++ [.write value mask ok] }

/-- `read_config` -/
def readConfig (host : Host) (reg : Reg) : Script State (Option (List Char)) := do
  let s ← get
  let output := (host.reads s.log reg).output s.port
  set (s.afterRead reg output)
  return output

/-- `setpci` with a `value:mask` operation on DevCtl2. -/
def writeDevCtl2 (host : Host) (value mask : BitVec 16) : Script State Bool := do
  let s ← get
  let ok := host.writes s.log
  set (s.afterWrite value mask ok)
  return ok

/-! ## Arguments -/

/-- A line of the table of timeout codes, without the words for the time, which only a message says. -/
structure TimeoutCode where
  code : ℕ
  requiredRange : ℕ
  rangeName : String
  deriving DecidableEq

def timeoutCodes : List TimeoutCode := [
  ⟨0, 0, "default"⟩,
  ⟨1, 1, "A"⟩,
  ⟨2, 1, "A"⟩,
  ⟨5, 2, "B"⟩,
  ⟨6, 2, "B"⟩,
  ⟨9, 4, "C"⟩,
  ⟨10, 4, "C"⟩,
  ⟨13, 8, "D"⟩,
  ⟨14, 8, "D"⟩]

/-- What is asked of the port: one of the codes of the table, or no timeout. -/
inductive Request where
  | disable
  | code (entry : TimeoutCode) (h : entry ∈ timeoutCodes)
  deriving DecidableEq

/-- `${text#pre}` -/
def stripPrefix (pre text : List Char) : List Char :=
  if pre.isPrefixOf text then text.drop pre.length else text

/-- `printf '0x%x'` -/
def showHex (n : ℕ) : String := "0x" ++ String.ofList (Nat.toDigits 16 n)

/-- The code that the second argument asks for. -/
def readCode (rawCode : List Char) : Except Exit Request :=
  let digits := stripPrefix ['0', 'X'] (stripPrefix ['0', 'x'] rawCode)
  if digits.isEmpty || 4 < digits.length || !digits.all isXDigit then
    .error (usageError s!"invalid timeout code: {String.ofList digits}")
  else
    match h : timeoutCodes.find? fun entry => entry.code == hexValue digits with
    | some entry => .ok (.code entry (List.mem_of_find?_eq_some h))
    | none => .error (usageError s!"reserved Completion Timeout code: {showHex (hexValue digits)}")

/-- The address part of the arguments. -/
def checkBdf (rawBdf : List Char) : Except Exit (List Char) :=
  let bdf := canonicalBdf rawBdf
  if isFullBdf bdf then .ok bdf
  else .error (usageError s!"invalid PCI address: {String.ofList bdf}")

/-- What the arguments ask for, and of which port. -/
def parseArgs (args : List String) : Except Exit (List Char × Request) :=
  match args with
  | "-h" :: _ => .error ⟨0, ""⟩
  | "--help" :: _ => .error ⟨0, ""⟩
  | first :: rest =>
    if first = "-d" ∨ first = "--disable" then
      match rest with
      | [rawBdf] => do
        let bdf ← checkBdf rawBdf.toList
        return (bdf, .disable)
      | _ => .error (usageError "--disable requires BDF")
    else if first.toList.head? = some '-' then
      .error (usageError s!"unknown option: {first}")
    else
      match rest with
      | [rawCode] =>
        if rawCode.toList.head? = some '-' then
          .error (usageError s!"unknown option: {rawCode}")
        else do
          let bdf ← checkBdf first.toList
          let request ← readCode rawCode.toList
          return (bdf, request)
      | _ => .error (usageError "BDF and TIMEOUT_CODE are required")
  | [] => .error (usageError "BDF and TIMEOUT_CODE are required")

/-! ## The script -/

/-- `list_supported_timeout_codes` -/
def listSupportedTimeoutCodes (supportedRanges : ℕ) : String :=
  "0x0" ++ (if supportedRanges &&& 0x1 ≠ 0 then ", 0x1, 0x2" else "") ++
    (if supportedRanges &&& 0x2 ≠ 0 then ", 0x5, 0x6" else "") ++
    (if supportedRanges &&& 0x4 ≠ 0 then ", 0x9, 0xa" else "") ++
    (if supportedRanges &&& 0x8 ≠ 0 then ", 0xd, 0xe" else "")

/-- Read a register as text, or exit with one of two messages. -/
def readReg (host : Host) (reg : Reg) (failed unexpected : String) :
    Script State (List Char) := do
  let output ← readConfig host reg
  match output with
  | none => throw (die failed)
  | some text => do
    orExit (isHexWord reg.digits text) (die s!"{unexpected}: {String.ofList text}")
    return text

/-- The privileges that `setpci` needs. -/
def checkTools (host : Host) : Script State Unit := do
  orExit host.hasSetpci (die "'setpci' is required; install pciutils")
  orExit (host.euid = 0 || host.hasSudo) (die "run as root or install sudo")
  orExit (host.euid = 0 || host.sudoWorks) (die "could not acquire root privileges")

/-- The capability checks. -/
def checkCapability (host : Host) (bdf : String) : Script State Unit := do
  let pcieCapHex ← readReg host .pcieCap s!"{bdf} is absent or has no PCI Express capability"
    "unexpected PCIe capability value"
  let pcieCap := hexValue pcieCapHex
  orExit ((pcieCap >>> 4) &&& 0x0f = 0x4)
    (die s!"{bdf} is not a Root Port of a PCI Express Root Complex")
  let pcieVersion := pcieCap &&& 0x0f
  orExit (2 ≤ pcieVersion)
    (die s!"{bdf} has PCIe capability version {pcieVersion}; DevCtl2 is unavailable")

/-- Whether a range field of DevCap2 is an encoding that is not reserved. -/
def isRangeEncoding (supportedRanges : ℕ) : Bool := supportedRanges ∈ [0, 1, 2, 3, 6, 7, 14, 15]

/-- The support that a request needs. -/
def checkRequest (bdf : String) (devCap2 : ℕ) (request : Request) : Script State Unit :=
  match request with
  | .disable =>
    orExit (devCap2 &&& 0x10 ≠ 0) (die s!"{bdf} does not support disabling the Completion Timeout")
  | .code entry _ =>
    let supportedRanges := devCap2 &&& 0x0f
    let needed := s!"code {showHex entry.code} requires Range {entry.rangeName}; "
    let offered := s!"DevCap2 range mask is {showHex supportedRanges}; allowed values: "
    orExit (entry.requiredRange = 0 || supportedRanges &&& entry.requiredRange ≠ 0)
      (die (needed ++ offered ++ listSupportedTimeoutCodes supportedRanges))

/-- The checks of DevCap2. -/
def checkDevCap2 (host : Host) (bdf : String) (request : Request) : Script State Unit := do
  let devCap2Hex ← readReg host .devCap2 s!"failed to read DevCap2 from {bdf}"
    s!"unexpected DevCap2 value from {bdf}"
  let devCap2 := hexValue devCap2Hex
  let supportedRanges := devCap2 &&& 0x0f
  orExit (isRangeEncoding supportedRanges)
    (die s!"DevCap2 contains reserved Completion Timeout range encoding: {showHex supportedRanges}")
  checkRequest bdf devCap2 request

/-- `WRITE_VALUE` -/
def Request.value : Request → ℕ
  | .disable => 0x0010
  | .code entry _ => entry.code

/-- `WRITE_MASK` -/
def Request.mask : Request → ℕ
  | .disable => 0x0010
  | .code _ _ => 0x001f

/-- The update of DevCtl2, when it does not have the value yet. -/
def updateDevCtl2 (host : Host) (bdf : String) (request : Request)
    (beforeHex : List Char) : Script State Unit :=
  onlyIf (hexValue beforeHex &&& request.mask ≠ request.value) do
    let ok ← writeDevCtl2 host (BitVec.ofNat 16 request.value) (BitVec.ofNat 16 request.mask)
    orExit ok (die s!"failed to write DevCtl2 for {bdf}")

/-- The verification of DevCtl2. -/
def verifyDevCtl2 (host : Host) (bdf : String) (request : Request) : Script State Unit := do
  let afterHex ← readReg host .devCtl2 s!"failed to read back DevCtl2 from {bdf}"
    s!"unexpected DevCtl2 readback from {bdf}"
  orExit (hexValue afterHex &&& request.mask = request.value)
    (die s!"verification failed: DevCtl2 read back as 0x{String.ofList afterHex}")

/-- The script after its arguments were read. -/
def setTimeout (host : Host) (bdf : String) (request : Request) : Script State Unit := do
  checkTools host
  checkCapability host bdf
  checkDevCap2 host bdf request
  let beforeHex ← readReg host .devCtl2 s!"failed to read DevCtl2 from {bdf}"
    s!"unexpected DevCtl2 value from {bdf}"
  updateDevCtl2 host bdf request beforeHex
  verifyDevCtl2 host bdf request

def main (host : Host) (args : List String) : Script State Unit :=
  match parseArgs args with
  | .error e => throw e
  | .ok (bdf, request) => setTimeout host (String.ofList bdf) request

/-- A run of the script. -/
def run (host : Host) (args : List String) (port : Port) : EStateM.Result Exit State Unit :=
  main host args { port := port, log := [] }

/-! ## What is said of a run -/

def Call.isWrite : Call → Bool
  | .read _ _ => false
  | .write _ _ _ => true

/-- The arguments ask for `request`. -/
def Asks (args : List String) (request : Request) : Prop :=
  ∃ bdf, parseArgs args = .ok (bdf, request)

/-- The arguments ask for help. -/
def AsksHelp (args : List String) : Prop :=
  args.head? = some "-h" ∨ args.head? = some "--help"

/-- The function is a root port with DevCtl2, its range field is not reserved, and it supports what is
asked. -/
structure Supports (port : Port) (request : Request) : Prop where
  rootPort : (port.pcieCap.extractLsb' 4 4).toNat = 4
  version : 2 ≤ (port.pcieCap.extractLsb' 0 4).toNat
  encoding : (port.devCap2.extractLsb' 0 4).toNat ∈ [0, 1, 2, 3, 6, 7, 14, 15]
  request : match request with
    | .disable => port.devCap2.getLsbD 4 = true
    | .code entry _ => entry.code = 0 ∨ port.devCap2.toNat &&& entry.requiredRange ≠ 0

/-- The bits that a request may change. -/
def Request.Owns (request : Request) (i : ℕ) : Prop :=
  match request with
  | .disable => i = 4
  | .code _ _ => i < 5

/-- A value of DevCtl2 that has what was asked. -/
def Request.Met (request : Request) (devCtl2 : ℕ) : Prop :=
  match request with
  | .disable => devCtl2.testBit 4 = true
  | .code entry _ => devCtl2 % 32 = entry.code ∧ devCtl2.testBit 4 = false

/-- The last call read a value of DevCtl2 that has what was asked. -/
def ReadBack (request : Request) (log : List Call) : Prop :=
  ∃ text, log.getLast? = some (.read .devCtl2 (some text)) ∧ isHexWord 4 text = true ∧
    request.Met (hexValue text)

/-- A log without a write. -/
def OnlyReads (log : List Call) : Prop := ∀ c ∈ log, c.isWrite = false

/-- What every run keeps, whatever its calls answer and wherever it exits. -/
structure Careful (args : List String) (port : Port) (s : State) : Prop where
  once : s.log.countP Call.isWrite ≤ 1
  supported : (∃ c ∈ s.log, c.isWrite = true) → ∃ request, Asks args request ∧ Supports port request
  owned : ∀ request, Asks args request → ∀ i, ¬ request.Owns i →
    s.port.devCtl2.getLsbD i = port.devCtl2.getLsbD i
  unwritten : OnlyReads s.log → s.port = port

/-- What success means: the request was read back, and asking again writes nothing. -/
def Accomplished (args : List String) (s : State) : Prop :=
  ∃ request, Asks args request ∧ ReadBack request s.log ∧
    ∀ host, OnlyReads (finalState (run host args s.port)).log

end DcPerf.Pci.SetCmplto
