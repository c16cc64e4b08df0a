import DcPerf.Library.Requests
import DcPerf.Library.ShellNumber
import DcPerf.Library.ShellText
import Mathlib.Algebra.Ring.Int.Defs

/-!
# The script `hotplug.sh`

In each round the script creates an emulated function, plugs it into the host with a disk behind it, takes
the disk and the function away, and destroys it. The function is named by what the reply to its creation
says.
-/

namespace DcPerf.Soak.Hotplug

open DcPerf.Library DcPerf.Library.ShellText

/-- The commands, without the arguments that are the same in every call. An argument that is not quoted is
the words of its text. -/
inductive Command where
  | bdevMallocCreate
  | virtioBlkFunctionCreate
  | virtioBlkControllerCreate (vuid bdev : List (List Char))
  | virtioBlkControllerModify
  | virtioBlkControllerHotplug
  | virtioBlkControllerBdevDetach
  /-- `--dbg_bdev_type null --bdev none` -/
  | virtioBlkControllerBdevAttach
  | virtioBlkControllerHotunplug
  | virtioBlkControllerDestroy
  | virtioBlkFunctionDestroy (vuid : List (List Char))
  | sleep (seconds : ℕ)
  | echo (text : String)
  deriving DecidableEq

abbrev Log := List (Ran Command)

/-! ## What the reply says -/

/-- `echo $info` -/
def infoLine (info : List Char) : List Char := echo (words info)

/-- `awk '{print $k}'` of a line -/
def awkField (k : ℕ) (line : List Char) : List Char := (words line).getD (k - 1) []

/-- `vhca_id` -/
def vhcaId (info : List Char) : List Char := awkField 3 (cut ',' 1 (infoLine info))

/-- `vuid` -/
def vuidOf (info : List Char) : List Char := cut '"' 2 (awkField 2 (cut ',' 2 (infoLine info)))

/-- A number for `[`: an optional sign and decimal digits, within 64 bits. -/
def testNumber (text : List Char) : Option ℤ :=
  let number : Option ℤ := match text with
    | '-' :: digits => if isDigits digits then some (-(valueIn 10 digits : ℤ)) else none
    | '+' :: digits => if isDigits digits then some (valueIn 10 digits : ℤ) else none
    | digits => if isDigits digits then some (valueIn 10 digits : ℤ) else none
  number.filter fun n => -2 ^ 63 ≤ n ∧ n < 2 ^ 63

/-- `[ text -ne n ]`, with the status of an expression that is none. -/
def testNe (text : List Char) (n : ℤ) : ℕ :=
  match testNumber text with
  | none => 2
  | some m => if m ≠ n then 0 else 1

/-- The condition on which the script gives up. -/
def Unexpected (vhcaId : List Char) : Prop :=
  testNe vhcaId 5 = 0 ∧ testNe vhcaId 6 = 0 ∧ testNe vhcaId 7 = 0 ∧ testNe vhcaId 8 = 0

instance (vhcaId : List Char) : Decidable (Unexpected vhcaId) := inferInstanceAs (Decidable (_ ∧ _))

/-! ## The script -/

variable (w : TimedHost Command)

/-- `create_attach`: the variable `vuid` after it. -/
def createAttach (bdev : List Char) : Script Log (List Char) := do
  let output ← w.output .virtioBlkFunctionCreate
  let info := substitution output
  onlyIf (Unexpected (vhcaId info)) do
    let rst ← w.status (.echo "The vhca_id is not 5 and not 6")
    throw { code := rst, msg := "The vhca_id is not 5 and not 6" }
  let vuid := vuidOf info
  w.call (.virtioBlkControllerCreate (words vuid) (words bdev))
  w.call .virtioBlkControllerModify
  w.call .virtioBlkControllerHotplug
  return vuid

/-- `detach_destroy` -/
def detachDestroy (vuid : List Char) : Script Log Unit := do
  w.call .virtioBlkControllerBdevDetach
  w.call .virtioBlkControllerBdevAttach
  w.call (.sleep 2)
  w.call .virtioBlkControllerHotunplug
  w.call .virtioBlkControllerDestroy
  w.call (.virtioBlkFunctionDestroy (words vuid))

/-- The body of the loop. -/
def round (bdev : List Char) (i : ℕ) : Script Log Unit := do
  w.call (.echo s!"--------- test round {i} start ----------")
  let vuid ← createAttach w bdev
  w.call (.echo "--------- sleeping 100 ----------")
  w.call (.sleep 100)
  w.call (.echo "--------- sleeped 100 ----------")
  detachDestroy w vuid
  w.call (.echo s!"-------- test round {i} end -----------")

/-- The script with `n` rounds. The loop has 2999 of them, from `i=1` to `i<3000`. -/
def main (n : ℕ) : Script Log Unit := do
  let output ← w.output .bdevMallocCreate
  (List.range n).forM fun i => round w (substitution output) (i + 1)

/-! ## What is there -/

inductive Backing where
  | none
  | malloc
  | null
  deriving DecidableEq

/-- What the DPU has. -/
structure Dpu where
  /-- The function that was created last, under the name from the reply, until it is destroyed. -/
  function : Option (List (List Char))
  controller : Bool
  backing : Backing
  plugged : Bool
  deriving DecidableEq

namespace Dpu

def empty : Dpu := { function := none, controller := false, backing := .none, plugged := false }

/-- What a request does that is granted. -/
def grant (s : Dpu) (r : Ran Command) : Dpu :=
  match r.command with
  | .virtioBlkFunctionCreate => { s with function := some (words (vuidOf (substitution r.reply.output))) }
  | .virtioBlkControllerCreate _ _ => { s with controller := true, backing := .malloc }
  | .virtioBlkControllerHotplug => { s with plugged := true }
  | .virtioBlkControllerBdevDetach => { s with backing := .none }
  | .virtioBlkControllerBdevAttach => { s with backing := .null }
  | .virtioBlkControllerHotunplug => { s with plugged := false }
  | .virtioBlkControllerDestroy => { s with controller := false, backing := .none }
  | .virtioBlkFunctionDestroy _ => { s with function := none }
  | _ => s

/-- A request that is refused has no effect. -/
def next (s : Dpu) (r : Ran Command) : Dpu := if r.reply.status = 0 then s.grant r else s

/-- When a command makes sense: there is one function at a time, and it is destroyed by its own name and
without a controller; a controller is for that function, is changed before it is plugged in, and is
unplugged after its disk was replaced and before it is destroyed. -/
def Allowed (s : Dpu) (r : Ran Command) : Prop :=
  match r.command with
  | .virtioBlkFunctionCreate => s.function = none ∧ s.controller = false
  | .virtioBlkControllerCreate vuid _ => s.function = some vuid ∧ s.controller = false
  | .virtioBlkControllerModify => s.controller = true ∧ s.plugged = false
  | .virtioBlkControllerHotplug => s.controller = true ∧ s.plugged = false
  | .virtioBlkControllerBdevDetach => s.controller = true ∧ s.backing ≠ .none
  | .virtioBlkControllerBdevAttach => s.controller = true ∧ s.backing = .none
  | .virtioBlkControllerHotunplug => s.plugged = true ∧ s.backing = .null
  | .virtioBlkControllerDestroy => s.controller = true ∧ s.plugged = false
  | .virtioBlkFunctionDestroy vuid => s.function = some vuid ∧ s.controller = false
  | _ => True

end Dpu

/-- From a DPU without functions. -/
def dpu : Protocol Dpu (Ran Command) where
  start := .empty
  next := Dpu.next
  Allowed := Dpu.Allowed

/-! ## Refusals -/

/-- Commands that create or destroy a function, a controller, what is behind it and its plug. -/
def aboutFunction : Command → Bool
  | .virtioBlkFunctionCreate => true
  | .virtioBlkFunctionDestroy _ => true
  | _ => false

def aboutController : Command → Bool
  | .virtioBlkControllerCreate _ _ => true
  | .virtioBlkControllerDestroy => true
  | _ => false

def aboutBacking : Command → Bool
  | .virtioBlkControllerCreate _ _ => true
  | .virtioBlkControllerBdevDetach => true
  | .virtioBlkControllerBdevAttach => true
  | .virtioBlkControllerDestroy => true
  | _ => false

def aboutPlug : Command → Bool
  | .virtioBlkControllerHotplug => true
  | .virtioBlkControllerHotunplug => true
  | _ => false

/-- The last request about each of them was granted. -/
structure Settled (log : Log) : Prop where
  function : LastGranted aboutFunction log
  controller : LastGranted aboutController log
  backing : LastGranted aboutBacking log
  plug : LastGranted aboutPlug log

end DcPerf.Soak.Hotplug
