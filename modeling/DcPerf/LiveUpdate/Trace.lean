import DcPerf.Library.History
import DcPerf.LiveUpdate.Plan

/-!
# What the log of a run says

The statements about runs speak of the log: which RPCs were sent to which process, and with what
success. The predicates on RPCs below pick out the ones that create or remove an object.
-/

namespace DcPerf.LiveUpdate

open DcPerf.Library

/-- The RPC that an event sends to the process `k`. -/
def Event.rpcTo (k : Sock) : Event → Option Rpc
  | .sent c _ => if c.sock = k then some c.rpc else none
  | .asked .. => none

/-- The event sends the process `k` an RPC that satisfies `p`. -/
def Event.sends (k : Sock) (p : Rpc → Bool) (e : Event) : Bool := (e.rpcTo k).any p

/-- The event is the success of an RPC that satisfies `p`, on the process `k`. -/
def Event.does (k : Sock) (p : Rpc → Bool) (e : Event) : Bool := e.ok && e.sends k p

/-- What an RPC is about. -/
inductive Kind where
  /-- Create a bdev or attach an NVMe-oF controller. -/
  | bdevCreate
  /-- Delete a bdev or detach an NVMe-oF controller. -/
  | bdevDelete
  | subsys
  | ns
  /-- Suspend, create or destroy a controller, attach or detach a namespace. -/
  | controller
  deriving DecidableEq

namespace Rpc

def kind : Rpc → Kind
  | bdevNvmeAttachController .. | bdevNullCreate .. | bdevMallocCreate .. => .bdevCreate
  | bdevNvmeDetachController .. | bdevNullDelete .. | bdevMallocDelete .. => .bdevDelete
  | nvmeSubsystemCreate .. => .subsys
  | nvmeNamespaceCreate .. => .ns
  | _ => .controller

/-- The RPC creates the Null or Malloc bdev `b`. -/
def createsDisk (b : String) : Rpc → Bool
  | bdevNullCreate name .. | bdevMallocCreate name .. => name = b
  | _ => false

/-- The RPC attaches the NVMe-oF controller `g`. -/
def attaches (g : String) : Rpc → Bool
  | bdevNvmeAttachController name .. => name = g
  | _ => false

/-- The RPC deletes the Null or Malloc bdev `b`. -/
def deletesDisk (b : String) : Rpc → Bool
  | bdevNullDelete name | bdevMallocDelete name => name = b
  | _ => false

/-- The RPC detaches the NVMe-oF controller `g`. -/
def detaches (g : String) : Rpc → Bool
  | bdevNvmeDetachController name => name = g
  | _ => false

/-- The RPC creates the VBLK controller `c`. -/
def createsVblk (c : String) : Rpc → Bool
  | virtioBlkControllerCreate ctrlId _ => ctrlId = c
  | _ => false

/-- The RPC destroys the VBLK controller `c`. -/
def destroysVblk (c : String) : Rpc → Bool
  | virtioBlkControllerDestroy ctrl _ => ctrl = c
  | _ => false

/-- The RPC creates the NVMe controller `c`. -/
def createsNvme (c : String) : Rpc → Bool
  | nvmeControllerCreate _ ctrl .. => ctrl = c
  | _ => false

/-- The RPC destroys the NVMe controller `c`. -/
def destroysNvme (c : String) : Rpc → Bool
  | nvmeControllerDestroy ctrl => ctrl = c
  | _ => false

/-- The RPC leaves the VBLK controller `c` with its events only: the weak suspend. -/
def quietsVblk (c : String) : Rpc → Bool
  | virtioBlkControllerSuspend ctrl _ flag => ctrl = c ∧ flag = some "--events_only"
  | _ => false

/-- The RPC is the live update suspend of the VBLK controller `c`. -/
def suspendsVblk (c : String) : Rpc → Bool
  | virtioBlkControllerSuspend ctrl _ flag => ctrl = c ∧ flag = some "-lu"
  | _ => false

/-- The RPC leaves the NVMe controller `c` with its admin queue only: the weak suspend. -/
def quietsNvme (c : String) : Rpc → Bool
  | nvmeControllerSuspend ctrl flag _ => ctrl = c ∧ flag = some "--admin_only"
  | _ => false

/-- The RPC is the live update suspend of the NVMe controller `c`. -/
def suspendsNvme (c : String) : Rpc → Bool
  | nvmeControllerSuspend ctrl flag _ => ctrl = c ∧ flag = some "--live_update_notifier"
  | _ => false

/-- The RPC carries `--live_update_listener`. -/
def listens (r : Rpc) : Bool := .flag "--live_update_listener" ∈ r.items

/-- The RPC creates the subsystem `nqn`. -/
def createsSubsys (nqn : String) : Rpc → Bool
  | nvmeSubsystemCreate subsys => subsys.nqn = nqn
  | _ => false

/-- The RPC creates a namespace with the uuid `uuid`. -/
def createsNs (uuid : String) : Rpc → Bool
  | nvmeNamespaceCreate ns => ns.uuid = uuid
  | _ => false

/-- The RPC attaches the namespace `nsid` of its subsystem to the NVMe controller `c`. -/
def attachesNs (c : String) (nsid : ℕ) : Rpc → Bool
  | nvmeControllerAttachNs ctrl n => ctrl = c ∧ n = nsid
  | _ => false

/-- The RPC names the bdev `b`: `--bdev b` or `--bdev_name b`. -/
def names (b : String) : Rpc → Bool
  | virtioBlkControllerCreate _ ctrl => ctrl.bdev ≠ "none" ∧ ctrl.bdev = b
  | nvmeNamespaceCreate ns => ns.bdev = b
  | _ => false

end Rpc

/-! ## Handovers -/

/-- A controller is created on the destination and destroyed on the source at most once, and
destroyed only after its creation has succeeded. -/
structure HandedOverOnce (creates destroys : Rpc → Bool) (log : List Event) : Prop where
  created : log.countP (Event.sends .dst creates) ≤ 1
  destroyed : log.countP (Event.sends .src destroys) ≤ 1
  after : Always (fun pre e => e.sends .src destroys = true →
    ∃ x ∈ pre, x.does .dst creates = true) log

/-- The handover order: the weak suspend, then the creation of the passive controller with its
listener, then the live update suspend. -/
structure HandoverOrder (quiets suspends creates : Rpc → Bool) (log : List Event) : Prop where
  listener : Always (fun pre e => e.sends .src suspends = true →
    ∃ x ∈ pre, x.does .dst (fun r => creates r && r.listens) = true) log
  weak : Always (fun pre e => e.sends .dst creates = true →
    ∃ x ∈ pre, x.sends .src quiets = true) log

/-- The command of an action that is always sent. -/
def Action.fixed : Action → Option Cmd
  | .send c | .release c _ => some c
  | _ => none

end DcPerf.LiveUpdate
