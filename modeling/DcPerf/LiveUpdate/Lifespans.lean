import DcPerf.LiveUpdate.Topology

/-!
# The lifespans of physical and virtual functions

In which order the controllers of a physical function and its virtual functions come and go: on the
source the physical function goes last, on the destination it comes first.
-/

namespace DcPerf.LiveUpdate

open DcPerf.Library

/-! ## The controllers that RPCs create and destroy -/

namespace Rpc

/-- The VBLK controller that is created. -/
def createdVblk? : Rpc → Option String
  | virtioBlkControllerCreate ctrlId _ => some ctrlId
  | _ => none

/-- The VBLK controller that is destroyed, with the flag of the RPC. -/
def destroyedVblk? : Rpc → Option (String × Option String)
  | virtioBlkControllerDestroy ctrl flag => some (ctrl, flag)
  | _ => none

/-- The NVMe controller that is created. -/
def createdNvme? : Rpc → Option String
  | nvmeControllerCreate _ ctrl .. => some ctrl
  | _ => none

/-- The NVMe controller that is destroyed. -/
def destroyedNvme? : Rpc → Option String
  | nvmeControllerDestroy ctrl => some ctrl
  | _ => none

end Rpc

/-- What an RPC to the process `k` is about, as `g` says. -/
def Event.about {α : Type} (k : Sock) (g : Rpc → Option α) (e : Event) : Option α :=
  (e.rpcTo k).bind g

/-! ## The order of a physical function -/

/-- The controllers of the virtual functions that have one. -/
def PhysFunc.vfIds (pf : PhysFunc) : List String := pf.vfs.flatMap fun vf => vf.ctrlId.toList

/-- The order in which the VBLK controllers are destroyed, with the flags: those of the virtual
functions by force. -/
def PhysFunc.vblkDestroyed (pf : PhysFunc) : List (String × Option String) :=
  pf.vfIds.map (·, some "--force") ++ pf.ctrlId.toList.map (·, none)

/-- The order in which the NVMe controllers are destroyed. -/
def PhysFunc.nvmeDestroyed (pf : PhysFunc) : List String := pf.vfIds ++ pf.ctrlId.toList

/-- The RPCs so far follow the order of the functions, one physical function after the other. -/
structure InTurn (src : Source) (log : List Event) : Prop where
  vblkCreated : log.filterMap (Event.about .dst Rpc.createdVblk?) <+: src.ids "VBLK"
  vblkDestroyed : log.filterMap (Event.about .src Rpc.destroyedVblk?) <+:
    (functionsOf "VBLK" src.functions).flatMap PhysFunc.vblkDestroyed
  nvmeCreated : log.filterMap (Event.about .dst Rpc.createdNvme?) <+: src.ids "NVME"
  nvmeDestroyed : log.filterMap (Event.about .src Rpc.destroyedNvme?) <+:
    (functionsOf "NVME" src.functions).flatMap PhysFunc.nvmeDestroyed

/-! ## Lifespans -/

/-- The controller belongs to one function only. -/
def Source.Sole (src : Source) (emulationType c : String) : Prop :=
  (src.ids emulationType).count c = 1

/-- The controller of a physical function is destroyed on the source after those of its virtual
functions, and created on the destination before them. -/
structure Source.PfOutlivesVfs (src : Source) (emulationType : String)
    (creates destroys : String → Rpc → Bool) (log : List Event) : Prop where
  destroyed : ∀ pf ∈ functionsOf emulationType src.functions, ∀ c, pf.ctrlId = some c →
    src.Sole emulationType c → ∀ v ∈ pf.vfIds,
    Always (fun pre e => e.sends .src (destroys c) = true →
      ∃ x ∈ pre, x.does .src (destroys v) = true) log
  created : ∀ pf ∈ functionsOf emulationType src.functions, ∀ c, pf.ctrlId = some c →
    ∀ v ∈ pf.vfIds, src.Sole emulationType v →
    Always (fun pre e => e.sends .dst (creates v) = true →
      ∃ x ∈ pre, x.does .dst (creates c) = true) log

/-- VBLK controllers of virtual functions are destroyed by force, those of physical functions are
not. -/
structure Source.ForcesVfs (src : Source) (log : List Event) : Prop where
  vf : ∀ pf ∈ functionsOf "VBLK" src.functions, ∀ v ∈ pf.vfIds, src.Sole "VBLK" v → ∀ flag,
    (∃ e ∈ log, e.rpcTo .src = some (.virtioBlkControllerDestroy v flag)) → flag = some "--force"
  pf : ∀ pf ∈ functionsOf "VBLK" src.functions, ∀ c, pf.ctrlId = some c → src.Sole "VBLK" c →
    ∀ flag, (∃ e ∈ log, e.rpcTo .src = some (.virtioBlkControllerDestroy c flag)) → flag = none

end DcPerf.LiveUpdate
