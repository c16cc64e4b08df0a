import DcPerf.LiveUpdate.Users

/-!
# Running a live update again

A run that fails leaves both processes somewhere in between, and a new run starts from there with
nothing in its memory. This module says what the new run should not do, and from which states it
does not.
-/

namespace DcPerf.LiveUpdate

open DcPerf.Library

/-- What an event creates for the destination, the destination does not hold yet. -/
structure CreatesUnheld (w : World) (pre : List Event) (e : Event) : Prop where
  disk : ∀ b, e.sends .dst (Rpc.createsDisk b) = true → b ∉ (w.replay pre).dst.bdevs
  base : ∀ g, e.sends .dst (Rpc.attaches g) = true → g ∉ (w.replay pre).dst.nvmfCtrls
  subsys : ∀ nqn, e.sends .dst (Rpc.createsSubsys nqn) = true →
    nqn ∉ (w.replay pre).dst.subsystems.map Subsys.nqn
  ns : ∀ uuid, e.sends .dst (Rpc.createsNs uuid) = true →
    uuid ∉ (w.replay pre).dst.namespaces.map Namespace.uuid
  vblk : ∀ c, e.sends .dst (Rpc.createsVblk c) = true → c ∉ (w.replay pre).dst.vblkCtrls
  nvme : ∀ c, e.sends .dst (Rpc.createsNvme c) = true →
    c ∉ (w.replay pre).dst.nvmeCtrls.map PassiveCtrl.ctrlId

/-- The bdevs of the controllers that the functions have. -/
def Source.needed (src : Source) : List String :=
  ((src.ids "VBLK").flatMap fun c =>
    ((src.vblkCtrl? c).toList.map VblkCtrl.bdev).filter fun b => b ≠ "none") ++
  src.attached.map Namespace.bdev

/-- `b` is a Null or Malloc disk. -/
def Source.isDisk (src : Source) (b : String) : Bool :=
  (src.entry b).any fun e => e.1.productName ∈ ["Null disk", "Malloc disk"]

/-- The destination holds none of the bdevs, NVMe-oF controllers and controllers that the functions
of the source still need, and no two functions have one controller. -/
structure World.Restartable (w : World) : Prop where
  vblkIds : (w.src.ids "VBLK").Nodup
  nvmeIds : (w.src.ids "NVME").Nodup
  vblk : ∀ c ∈ w.src.ids "VBLK", c ∉ w.dst.vblkCtrls
  nvme : ∀ c ∈ w.src.ids "NVME", c ∉ w.dst.nvmeCtrls.map PassiveCtrl.ctrlId
  disks : ∀ b ∈ w.src.needed, w.src.isDisk b = true → b ∉ w.dst.bdevs
  bases : ∀ b ∈ w.src.needed, ∀ g, w.src.baseOf b = some g → g ∉ w.dst.nvmfCtrls

end DcPerf.LiveUpdate
