import DcPerf.Library.FirstWins
import DcPerf.LiveUpdate.Users

/-!
# What the destination should hold

A live update is to leave on the destination what the source had for its NVMe functions. This module
says what that is, independently of how `main` gets there.
-/

namespace DcPerf.LiveUpdate

open DcPerf.Library

/-- The NVMe controllers of the functions, in the order in which `main` hands them over. -/
def Source.migrated (src : Source) : List NvmeCtrl :=
  (src.ids "NVME").flatMap fun c => (src.nvmeCtrl? c).toList

/-- The controller that takes the place of one of the source, with the same namespaces attached. -/
def NvmeCtrl.passive (k : NvmeCtrl) : PassiveCtrl :=
  ⟨k.ctrlId, k.nqn, k.vhcaId, k.mdts, k.numQueues, k.namespaces.map CtrlNs.nsid⟩

/-- The namespaces that an nsid stands for in a subsystem of the destination. -/
def Destination.resolve (dst : Destination) (nqn : String) (nsid : ℕ) : List Namespace :=
  dst.namespaces.filter fun m => m.nqn = nqn ∧ m.nsid = nsid

/-- The destination holds no subsystem, namespace or NVMe controller. -/
structure Destination.NvmeEmpty (dst : Destination) : Prop where
  subsystems : dst.subsystems = []
  namespaces : dst.namespaces = []
  nvmeCtrls : dst.nvmeCtrls = []

/-- Each NVMe controller belongs to one function, the namespaces it has attached are listed, and
listed namespaces are told apart by their uuid as well as by subsystem and nsid. -/
structure Source.NvmeSound (src : Source) : Prop where
  numbered : src.WellNumbered "NVME"
  ids : (src.ids "NVME").Nodup
  listed : ∀ m ∈ src.attached, m ∈ src.namespaces
  uuids : (src.namespaces.map Namespace.uuid).Nodup
  nsids : (src.namespaces.map fun m => (m.nqn, m.nsid)).Nodup

instance (src : Source) : Decidable src.NvmeSound :=
  decidable_of_iff (src.WellNumbered "NVME" ∧ (src.ids "NVME").Nodup ∧
    (∀ m ∈ src.attached, m ∈ src.namespaces) ∧ (src.namespaces.map Namespace.uuid).Nodup ∧
    (src.namespaces.map fun m => (m.nqn, m.nsid)).Nodup)
    ⟨fun ⟨h1, h2, h3, h4, h5⟩ => ⟨h1, h2, h3, h4, h5⟩,
      fun ⟨h1, h2, h3, h4, h5⟩ => ⟨h1, h2, h3, h4, h5⟩⟩

/-- The destination holds the NVMe configuration of the functions of a source, and no more. -/
structure Reproduces (src : Source) (dst : Destination) : Prop where
  /-- Every function has its controller. -/
  complete : src.migrated.map NvmeCtrl.ctrlId = src.ids "NVME"
  ctrls : dst.nvmeCtrls = src.migrated.map NvmeCtrl.passive
  /-- Every attached nsid resolves to the namespace that it stands for on the source. -/
  namespaces : ∀ ctrl ∈ src.migrated, ∀ n ∈ ctrl.namespaces,
    dst.resolve ctrl.nqn n.nsid = [n.within ctrl.nqn]
  /-- Every controller has its subsystem, as the source lists it. -/
  subsystems : ∀ ctrl ∈ src.migrated, ∃ s ∈ src.subsystems, s.nqn = ctrl.nqn ∧
    (dst.subsystems.filter fun t => t.nqn = ctrl.nqn) = [s]
  onlyNamespaces : ∀ m ∈ dst.namespaces, m ∈ src.attached
  onlySubsystems : ∀ s ∈ dst.subsystems, s ∈ src.subsystems ∧ ∃ ctrl ∈ src.migrated, ctrl.nqn = s.nqn

/-- The destination holds the namespace from the start, or the namespace is the first one with its
uuid among those on the destination and those of the migrated controllers. -/
def World.Exposes (w : World) (m : Namespace) : Prop :=
  m ∈ w.dst.namespaces ∨
    firstWith Namespace.uuid (w.dst.namespaces ++ w.src.attached) m = some m

instance (w : World) (m : Namespace) : Decidable (w.Exposes m) :=
  inferInstanceAs (Decidable (_ ∨ _))

end DcPerf.LiveUpdate
