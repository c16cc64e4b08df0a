import DcPerf.Library.Dict

/-!
# The records that the SNAP processes report

The source process answers the queries of a live update with lists of JSON records; the types below
hold the fields of those records that the update reads. What the destination process holds is
described by `Destination`, what the source process reports by `Source`.
-/

namespace DcPerf.LiveUpdate

open DcPerf.Library

/-- A transport ID. Which keys are present depends on the transport. -/
structure Trid where
  trtype : Option String
  adrfam : Option String
  traddr : Option String
  trsvcid : Option String
  subnqn : Option String
  deriving DecidableEq

/-- An element of `bdev_get_bdevs`. The transport ID is that of
`driver_specific.nvme[0]`, which only an NVMe disk has. -/
structure Bdev where
  name : String
  productName : String
  blockSize : ℕ
  numBlocks : ℕ
  uuid : String
  trid : Trid
  deriving DecidableEq

/-- An element of `bdev_nvme_get_controllers`, with the transport ID of `ctrlrs[0]`. -/
structure NvmfCtrl where
  name : String
  trid : Trid
  deriving DecidableEq

/-- An emulated function. Only virtual functions are meant to carry `vf_index`; a function that is
not in use has no `ctrl_id`. -/
structure Func where
  vfIndex : Option ℕ
  ctrlId : Option String
  deriving DecidableEq

/-- An element of `emulation_function_list`: a physical function with its virtual functions. -/
structure PhysFunc extends Func where
  emulationType : String
  vfs : List Func
  deriving DecidableEq

/-- An element of `virtio_blk_controller_list`. A dummy controller has the bdev `"none"`. -/
structure VblkCtrl where
  ctrlId : String
  bdev : String
  vhcaId : ℕ
  numQueues : ℕ
  queueSize : ℕ
  segMax : ℕ
  sizeMax : ℕ
  vblkId : String
  forceInOrder : Bool
  adminQ : Bool
  dbgLocalOptimized : Bool
  indirectDesc : Bool
  readOnly : Bool
  deriving DecidableEq

/-- A namespace as an NVMe controller lists it among its `namespaces`. -/
structure CtrlNs where
  nsid : ℕ
  bdev : String
  uuid : String
  deriving DecidableEq

/-- An element of `nvme_controller_list`. -/
structure NvmeCtrl where
  ctrlId : String
  nqn : String
  vhcaId : ℕ
  mdts : ℕ
  numQueues : ℕ
  namespaces : List CtrlNs
  deriving DecidableEq

/-- An element of `nvme_subsystem_list`. -/
structure Subsys where
  nqn : String
  mn : String
  sn : String
  mnan : ℕ
  nn : ℕ
  deriving DecidableEq

/-- An element of `nvme_namespace_list`. -/
structure Namespace where
  nqn : String
  nsid : ℕ
  bdev : String
  uuid : String
  deriving DecidableEq

/-- The namespace that a controller's entry stands for. -/
def CtrlNs.within (ns : CtrlNs) (nqn : String) : Namespace := ⟨nqn, ns.nsid, ns.bdev, ns.uuid⟩

/-- The state of the source process, as its list queries report it. -/
structure Source where
  /-- Whether the answer to `spdk_get_version` has a `version`. -/
  version : Bool
  bdevs : List Bdev
  nvmfCtrls : List NvmfCtrl
  functions : List PhysFunc
  vblkCtrls : List VblkCtrl
  nvmeCtrls : List NvmeCtrl
  subsystems : List Subsys
  namespaces : List Namespace
  deriving DecidableEq

/-- An NVMe controller of the destination, with the nsids attached to it. -/
structure PassiveCtrl where
  ctrlId : String
  nqn : String
  vhcaId : ℕ
  mdts : ℕ
  numQueues : ℕ
  attached : List ℕ
  deriving DecidableEq

/-- The state of the destination process: the objects it holds. Bdevs, NVMe-oF controllers and VBLK
controllers are known by name. -/
structure Destination where
  /-- Whether the answer to `spdk_get_version` has a `version`. -/
  version : Bool
  bdevs : List String
  nvmfCtrls : List String
  vblkCtrls : List String
  subsystems : List Subsys
  namespaces : List Namespace
  nvmeCtrls : List PassiveCtrl
  deriving DecidableEq

end DcPerf.LiveUpdate
