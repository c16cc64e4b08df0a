import DcPerf.LiveUpdate.Trace

/-!
# The topology of a source

What the statements about runs say of a source: which controllers its functions have, and what the
manager knows about its bdevs.
-/

namespace DcPerf.LiveUpdate

open DcPerf.Library

/-- The `ctrl_id`s of a physical function and its virtual functions. -/
def PhysFunc.ids (pf : PhysFunc) : List String :=
  pf.ctrlId.toList ++ pf.vfs.flatMap fun vf => vf.ctrlId.toList

/-- The `ctrl_id`s of the functions of an emulation type, in the order in which `main` visits
them. -/
def Source.ids (src : Source) (emulationType : String) : List String :=
  (functionsOf emulationType src.functions).flatMap PhysFunc.ids

/-- Virtual functions carry `vf_index`, physical functions do not. -/
def Source.WellNumbered (src : Source) (emulationType : String) : Prop :=
  ∀ pf ∈ functionsOf emulationType src.functions,
    pf.vfIndex = none ∧ ∀ vf ∈ pf.vfs, vf.vfIndex.isSome = true

instance (src : Source) (t : String) : Decidable (src.WellNumbered t) :=
  inferInstanceAs (Decidable (∀ pf ∈ functionsOf t src.functions, _))

/-- The VBLK controller listed under `c`. -/
def Source.vblkCtrl? (src : Source) (c : String) : Option VblkCtrl :=
  (managerOf src).vblkCtrlDict.lookup c

/-- The NVMe controller listed under `c`. -/
def Source.nvmeCtrl? (src : Source) (c : String) : Option NvmeCtrl :=
  (managerOf src).nvmeCtrlDict.lookup c

/-- The record and the base that `bdev_dict` keeps for `b`. -/
def Source.entry (src : Source) (b : String) : Option (Bdev × Option String) :=
  ((memoryOf src).bdevDict.lookup b).map fun e => (e.info, e.base)

/-- The NVMe-oF controller under `b`, for an NVMe disk. -/
def Source.baseOf (src : Source) (b : String) : Option String := (src.entry b).bind (·.2)

/-- The product of `b` is one that `create_bdev` supports. -/
def Source.supports (src : Source) (b : String) : Bool :=
  (src.entry b).any fun e => e.1.productName ∈ ["NVMe disk", "Null disk", "Malloc disk"]

/-- The RPC creates `b`, or attaches the NVMe-oF controller under it. -/
def Source.provides (src : Source) (b : String) (r : Rpc) : Bool :=
  r.createsDisk b || (src.baseOf b).any fun g => r.attaches g

/-- The transport ID has every key that `create_bdev` reads. -/
def Trid.complete (t : Trid) : Bool :=
  t.trtype.isSome && t.adrfam.isSome && t.traddr.isSome && t.trsvcid.isSome && t.subnqn.isSome

/-- `b` is listed, with all that the manager reads of it. -/
def Source.lists (src : Source) (b : String) : Bool :=
  (src.entry b).any fun e => e.1.productName ≠ "NVMe disk" || e.1.trid.complete

/-- Every name that a run looks up is listed. -/
structure Source.Listed (src : Source) : Prop where
  vblk : ∀ c ∈ src.ids "VBLK", (src.vblkCtrl? c).any (fun ctrl =>
    ctrl.bdev = "none" || src.lists ctrl.bdev) = true
  nvme : ∀ c ∈ src.ids "NVME", (src.nvmeCtrl? c).any (fun ctrl =>
    ctrl.nqn ∈ src.subsystems.map Subsys.nqn && ctrl.namespaces.all fun ns => src.lists ns.bdev) =
      true

instance (src : Source) : Decidable src.Listed :=
  decidable_of_iff (_ ∧ _) ⟨fun h => ⟨h.1, h.2⟩, fun h => ⟨h.vblk, h.nvme⟩⟩

/-! ## Small configurations -/

/-- A source without any object. -/
def Source.idle : Source := ⟨true, [], [], [], [], [], [], []⟩

/-- A destination without any object. -/
def Destination.fresh : Destination := ⟨true, [], [], [], [], [], []⟩

/-- A bdev of one MiB. -/
def Bdev.small (name productName : String) (trid : Trid) : Bdev :=
  ⟨name, productName, 512, 2048, name, trid⟩

/-- A transport ID without any key. -/
def Trid.empty : Trid := ⟨none, none, none, none, none⟩

/-- A VBLK controller on a bdev. -/
def VblkCtrl.on (ctrlId bdev : String) : VblkCtrl :=
  ⟨ctrlId, bdev, 1, 1, 64, 32, 4096, ctrlId, false, false, false, false, false⟩

/-- A VBLK and an NVMe physical function, each with one virtual function, on one Null disk. -/
def Source.small : Source :=
  { Source.idle with
    bdevs := [.small "n0" "Null disk" .empty]
    functions := [⟨⟨none, some "v0"⟩, "VBLK", [⟨some 0, some "v1"⟩]⟩,
      ⟨⟨none, some "e0"⟩, "NVME", [⟨some 0, some "e1"⟩]⟩]
    vblkCtrls := [.on "v0" "n0", .on "v1" "n0"]
    nvmeCtrls := [⟨"e0", "nqn", 1, 2, 3, [⟨1, "n0", "u1"⟩]⟩, ⟨"e1", "nqn", 2, 2, 3, [⟨2, "n0", "u2"⟩]⟩]
    subsystems := [⟨"nqn", "mn", "sn", 8, 8⟩]
    namespaces := [⟨"nqn", 1, "n0", "u1"⟩, ⟨"nqn", 2, "n0", "u2"⟩] }

end DcPerf.LiveUpdate
