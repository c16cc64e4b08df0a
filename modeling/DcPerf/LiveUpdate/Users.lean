import DcPerf.LiveUpdate.Topology

/-!
# The users of the bdevs

What uses a bdev on the source, how many users the manager counts, and in which order `main` takes
them off.
-/

namespace DcPerf.LiveUpdate

open DcPerf.Library

/-- A user of a bdev: a VBLK controller, or a namespace as it is attached to an NVMe controller. -/
inductive User where
  | vblk (ctrlId : String)
  | ns (ctrlId : String) (nsid : ℕ)
  deriving DecidableEq

/-- The user that an RPC takes off the source. -/
def Rpc.removes : Rpc → Option User
  | .virtioBlkControllerDestroy ctrl _ => some (.vblk ctrl)
  | .nvmeControllerDetachNs ctrl nsid => some (.ns ctrl nsid)
  | _ => none

/-- The user that an event takes off the source. -/
def Event.removes (e : Event) : Option User := e.cmd?.bind fun c => c.rpc.removes

/-- The users on a source, each with its bdev. A dummy controller uses none. -/
def Source.users (src : Source) : List (User × String) :=
  ((src.vblkCtrls.filter fun k => k.bdev ≠ "none").map fun k => (.vblk k.ctrlId, k.bdev)) ++
  src.nvmeCtrls.flatMap fun k => k.namespaces.map fun n => (.ns k.ctrlId n.nsid, n.bdev)

/-- A controller on the source uses the bdev. -/
def Source.Uses (src : Source) (b : String) : Prop := b ∈ src.users.map Prod.snd

instance (src : Source) (b : String) : Decidable (src.Uses b) :=
  inferInstanceAs (Decidable (b ∈ src.users.map Prod.snd))

/-- The number of listed namespaces and VBLK controllers that name a bdev. -/
def Source.usersOf (src : Source) (b : String) : ℕ :=
  src.namespaces.countP (fun ns => ns.bdev = b) +
    (managerOf src).vblkCtrlDict.countValues fun ctrl => ctrl.bdev = b

/-! ## The order of removal -/

/-- The controller of a function that is removed together with its update: that of a virtual
function. -/
def Func.early (f : Func) : List String := if f.vfIndex.isSome then f.ctrlId.toList else []

/-- The controllers of a physical function in the order of their removal: its own comes last. -/
def PhysFunc.removed (pf : PhysFunc) : List String :=
  pf.toFunc.early ++ pf.vfs.flatMap Func.early ++ pf.ctrlId.toList

/-- The controllers of an emulation type in the order of their removal. -/
def Source.removed (src : Source) (emulationType : String) : List String :=
  (functionsOf emulationType src.functions).flatMap PhysFunc.removed

/-- The users that go with a VBLK controller, with the bdev that they are taken off. -/
def Source.vblkRemoval (src : Source) (c : String) : List (User × Option String) :=
  (src.vblkCtrl? c).toList.map fun ctrl =>
    (.vblk c, if ctrl.bdev ≠ "none" then some ctrl.bdev else none)

/-- The users that go with an NVMe controller, with the bdev that they are taken off. -/
def Source.nvmeRemoval (src : Source) (c : String) : List (User × Option String) :=
  (src.nvmeCtrl? c).toList.flatMap fun ctrl =>
    ctrl.namespaces.map fun n => (.ns c n.nsid, some n.bdev)

/-- The users that `main` takes off the source, in order, with the bdev that they are taken off. -/
def Source.removals (src : Source) : List (User × Option String) :=
  (src.removed "VBLK").flatMap src.vblkRemoval ++ (src.removed "NVME").flatMap src.nvmeRemoval

/-- The users that `main` takes off a bdev, in order. -/
def Source.removalsOf (src : Source) (b : String) : List User :=
  (src.removals.filter fun x => x.2 = some b).map Prod.fst

/-- If `main` takes as many users off the bdev as the manager counts, the first so many are all of
its users. -/
def Source.Covered (src : Source) (b : String) : Prop :=
  0 < src.usersOf b → src.usersOf b ≤ (src.removalsOf b).length →
    ∀ x ∈ src.users, x.2 = b → x.1 ∈ (src.removalsOf b).take (src.usersOf b)

instance (src : Source) (b : String) : Decidable (src.Covered b) :=
  inferInstanceAs (Decidable (_ → _ → _))

/-- `pre` ends with the removal of the last user, in the order of removal, of the bdevs in `B`. -/
def Source.LastRemoval (src : Source) (B : String → Prop) (pre : List Event) : Prop :=
  ∃ done u b rest, src.removals = done ++ (u, some b) :: rest ∧ B b ∧
    (∀ x ∈ rest, ∀ b', x.2 = some b' → ¬B b') ∧
    pre.filterMap Event.removes = done.map Prod.fst ++ [u] ∧
    pre.getLast?.bind Event.removes = some u

/-! ## Sources without leftovers -/

/-- The namespaces attached to the controllers of the functions. -/
def Source.attached (src : Source) : List Namespace :=
  (src.ids "NVME").flatMap fun c => (src.nvmeCtrl? c).toList.flatMap fun ctrl =>
    ctrl.namespaces.map (CtrlNs.within · ctrl.nqn)

/-- Each VBLK controller belongs to one function, each namespace is attached to one controller of a
function, each NVMe disk is one of one NVMe-oF controller, and the names of bdevs are theirs alone;
none is that of the dummy bdev. -/
structure Source.Tidy (src : Source) : Prop where
  vblkNumbered : src.WellNumbered "VBLK"
  nvmeNumbered : src.WellNumbered "NVME"
  vblkIds : (src.ids "VBLK").Nodup
  vblk : ∀ k ∈ src.vblkCtrls, k.ctrlId ∈ src.ids "VBLK"
  nvme : src.attached.Perm src.namespaces
  base : ∀ x ∈ src.bdevs, x.productName = "NVMe disk" →
    src.nvmfCtrls.countP (fun c => x.trid = c.trid) = 1
  names : (src.bdevs.map Bdev.name).Nodup
  noDummy : "none" ∉ src.bdevs.map Bdev.name

instance (src : Source) : Decidable src.Tidy :=
  decidable_of_iff (src.WellNumbered "VBLK" ∧ src.WellNumbered "NVME" ∧ (src.ids "VBLK").Nodup ∧
    (∀ k ∈ src.vblkCtrls, k.ctrlId ∈ src.ids "VBLK") ∧ src.attached.Perm src.namespaces ∧
    (∀ x ∈ src.bdevs, x.productName = "NVMe disk" →
      src.nvmfCtrls.countP (fun c => x.trid = c.trid) = 1) ∧
    (src.bdevs.map Bdev.name).Nodup ∧ "none" ∉ src.bdevs.map Bdev.name)
    ⟨fun ⟨h1, h2, h3, h4, h5, h6, h7, h8⟩ => ⟨h1, h2, h3, h4, h5, h6, h7, h8⟩,
      fun ⟨h1, h2, h3, h4, h5, h6, h7, h8⟩ => ⟨h1, h2, h3, h4, h5, h6, h7, h8⟩⟩

end DcPerf.LiveUpdate
