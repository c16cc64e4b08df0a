import DcPerf.LiveUpdate.Manager

/-!
# The plan of a run

After its constructor, what the manager does is a fixed list of actions, which the functions and
controllers of the source determine: commands that are always sent, and four kinds of steps whose
commands depend on what the manager remembers or asks the destination for. The plan is that list.
That `main` carries it out is proved in `DcPerf.LiveUpdate.Proofs.Plan`.
-/

namespace DcPerf.LiveUpdate

open DcPerf.Library

/-- A step of a run. -/
inductive Action where
  /-- Send a command. -/
  | send (cmd : Cmd)
  /-- `create_bdev`. -/
  | create (bdev : String)
  /-- Send the command that takes a user off a bdev, then `destroy_bdev`. -/
  | release (cmd : Cmd) (bdev : String)
  /-- Create a subsystem if it does not exist. -/
  | subsys (nqn : String)
  /-- Create a namespace if it does not exist. -/
  | ns (ctrl : NvmeCtrl) (ns : CtrlNs)
  /-- Look up a name that is not listed. -/
  | missing
  deriving DecidableEq

/-- Carry out an action. -/
def perform (self : Manager) : Action → Live Unit
  | .send c => sendRpc c
  | .create b => createBdev b
  | .release c b => do
    sendRpc c
    destroyBdev b
  | .subsys nqn => ensureNvmeSubsys self nqn
  | .ns ctrl ns => ensureNvmeNamespace ctrl ns
  | .missing => throw .keyError

/-- The actions after a lookup. -/
def look {α : Type} (o : Option α) (k : α → List Action) : List Action :=
  match o with
  | some a => k a
  | none => [.missing]

/-- The plan of `destroy_vblk_ctrl`. -/
def destroyVblkPlan (self : Manager) (ctrlId : String) (params : Option String) : List Action :=
  look (self.vblkCtrlDict.lookup ctrlId) fun ctrl =>
    if ctrl.bdev ≠ "none" then [.release (destroyVblkCtrlCmd ctrlId params) ctrl.bdev]
    else [.send (destroyVblkCtrlCmd ctrlId params)]

/-- The commands that hand a VBLK controller over. -/
def handVblkOver (ctrlId : String) (ctrl : VblkCtrl) : List Cmd :=
  [suspendVblkCtrlCmd ctrlId (some "events_only"), cleanupVblkControllerCmd ctrlId,
    restoreVblkControllerCmd ctrlId ctrl]

/-- The plan of `live_update_vblk_func` for a function with a controller. -/
def vblkCtrlPlan (self : Manager) (isVf : Bool) (ctrlId : String) : List Action :=
  look (self.vblkCtrlDict.lookup ctrlId) fun ctrl =>
    (if ctrl.bdev ≠ "none" then [.create ctrl.bdev] else []) ++
    (handVblkOver ctrlId ctrl).map .send ++
    if isVf then destroyVblkPlan self ctrlId (some "force") else []

/-- The plan of `live_update_vblk_func`. -/
def vblkFuncPlan (self : Manager) (f : Func) : List Action :=
  f.ctrlId.toList.flatMap (vblkCtrlPlan self f.vfIndex.isSome)

/-- The plan for a VBLK physical function. -/
def vblkPfPlan (self : Manager) (pf : PhysFunc) : List Action :=
  vblkFuncPlan self pf.toFunc ++ pf.vfs.flatMap (vblkFuncPlan self) ++
    pf.ctrlId.toList.flatMap fun ctrlId => destroyVblkPlan self ctrlId none

/-- The plan of `cleanup_nvme_controller`. -/
def cleanupNvmePlan (self : Manager) (ctrlId : String) : List Action :=
  look (self.nvmeCtrlDict.lookup ctrlId) fun ctrl =>
    (ctrl.namespaces.map fun ns => .release (detachNvmeNsCmd ctrlId ns.nsid) ns.bdev) ++
    [.send (destroyNvmeControllerCmd ctrlId)]

/-- The commands that hand an NVMe controller over. -/
def handNvmeOver (ctrl : NvmeCtrl) : List Cmd :=
  [suspendNvmeCtrlCmd ctrl (some "admin_only") none, createPassiveNvmeControllerCmd ctrl] ++
  ctrl.namespaces.map (attachNvmeNsCmd ctrl) ++
  [suspendNvmeCtrlCmd ctrl (some "live_update_notifier") (some "20")]

/-- The plan of `live_update_nvme_func` for a function with a controller. -/
def nvmeCtrlPlan (self : Manager) (isVf : Bool) (ctrlId : String) : List Action :=
  look (self.nvmeCtrlDict.lookup ctrlId) fun ctrl =>
    [.subsys ctrl.nqn] ++
    (ctrl.namespaces.flatMap fun ns => [.create ns.bdev, .ns ctrl ns]) ++
    (handNvmeOver ctrl).map .send ++
    if isVf then cleanupNvmePlan self ctrlId else []

/-- The plan of `live_update_nvme_func`. -/
def nvmeFuncPlan (self : Manager) (f : Func) : List Action :=
  f.ctrlId.toList.flatMap (nvmeCtrlPlan self f.vfIndex.isSome)

/-- The plan for an NVMe physical function. -/
def nvmePfPlan (self : Manager) (pf : PhysFunc) : List Action :=
  nvmeFuncPlan self pf.toFunc ++ pf.vfs.flatMap (nvmeFuncPlan self) ++
    pf.ctrlId.toList.flatMap (cleanupNvmePlan self)

/-- The plan of the VBLK loop of `main`. -/
def vblkPlan (self : Manager) : List Action := self.vblkFunctions.flatMap (vblkPfPlan self)

/-- The plan of the NVMe loop of `main`. -/
def nvmePlan (self : Manager) : List Action := self.nvmeFunctions.flatMap (nvmePfPlan self)

/-- The plan of `main` after the constructor. -/
def plan (self : Manager) : List Action := vblkPlan self ++ nvmePlan self

/-! ## The manager of a source -/

/-- The manager that the constructor builds from the replies of a source. -/
def managerOf (src : Source) : Manager where
  nvmeFunctions := functionsOf "NVME" src.functions
  vblkFunctions := functionsOf "VBLK" src.functions
  vblkCtrlDict := Dict.ofList VblkCtrl.ctrlId id src.vblkCtrls
  nvmeCtrlDict := Dict.ofList NvmeCtrl.ctrlId id src.nvmeCtrls
  nvmeSubsysDict := Dict.ofList Subsys.nqn id src.subsystems

/-- The memory that the constructor fills from the replies of a source. -/
def memoryOf (src : Source) : Memory where
  bdevDict := countUsers (managerOf src).vblkCtrlDict src.namespaces
    (bdevInfo src.bdevs src.nvmfCtrls).1
  bdevNvmfDict := (bdevInfo src.bdevs src.nvmfCtrls).2
  nvmeSubsysHist := Dict.ofList Subsys.nqn (fun _ => 0) src.subsystems

/-- The plan of a run from a source. -/
def planOf (src : Source) : List Action := plan (managerOf src)

end DcPerf.LiveUpdate
