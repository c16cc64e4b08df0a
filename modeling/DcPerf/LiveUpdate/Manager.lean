import DcPerf.LiveUpdate.Rpc
import Mathlib.Algebra.Group.Nat.Defs

/-!
# The live update manager

`live_update.py` moves the emulated functions of a source SNAP process to a destination process.
The definitions below follow its methods one by one, in the order of the file. What a
`LiveUpgradeManager` only reads after its construction is the record `Manager`; the dictionaries
that it writes to are the `Memory` of a session.

Any RPC may fail: the n-th RPC of a run succeeds or fails as `Session.answers` says. A run ends at
the first exception, which is that of a failed RPC, of a dictionary lookup, or `exit(1)`.
-/

namespace DcPerf.LiveUpdate

open DcPerf.Library

/-- Why a run ends before its end. -/
inductive Raised where
  /-- `CalledProcessError` or `JSONDecodeError`, raised again by the RPC functions. -/
  | rpcFailed
  /-- `KeyError` of a dictionary lookup. -/
  | keyError
  /-- `exit(1)`. -/
  | exit
  deriving DecidableEq

/-- An entry of `bdev_dict`. -/
structure BdevEntry where
  info : Bdev
  base : Option String
  created : ℕ
  used : ℤ
  deriving DecidableEq

/-- An entry of `bdev_nvmf_dict`. -/
structure NvmfEntry where
  created : ℕ
  used : ℤ
  deriving DecidableEq

/-- The attributes of the manager that change during a run. -/
structure Memory where
  bdevDict : Dict String BdevEntry
  bdevNvmfDict : Dict String NvmfEntry
  nvmeSubsysHist : Dict String ℕ

/-- The attributes of the manager that its constructor sets for good. -/
structure Manager where
  nvmeFunctions : List PhysFunc
  vblkFunctions : List PhysFunc
  vblkCtrlDict : Dict String VblkCtrl
  nvmeCtrlDict : Dict String NvmeCtrl
  nvmeSubsysDict : Dict String Subsys

/-- The state of a run. -/
structure Session where
  mem : Memory
  world : World
  log : List Event
  /-- The memory after each assignment so far, with the log at that moment. -/
  past : List (Memory × List Event)
  /-- Whether the n-th RPC succeeds. -/
  answers : ℕ → Bool

/-- A computation of the manager. -/
abbrev Live := EStateM Raised Session

/-! ## RPCs -/

/-- `send_rpc`. -/
def sendRpc (c : Cmd) : Live Unit := fun s =>
  if s.answers s.log.length then
    .ok () { s with log := s.log ++ [.sent c true], world := s.world.exec c.sock c.rpc }
  else .error .rpcFailed { s with log := s.log ++ [.sent c false] }

/-- `send_recv_rpc`, with the reading of the reply off the state of the processes. -/
def sendRecvRpc {α : Type} (sock : Sock) (script method : String) (reply : World → α) : Live α :=
  fun s =>
    if s.answers s.log.length then
      .ok (reply s.world) { s with log := s.log ++ [.asked sock script method true] }
    else .error .rpcFailed { s with log := s.log ++ [.asked sock script method false] }

/-- `send_suspend_restore`. -/
def sendSuspendRestore (suspendCmd createCmd : Cmd) : Live Unit := do
  sendRpc suspendCmd
  sendRpc createCmd

/-- A dictionary lookup `d[k]`, or a field of a record that may be missing. -/
def item {α : Type} : Option α → Live α
  | some a => pure a
  | none => throw .keyError

/-- Assign to an attribute of the manager. -/
def assign (f : Memory → Memory) : Live Unit := fun s =>
  .ok () { s with mem := f s.mem, past := s.past ++ [(f s.mem, s.log)] }

/-- `self.bdev_dict[bdev]`. -/
def bdevItem (bdev : String) : Live BdevEntry := do
  item ((← get).mem.bdevDict.lookup bdev)

/-- `self.bdev_nvmf_dict[base]`. -/
def nvmfItem (base : String) : Live NvmfEntry := do
  item ((← get).mem.bdevNvmfDict.lookup base)

/-- `self.nvme_subsys_hist[nqn]`. -/
def histItem (nqn : String) : Live ℕ := do
  item ((← get).mem.nvmeSubsysHist.lookup nqn)

/-- The memory after an assignment to a field of `self.bdev_dict[bdev]`. -/
def Memory.setBdev (m : Memory) (bdev : String) (f : BdevEntry → BdevEntry) : Memory :=
  { m with bdevDict := m.bdevDict.modify bdev f }

/-- The memory after an assignment to a field of `self.bdev_nvmf_dict[base]`. -/
def Memory.setNvmf (m : Memory) (base : String) (f : NvmfEntry → NvmfEntry) : Memory :=
  { m with bdevNvmfDict := m.bdevNvmfDict.modify base f }

/-- The memory after an assignment to `self.nvme_subsys_hist[nqn]`. -/
def Memory.setHist (m : Memory) (nqn : String) (n : ℕ) : Memory :=
  { m with nvmeSubsysHist := m.nvmeSubsysHist.set nqn n }

/-- Assign to a field of `self.bdev_dict[bdev]`. -/
def setBdev (bdev : String) (f : BdevEntry → BdevEntry) : Live Unit :=
  assign fun m => m.setBdev bdev f

/-- Assign to a field of `self.bdev_nvmf_dict[base]`. -/
def setNvmf (base : String) (f : NvmfEntry → NvmfEntry) : Live Unit :=
  assign fun m => m.setNvmf base f

/-- Assign to `self.nvme_subsys_hist[nqn]`. -/
def setHist (nqn : String) (n : ℕ) : Live Unit := assign fun m => m.setHist nqn n

/-- The words `<dash>key value` for the entries of a parameter dictionary. -/
def options (dash : String) (params : List (String × String)) : List String :=
  params.flatMap fun p => [dash ++ p.1, p.2]

/-- An optional string argument, where `if params:` holds. -/
def truthy (params : Option String) : Option String := params.filter (· ≠ "")

/-! ## The state of the source -/

/-- The body of the inner loop of `get_bdev_info`, for an NVMe disk. -/
def matchCtrl (bdev : Bdev) (d : Dict String BdevEntry × Dict String NvmfEntry) (ctrl : NvmfCtrl) :
    Dict String BdevEntry × Dict String NvmfEntry :=
  if bdev.trid = ctrl.trid then
    (d.1.set bdev.name ⟨bdev, some ctrl.name, 0, 0⟩,
      d.2.modify ctrl.name fun e => { e with used := e.used + 1 })
  else d

/-- The body of the outer loop of `get_bdev_info`. -/
def enterBdev (ctrls : List NvmfCtrl) (d : Dict String BdevEntry × Dict String NvmfEntry)
    (bdev : Bdev) : Dict String BdevEntry × Dict String NvmfEntry :=
  if bdev.productName = "NVMe disk" then ctrls.foldl (matchCtrl bdev) d
  else (d.1.set bdev.name ⟨bdev, none, 0, 0⟩, d.2)

/-- The dictionaries of `get_bdev_info`: `bdev_dict` and `bdev_nvmf_dict`. -/
def bdevInfo (bdevs : List Bdev) (ctrls : List NvmfCtrl) :
    Dict String BdevEntry × Dict String NvmfEntry :=
  bdevs.foldl (enterBdev ctrls) (∅, Dict.ofList NvmfCtrl.name (fun _ => ⟨0, 0⟩) ctrls)

/-- `get_bdev_info`. -/
def getBdevInfo : Live (Dict String BdevEntry × Dict String NvmfEntry) := do
  let bdevGetBdevs ← sendRecvRpc .src spdkScript "bdev_get_bdevs" (·.src.bdevs)
  let bdevGetControllers ←
    sendRecvRpc .src spdkScript "bdev_nvme_get_controllers" (·.src.nvmfCtrls)
  return bdevInfo bdevGetBdevs bdevGetControllers

/-- The functions of an emulation type. -/
def functionsOf (emulationType : String) (functions : List PhysFunc) : List PhysFunc :=
  functions.filter fun f => f.emulationType = emulationType

/-- `get_emulation_functions`: the NVMe functions and the VBLK functions. -/
def getEmulationFunctions : Live (List PhysFunc × List PhysFunc) := do
  let emulationFunctionList ←
    sendRecvRpc .src snapScript "emulation_function_list" (·.src.functions)
  return (functionsOf "NVME" emulationFunctionList, functionsOf "VBLK" emulationFunctionList)

/-- `get_controller_info`: the VBLK controllers and the NVMe controllers. -/
def getControllerInfo : Live (Dict String VblkCtrl × Dict String NvmeCtrl) := do
  let vblkCtrlList ← sendRecvRpc .src snapScript "virtio_blk_controller_list" (·.src.vblkCtrls)
  let nvmeCtrlList ← sendRecvRpc .src snapScript "nvme_controller_list" (·.src.nvmeCtrls)
  return (Dict.ofList VblkCtrl.ctrlId id vblkCtrlList, Dict.ofList NvmeCtrl.ctrlId id nvmeCtrlList)

/-- `get_subsystem_info`: the subsystems and their history. -/
def getSubsystemInfo : Live (Dict String Subsys × Dict String ℕ) := do
  let nvmeSubsysList ← sendRecvRpc .src snapScript "nvme_subsystem_list" (·.src.subsystems)
  return (Dict.ofList Subsys.nqn id nvmeSubsysList,
    Dict.ofList Subsys.nqn (fun _ => 0) nvmeSubsysList)

/-- The loop of `fill_bdev_hist`: count the listed namespaces and the VBLK controllers on each
bdev. -/
def countUsers (vblkCtrlDict : Dict String VblkCtrl) (nvmeNsesList : List Namespace)
    (bdevDict : Dict String BdevEntry) : Dict String BdevEntry :=
  bdevDict.keys.foldl (fun d bdev => d.modify bdev fun e =>
    { e with
      used := e.used + nvmeNsesList.countP (fun ns => ns.bdev = bdev) +
        vblkCtrlDict.countValues fun ctrl => ctrl.bdev = bdev }) bdevDict

/-- `fill_bdev_hist`. -/
def fillBdevHist (vblkCtrlDict : Dict String VblkCtrl) : Live Unit := do
  let nvmeNsesList ← sendRecvRpc .src snapScript "nvme_namespace_list" (·.src.namespaces)
  assign fun m => { m with bdevDict := countUsers vblkCtrlDict nvmeNsesList m.bdevDict }

/-- `__init__`. -/
def init : Live Manager := do
  let (bdevDict, bdevNvmfDict) ← getBdevInfo
  assign fun m => { m with bdevDict := bdevDict, bdevNvmfDict := bdevNvmfDict }
  let (nvmeFunctions, vblkFunctions) ← getEmulationFunctions
  let (vblkCtrlDict, nvmeCtrlDict) ← getControllerInfo
  let (nvmeSubsysDict, nvmeSubsysHist) ← getSubsystemInfo
  assign fun m => { m with nvmeSubsysHist := nvmeSubsysHist }
  fillBdevHist vblkCtrlDict
  return ⟨nvmeFunctions, vblkFunctions, vblkCtrlDict, nvmeCtrlDict, nvmeSubsysDict⟩

/-! ## Bdevs -/

/-- The `bdev_nvme_attach_controller` of `create_bdev`. -/
def bdevNvmeAttachControllerCmd (base trtype adrfam traddr trsvcid subnqn : String) : Cmd where
  sock := .dst
  script := spdkScript
  method := "bdev_nvme_attach_controller"
  params := options "--" [("name", base), ("trtype", trtype), ("adrfam", adrfam),
    ("traddr", traddr), ("trsvcid", trsvcid), ("subnqn", subnqn)]
  rpc := .bdevNvmeAttachController base trtype adrfam traddr trsvcid subnqn

/-- `total_size` of `create_bdev`, in MiB. The source divides to a float, which is exact for disks
below 8 PiB. -/
def Bdev.totalSize (info : Bdev) : ℕ := info.blockSize * info.numBlocks / 1024 ^ 2

/-- The `bdev_null_create` of `create_bdev`. -/
def bdevNullCreateCmd (info : Bdev) : Cmd where
  sock := .dst
  script := spdkScript
  method := "bdev_null_create"
  params := [info.name, toString info.totalSize, toString info.blockSize, "--uuid", info.uuid]
  rpc := .bdevNullCreate info.name info.totalSize info.blockSize info.uuid

/-- The `bdev_malloc_create` of `create_bdev`. -/
def bdevMallocCreateCmd (info : Bdev) : Cmd where
  sock := .dst
  script := spdkScript
  method := "bdev_malloc_create"
  params := [toString info.totalSize, toString info.blockSize, "-b" ++ info.name,
    "--uuid", info.uuid]
  rpc := .bdevMallocCreate info.name info.totalSize info.blockSize info.uuid

/-- The branch of `create_bdev` for Null and Malloc disks. -/
def createDisk (info : Bdev) : Live Unit :=
  if info.productName = "Null disk" then sendRpc (bdevNullCreateCmd info)
  else if info.productName = "Malloc disk" then sendRpc (bdevMallocCreateCmd info)
  else pure ()

/-- `create_bdev`. -/
def createBdev (bdev : String) : Live Unit := do
  let entry ← bdevItem bdev
  let info := entry.info
  if entry.created = 1 then
    pure ()
  else if info.productName = "NVMe disk" then
    let baseBdev ← item entry.base
    let nvmf ← nvmfItem baseBdev
    if nvmf.created = 1 then
      setBdev bdev fun e => { e with created := 1 }
    else
      let trtype ← item info.trid.trtype
      let adrfam ← item info.trid.adrfam
      let traddr ← item info.trid.traddr
      let trsvcid ← item info.trid.trsvcid
      let subnqn ← item info.trid.subnqn
      sendRpc (bdevNvmeAttachControllerCmd baseBdev trtype adrfam traddr trsvcid subnqn)
      setNvmf baseBdev fun e => { e with created := 1 }
      setBdev bdev fun e => { e with created := 1 }
  else
    -- A product the method does not support is marked as created without any RPC.
    createDisk info
    setBdev bdev fun e => { e with created := 1 }

/-- The `bdev_nvme_detach_controller` of `destroy_bdev`. -/
def bdevNvmeDetachControllerCmd (base : String) : Cmd :=
  ⟨.src, spdkScript, "bdev_nvme_detach_controller", [base], .bdevNvmeDetachController base⟩

/-- The `bdev_null_delete` of `destroy_bdev`. -/
def bdevNullDeleteCmd (info : Bdev) : Cmd :=
  ⟨.src, spdkScript, "bdev_null_delete", [info.name], .bdevNullDelete info.name⟩

/-- The `bdev_malloc_delete` of `destroy_bdev`. -/
def bdevMallocDeleteCmd (info : Bdev) : Cmd :=
  ⟨.src, spdkScript, "bdev_malloc_delete", [info.name], .bdevMallocDelete info.name⟩

/-- The branches of `destroy_bdev` for Null and Malloc disks. -/
def destroyDisk (info : Bdev) : Live Unit :=
  if info.productName = "Null disk" then sendRpc (bdevNullDeleteCmd info)
  else if info.productName = "Malloc disk" then sendRpc (bdevMallocDeleteCmd info)
  else pure ()

/-- `destroy_bdev`. -/
def destroyBdev (bdev : String) : Live Unit := do
  let entry ← bdevItem bdev
  let used := entry.used - 1
  setBdev bdev fun e => { e with used := used }
  if used ≠ 0 then
    pure ()
  else if entry.info.productName = "NVMe disk" then
    let baseBdev ← item entry.base
    let nvmf ← nvmfItem baseBdev
    let baseUsed := nvmf.used - 1
    setNvmf baseBdev fun e => { e with used := baseUsed }
    if baseUsed ≠ 0 then pure () else sendRpc (bdevNvmeDetachControllerCmd baseBdev)
  else destroyDisk entry.info

/-! ## VBLK -/

/-- `suspend_cmd` of `cleanup_restore_vblk_controller`: one string, which is sent as the method. -/
def cleanupVblkControllerCmd (ctrlId : String) : Cmd where
  sock := .src
  script := snapScript
  method := "virtio_blk_controller_suspend --ctrl " ++ ctrlId ++ " -t 20 -lu" ++ " ; "
  params := []
  rpc := .virtioBlkControllerSuspend ctrlId (some "20") (some "-lu")

/-- `params` of `cleanup_restore_vblk_controller`. -/
def restoreVblkControllerParams (ctrlId : String) (ctrl : VblkCtrl) : List String :=
  let createParams := [("vhca_id", toString ctrl.vhcaId), ("ctrl", ctrlId),
    ("num_queues", toString ctrl.numQueues), ("queue_size", toString ctrl.queueSize),
    ("seg_max", toString ctrl.segMax), ("size_max", toString ctrl.sizeMax),
    ("vblk_id", ctrl.vblkId)]
  let createFlags := [("force_in_order", ctrl.forceInOrder), ("admin_q", ctrl.adminQ),
    ("dbg_local_optimized", ctrl.dbgLocalOptimized), ("indirect_desc", ctrl.indirectDesc),
    ("read_only", ctrl.readOnly)]
  let createParams := createParams ++ if ctrl.bdev ≠ "none" then [("bdev", ctrl.bdev)] else []
  options "--" createParams ++
    createFlags.flatMap (fun f => if f.2 then ["--" ++ f.1] else []) ++
    ["--suspended", "--live_update_listener"]

/-- `create_cmd` of `cleanup_restore_vblk_controller`: one string, which is sent as the method. -/
def restoreVblkControllerCmd (ctrlId : String) (ctrl : VblkCtrl) : Cmd where
  sock := .dst
  script := snapScript
  method := "virtio_blk_controller_create " ++
    " ".intercalate (restoreVblkControllerParams ctrlId ctrl) ++ " ; "
  params := []
  rpc := .virtioBlkControllerCreate ctrlId ctrl

/-- `cleanup_restore_vblk_controller`. -/
def cleanupRestoreVblkController (self : Manager) (vblkFunc : Func) : Live Unit := do
  let ctrlId ← item vblkFunc.ctrlId
  let ctrl ← item (self.vblkCtrlDict.lookup ctrlId)
  sendSuspendRestore (cleanupVblkControllerCmd ctrlId) (restoreVblkControllerCmd ctrlId ctrl)

/-- The command of `suspend_vblk_ctrl`. -/
def suspendVblkCtrlCmd (ctrlId : String) (params : Option String) : Cmd where
  sock := .src
  script := snapScript
  method := "virtio_blk_controller_suspend"
  params := options "--" [("ctrl", ctrlId)] ++ (truthy params).toList.map ("--" ++ ·)
  rpc := .virtioBlkControllerSuspend ctrlId none ((truthy params).map ("--" ++ ·))

/-- `suspend_vblk_ctrl`. -/
def suspendVblkCtrl (vblkFunc : Func) (params : Option String) : Live Unit := do
  let ctrlId ← item vblkFunc.ctrlId
  sendRpc (suspendVblkCtrlCmd ctrlId params)

/-- The command of `destroy_vblk_ctrl`. -/
def destroyVblkCtrlCmd (ctrlId : String) (params : Option String) : Cmd where
  sock := .src
  script := snapScript
  method := "virtio_blk_controller_destroy"
  params := options "--" [("ctrl", ctrlId)] ++ (truthy params).toList.map ("--" ++ ·)
  rpc := .virtioBlkControllerDestroy ctrlId ((truthy params).map ("--" ++ ·))

/-- `destroy_vblk_ctrl`. -/
def destroyVblkCtrl (self : Manager) (vblkFunc : Func) (params : Option String) : Live Unit := do
  let ctrlId ← item vblkFunc.ctrlId
  let ctrl ← item (self.vblkCtrlDict.lookup ctrlId)
  sendRpc (destroyVblkCtrlCmd ctrlId params)
  if ctrl.bdev ≠ "none" then destroyBdev ctrl.bdev

/-- `live_update_vblk_func`. -/
def liveUpdateVblkFunc (self : Manager) (vblkFunc : Func) : Live Unit :=
  match vblkFunc.ctrlId with
  | none => pure ()
  | some ctrlId => do
    let ctrl ← item (self.vblkCtrlDict.lookup ctrlId)
    if ctrl.bdev ≠ "none" then createBdev ctrl.bdev
    suspendVblkCtrl vblkFunc (some "events_only")
    cleanupRestoreVblkController self vblkFunc
    if vblkFunc.vfIndex.isSome then destroyVblkCtrl self vblkFunc (some "force")

/-! ## NVMe -/

/-- The command of `create_nvme_subsys`. -/
def createNvmeSubsysCmd (subsys : Subsys) : Cmd where
  sock := .dst
  script := snapScript
  method := "nvme_subsystem_create"
  params := options "-" [("s", subsys.nqn), ("mn", subsys.mn), ("sn", subsys.sn),
    ("mnan", toString subsys.mnan), ("nn", toString subsys.nn)]
  rpc := .nvmeSubsystemCreate subsys

/-- `create_nvme_subsys`. -/
def createNvmeSubsys (subsys : Subsys) : Live Unit := sendRpc (createNvmeSubsysCmd subsys)

/-- `check_nvme_subsys`. -/
def checkNvmeSubsys (subsys : Subsys) : Live Bool := do
  let nvmeSubsysList ← sendRecvRpc .dst snapScript "nvme_subsystem_list" (·.dst.subsystems)
  return subsys.nqn ∈ nvmeSubsysList.map Subsys.nqn

/-- The command of `create_nvme_namespace`. -/
def createNvmeNamespaceCmd (ctrl : NvmeCtrl) (ns : CtrlNs) : Cmd where
  sock := .dst
  script := snapScript
  method := "nvme_namespace_create"
  params := options "--" [("nqn", ctrl.nqn), ("nsid", toString ns.nsid), ("bdev_name", ns.bdev),
    ("uuid", ns.uuid)]
  rpc := .nvmeNamespaceCreate (ns.within ctrl.nqn)

/-- `create_nvme_namespace`. -/
def createNvmeNamespace (ctrl : NvmeCtrl) (ns : CtrlNs) : Live Unit :=
  sendRpc (createNvmeNamespaceCmd ctrl ns)

/-- `check_nvme_namespace`. The controller is passed, but not looked at. -/
def checkNvmeNamespace (_ctrl : NvmeCtrl) (ns : CtrlNs) : Live Bool := do
  let nvmeNsesList ← sendRecvRpc .dst snapScript "nvme_namespace_list" (·.dst.namespaces)
  return nvmeNsesList.any fun dstNs => dstNs.uuid = ns.uuid

/-- The command of `suspend_nvme_ctrl`. -/
def suspendNvmeCtrlCmd (ctrl : NvmeCtrl) (flag timeout : Option String) : Cmd where
  sock := .src
  script := snapScript
  method := "nvme_controller_suspend"
  params := options "--" [("ctrl", ctrl.ctrlId)] ++ (truthy flag).toList.map ("--" ++ ·) ++
    (truthy timeout).toList.flatMap (["--timeout_ms", ·])
  rpc := .nvmeControllerSuspend ctrl.ctrlId ((truthy flag).map ("--" ++ ·)) (truthy timeout)

/-- `suspend_nvme_ctrl`. -/
def suspendNvmeCtrl (ctrl : NvmeCtrl) (flag timeout : Option String) : Live Unit :=
  sendRpc (suspendNvmeCtrlCmd ctrl flag timeout)

/-- The `nvme_controller_create` of `create_passive_nvme_controller`. -/
def createPassiveNvmeControllerCmd (ctrl : NvmeCtrl) : Cmd where
  sock := .dst
  script := snapScript
  method := "nvme_controller_create"
  params := options "--" [("vhca_id", toString ctrl.vhcaId), ("ctrl", ctrl.ctrlId),
    ("nqn", ctrl.nqn), ("mdts", toString ctrl.mdts), ("num_queues", toString ctrl.numQueues)] ++
    ["--suspended", "--live_update_listener"]
  rpc := .nvmeControllerCreate ctrl.vhcaId ctrl.ctrlId ctrl.nqn ctrl.mdts ctrl.numQueues

/-- The `nvme_controller_attach_ns` of `create_passive_nvme_controller`. -/
def attachNvmeNsCmd (ctrl : NvmeCtrl) (ns : CtrlNs) : Cmd where
  sock := .dst
  script := snapScript
  method := "nvme_controller_attach_ns"
  params := options "--" [("ctrl", ctrl.ctrlId), ("nsid", toString ns.nsid)]
  rpc := .nvmeControllerAttachNs ctrl.ctrlId ns.nsid

/-- `create_passive_nvme_controller`. -/
def createPassiveNvmeController (ctrl : NvmeCtrl) : Live Unit := do
  sendRpc (createPassiveNvmeControllerCmd ctrl)
  ctrl.namespaces.forM fun ns => sendRpc (attachNvmeNsCmd ctrl ns)

/-- The command of `detach_nvme_ns`, whose callers turn the nsid into a string. -/
def detachNvmeNsCmd (ctrlId : String) (nsid : ℕ) : Cmd where
  sock := .src
  script := snapScript
  method := "nvme_controller_detach_ns"
  params := options "--" [("ctrl", ctrlId), ("nsid", toString nsid)]
  rpc := .nvmeControllerDetachNs ctrlId nsid

/-- `detach_nvme_ns`. -/
def detachNvmeNs (ctrlId : String) (nsid : ℕ) : Live Unit := sendRpc (detachNvmeNsCmd ctrlId nsid)

/-- The `nvme_controller_destroy` of `cleanup_nvme_controller`. -/
def destroyNvmeControllerCmd (ctrlId : String) : Cmd where
  sock := .src
  script := snapScript
  method := "nvme_controller_destroy"
  params := options "--" [("ctrl", ctrlId)]
  rpc := .nvmeControllerDestroy ctrlId

/-- `cleanup_nvme_controller`. -/
def cleanupNvmeController (self : Manager) (ctrlId : String) : Live Unit := do
  let ctrl ← item (self.nvmeCtrlDict.lookup ctrlId)
  ctrl.namespaces.forM fun ns => do
    detachNvmeNs ctrlId ns.nsid
    destroyBdev ns.bdev
  sendRpc (destroyNvmeControllerCmd ctrlId)

/-- The first step of `live_update_nvme_func`: create a subsystem if it does not exist. -/
def ensureNvmeSubsys (self : Manager) (nqn : String) : Live Unit := do
  let hist ← histItem nqn
  if hist = 0 then
    let subsys ← item (self.nvmeSubsysDict.lookup nqn)
    let found ← checkNvmeSubsys subsys
    (if found = false then createNvmeSubsys subsys else pure ())
    setHist nqn 1

/-- The body of the namespace loop of `live_update_nvme_func` after `create_bdev`: create a
namespace if it does not exist. -/
def ensureNvmeNamespace (ctrl : NvmeCtrl) (ns : CtrlNs) : Live Unit := do
  let found ← checkNvmeNamespace ctrl ns
  if found = false then createNvmeNamespace ctrl ns

/-- `live_update_nvme_func`. -/
def liveUpdateNvmeFunc (self : Manager) (nvmeFunc : Func) : Live Unit :=
  match nvmeFunc.ctrlId with
  | none => pure ()
  | some ctrlId => do
    let ctrl ← item (self.nvmeCtrlDict.lookup ctrlId)
    ensureNvmeSubsys self ctrl.nqn
    ctrl.namespaces.forM fun ns => do
      createBdev ns.bdev
      ensureNvmeNamespace ctrl ns
    suspendNvmeCtrl ctrl (some "admin_only") none
    createPassiveNvmeController ctrl
    suspendNvmeCtrl ctrl (some "live_update_notifier") (some "20")
    if nvmeFunc.vfIndex.isSome then cleanupNvmeController self ctrlId

/-! ## Main -/

/-- `check_service_running`. -/
def checkServiceRunning : Live Unit := do
  let srcVersion ← sendRecvRpc .src spdkScript "spdk_get_version" (·.src.version)
  let dstVersion ← sendRecvRpc .dst spdkScript "spdk_get_version" (·.dst.version)
  if srcVersion = false ∨ dstVersion = false then throw .exit

/-- The body of the loop of `main` over the VBLK physical functions. -/
def updateVblkPf (self : Manager) (vblkPf : PhysFunc) : Live Unit := do
  liveUpdateVblkFunc self vblkPf.toFunc
  vblkPf.vfs.forM (liveUpdateVblkFunc self)
  if vblkPf.ctrlId.isSome then destroyVblkCtrl self vblkPf.toFunc none

/-- The body of the loop of `main` over the NVMe physical functions. -/
def updateNvmePf (self : Manager) (nvmePf : PhysFunc) : Live Unit := do
  liveUpdateNvmeFunc self nvmePf.toFunc
  nvmePf.vfs.forM (liveUpdateNvmeFunc self)
  match nvmePf.ctrlId with
  | some ctrlId => cleanupNvmeController self ctrlId
  | none => pure ()

/-- `main`, after the command line has been parsed. -/
def main : Live Unit := do
  checkServiceRunning
  let manager ← init
  manager.vblkFunctions.forM (updateVblkPf manager)
  manager.nvmeFunctions.forM (updateNvmePf manager)

/-- The session in which `main` starts: no memory yet and nothing sent. -/
def start (w : World) (answers : ℕ → Bool) : Session := ⟨⟨∅, ∅, ∅⟩, w, [], [], answers⟩

/-- The run of `main` on the two processes, with the given answers to its RPCs. -/
def run (w : World) (answers : ℕ → Bool) : EStateM.Result Raised Session Unit :=
  main (start w answers)

end DcPerf.LiveUpdate
