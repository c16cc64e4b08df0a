import DcPerf.LiveUpdate.Plan

/-!
# What the commands decode to

`subprocess.run` starts a command without a shell: the script gets the words as they are, takes the
fourth one as the method, and reads the rest with the parser of that method. A `Request` is a call
of `send_rpc` in one of the methods of the manager, with the values that its callers pass.
-/

namespace DcPerf.LiveUpdate

open DcPerf.Library.ArgVector

/-- The options that the parser of a method knows. -/
def Rpc.options : Rpc → Options
  | .bdevNvmeAttachController .. =>
    ⟨["--name", "--trtype", "--adrfam", "--traddr", "--trsvcid", "--subnqn"], []⟩
  | .bdevNullCreate .. => ⟨["--uuid"], []⟩
  | .bdevMallocCreate .. => ⟨["-b", "--uuid"], []⟩
  | .bdevNvmeDetachController .. | .bdevNullDelete .. | .bdevMallocDelete .. => ⟨[], []⟩
  | .virtioBlkControllerSuspend .. => ⟨["--ctrl", "-t"], ["--events_only", "-lu"]⟩
  | .virtioBlkControllerCreate .. =>
    ⟨["--vhca_id", "--ctrl", "--num_queues", "--queue_size", "--seg_max", "--size_max", "--vblk_id",
      "--bdev"],
      ["--force_in_order", "--admin_q", "--dbg_local_optimized", "--indirect_desc", "--read_only",
        "--suspended", "--live_update_listener"]⟩
  | .virtioBlkControllerDestroy .. => ⟨["--ctrl"], ["--force"]⟩
  | .nvmeSubsystemCreate .. => ⟨["-s", "-mn", "-sn", "-mnan", "-nn"], []⟩
  | .nvmeNamespaceCreate .. => ⟨["--nqn", "--nsid", "--bdev_name", "--uuid"], []⟩
  | .nvmeControllerSuspend .. =>
    ⟨["--ctrl", "--timeout_ms"], ["--admin_only", "--live_update_notifier"]⟩
  | .nvmeControllerCreate .. =>
    ⟨["--vhca_id", "--ctrl", "--nqn", "--mdts", "--num_queues"],
      ["--suspended", "--live_update_listener"]⟩
  | .nvmeControllerAttachNs .. | .nvmeControllerDetachNs .. => ⟨["--ctrl", "--nsid"], []⟩
  | .nvmeControllerDestroy .. => ⟨["--ctrl"], []⟩

/-- The argument vector of a command decodes to its RPC: the fourth word is the name of the method,
and the words after it are read as the arguments of the RPC. -/
structure Cmd.Decodes (sockName : Sock → String) (c : Cmd) : Prop where
  method : (c.argv sockName)[3]? = some c.rpc.method
  single : ∀ m ∈ (c.argv sockName)[3]?, ' ' ∉ m.toList ∧ ';' ∉ m.toList
  args : (read c.rpc.options ((c.argv sockName).drop 4)).map reading = some (reading c.rpc.items)

/-- A call of `send_rpc`. -/
inductive Request where
  | bdevNvmeAttachController (base trtype adrfam traddr trsvcid subnqn : String)
  | bdevNullCreate (info : Bdev)
  | bdevMallocCreate (info : Bdev)
  | bdevNvmeDetachController (base : String)
  | bdevNullDelete (info : Bdev)
  | bdevMallocDelete (info : Bdev)
  /-- The first half of `send_suspend_restore`. -/
  | cleanupVblkController (ctrlId : String)
  /-- The second half of `send_suspend_restore`. -/
  | restoreVblkController (ctrlId : String) (ctrl : VblkCtrl)
  | suspendVblkCtrl (ctrlId : String)
  | destroyVblkCtrl (ctrlId : String) (force : Bool)
  | createNvmeSubsys (subsys : Subsys)
  | createNvmeNamespace (ctrl : NvmeCtrl) (ns : CtrlNs)
  /-- `suspend_nvme_ctrl` with `admin_only`. -/
  | quietNvmeCtrl (ctrl : NvmeCtrl)
  /-- `suspend_nvme_ctrl` with `live_update_notifier`. -/
  | suspendNvmeCtrl (ctrl : NvmeCtrl)
  | createPassiveNvmeController (ctrl : NvmeCtrl)
  | attachNvmeNs (ctrl : NvmeCtrl) (ns : CtrlNs)
  | detachNvmeNs (ctrlId : String) (nsid : ℕ)
  | destroyNvmeController (ctrlId : String)

/-- The command that a request sends. -/
def Request.cmd : Request → Cmd
  | .bdevNvmeAttachController base trtype adrfam traddr trsvcid subnqn =>
    bdevNvmeAttachControllerCmd base trtype adrfam traddr trsvcid subnqn
  | .bdevNullCreate info => bdevNullCreateCmd info
  | .bdevMallocCreate info => bdevMallocCreateCmd info
  | .bdevNvmeDetachController base => bdevNvmeDetachControllerCmd base
  | .bdevNullDelete info => bdevNullDeleteCmd info
  | .bdevMallocDelete info => bdevMallocDeleteCmd info
  | .cleanupVblkController ctrlId => cleanupVblkControllerCmd ctrlId
  | .restoreVblkController ctrlId ctrl => restoreVblkControllerCmd ctrlId ctrl
  | .suspendVblkCtrl ctrlId => suspendVblkCtrlCmd ctrlId (some "events_only")
  | .destroyVblkCtrl ctrlId force => destroyVblkCtrlCmd ctrlId (if force then some "force" else none)
  | .createNvmeSubsys subsys => createNvmeSubsysCmd subsys
  | .createNvmeNamespace ctrl ns => createNvmeNamespaceCmd ctrl ns
  | .quietNvmeCtrl ctrl => suspendNvmeCtrlCmd ctrl (some "admin_only") none
  | .suspendNvmeCtrl ctrl => suspendNvmeCtrlCmd ctrl (some "live_update_notifier") (some "20")
  | .createPassiveNvmeController ctrl => createPassiveNvmeControllerCmd ctrl
  | .attachNvmeNs ctrl ns => attachNvmeNsCmd ctrl ns
  | .detachNvmeNs ctrlId nsid => detachNvmeNsCmd ctrlId nsid
  | .destroyNvmeController ctrlId => destroyNvmeControllerCmd ctrlId

/-- The words of the request stay apart: it is not one of the two that join them into one string,
and nothing is lost where a name is glued to its option. -/
def Request.Separate : Request → Prop
  | .cleanupVblkController _ | .restoreVblkController _ _ => False
  | .bdevMallocCreate info => info.name ≠ "" ∧ info.name.toList.head? ≠ some '='
  | _ => True

/-- No value of the RPC starts with `-`. -/
def Rpc.Plain (r : Rpc) : Prop := ∀ i ∈ r.items, ∀ v ∈ i.values, dashed v = false

instance (r : Rpc) : Decidable r.Plain :=
  inferInstanceAs (Decidable (∀ i ∈ r.items, ∀ v ∈ i.values, dashed v = false))

end DcPerf.LiveUpdate
