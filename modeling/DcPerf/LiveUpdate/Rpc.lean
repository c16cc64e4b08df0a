import DcPerf.Library.ArgVector
import DcPerf.LiveUpdate.Records

/-!
# The RPCs of a live update

A command is what `send_rpc` hands to `subprocess.run`: a script, the socket of a process, a method
element and a list of parameters. Beside these words a command carries the RPC it spells, which is
what the process executes when the command succeeds; for which commands of the manager words and RPC
agree is proved in `DcPerf.LiveUpdate.Proofs.Commands`. A failed command has no effect.
-/

namespace DcPerf.LiveUpdate

open DcPerf.Library.ArgVector

/-- `spdk_script`. -/
def spdkScript : String := "spdk_rpc.py"

/-- `snap_script`. -/
def snapScript : String := "snap_rpc.py"

/-- The process a command is addressed to: `src_sock` or `dst_sock`. -/
inductive Sock where
  | src
  | dst
  deriving DecidableEq

/-- The RPCs that `send_rpc` is used for, with their arguments. -/
inductive Rpc where
  | bdevNvmeAttachController (name trtype adrfam traddr trsvcid subnqn : String)
  | bdevNullCreate (name : String) (totalSize blockSize : ℕ) (uuid : String)
  | bdevMallocCreate (name : String) (totalSize blockSize : ℕ) (uuid : String)
  | bdevNvmeDetachController (name : String)
  | bdevNullDelete (name : String)
  | bdevMallocDelete (name : String)
  | virtioBlkControllerSuspend (ctrl : String) (timeout flag : Option String)
  | virtioBlkControllerCreate (ctrlId : String) (ctrl : VblkCtrl)
  | virtioBlkControllerDestroy (ctrl : String) (flag : Option String)
  | nvmeSubsystemCreate (subsys : Subsys)
  | nvmeNamespaceCreate (ns : Namespace)
  | nvmeControllerSuspend (ctrl : String) (flag timeout : Option String)
  | nvmeControllerCreate (vhcaId : ℕ) (ctrl nqn : String) (mdts numQueues : ℕ)
  | nvmeControllerAttachNs (ctrl : String) (nsid : ℕ)
  | nvmeControllerDetachNs (ctrl : String) (nsid : ℕ)
  | nvmeControllerDestroy (ctrl : String)
  deriving DecidableEq

/-- The name of the RPC method. -/
def Rpc.method : Rpc → String
  | .bdevNvmeAttachController .. => "bdev_nvme_attach_controller"
  | .bdevNullCreate .. => "bdev_null_create"
  | .bdevMallocCreate .. => "bdev_malloc_create"
  | .bdevNvmeDetachController .. => "bdev_nvme_detach_controller"
  | .bdevNullDelete .. => "bdev_null_delete"
  | .bdevMallocDelete .. => "bdev_malloc_delete"
  | .virtioBlkControllerSuspend .. => "virtio_blk_controller_suspend"
  | .virtioBlkControllerCreate .. => "virtio_blk_controller_create"
  | .virtioBlkControllerDestroy .. => "virtio_blk_controller_destroy"
  | .nvmeSubsystemCreate .. => "nvme_subsystem_create"
  | .nvmeNamespaceCreate .. => "nvme_namespace_create"
  | .nvmeControllerSuspend .. => "nvme_controller_suspend"
  | .nvmeControllerCreate .. => "nvme_controller_create"
  | .nvmeControllerAttachNs .. => "nvme_controller_attach_ns"
  | .nvmeControllerDetachNs .. => "nvme_controller_detach_ns"
  | .nvmeControllerDestroy .. => "nvme_controller_destroy"

/-- The arguments of the RPC as its command line takes them. -/
def Rpc.items : Rpc → List Item
  | .bdevNvmeAttachController name trtype adrfam traddr trsvcid subnqn =>
    [.opt "--name" name, .opt "--trtype" trtype, .opt "--adrfam" adrfam, .opt "--traddr" traddr,
      .opt "--trsvcid" trsvcid, .opt "--subnqn" subnqn]
  | .bdevNullCreate name totalSize blockSize uuid =>
    [.pos name, .pos (toString totalSize), .pos (toString blockSize), .opt "--uuid" uuid]
  | .bdevMallocCreate name totalSize blockSize uuid =>
    [.pos (toString totalSize), .pos (toString blockSize), .glued "-b" name, .opt "--uuid" uuid]
  | .bdevNvmeDetachController name | .bdevNullDelete name | .bdevMallocDelete name => [.pos name]
  | .virtioBlkControllerSuspend ctrl timeout flag =>
    [.opt "--ctrl" ctrl] ++ (timeout.map (Item.opt "-t")).toList ++ (flag.map Item.flag).toList
  | .virtioBlkControllerCreate ctrlId ctrl =>
    [.opt "--vhca_id" (toString ctrl.vhcaId), .opt "--ctrl" ctrlId,
      .opt "--num_queues" (toString ctrl.numQueues), .opt "--queue_size" (toString ctrl.queueSize),
      .opt "--seg_max" (toString ctrl.segMax), .opt "--size_max" (toString ctrl.sizeMax),
      .opt "--vblk_id" ctrl.vblkId] ++
    (if ctrl.bdev ≠ "none" then [.opt "--bdev" ctrl.bdev] else []) ++
    (if ctrl.forceInOrder then [.flag "--force_in_order"] else []) ++
    (if ctrl.adminQ then [.flag "--admin_q"] else []) ++
    (if ctrl.dbgLocalOptimized then [.flag "--dbg_local_optimized"] else []) ++
    (if ctrl.indirectDesc then [.flag "--indirect_desc"] else []) ++
    (if ctrl.readOnly then [.flag "--read_only"] else []) ++
    [.flag "--suspended", .flag "--live_update_listener"]
  | .virtioBlkControllerDestroy ctrl flag => [.opt "--ctrl" ctrl] ++ (flag.map Item.flag).toList
  | .nvmeSubsystemCreate subsys =>
    [.opt "-s" subsys.nqn, .opt "-mn" subsys.mn, .opt "-sn" subsys.sn,
      .opt "-mnan" (toString subsys.mnan), .opt "-nn" (toString subsys.nn)]
  | .nvmeNamespaceCreate ns =>
    [.opt "--nqn" ns.nqn, .opt "--nsid" (toString ns.nsid), .opt "--bdev_name" ns.bdev,
      .opt "--uuid" ns.uuid]
  | .nvmeControllerSuspend ctrl flag timeout =>
    [.opt "--ctrl" ctrl] ++ (flag.map Item.flag).toList ++
      (timeout.map (Item.opt "--timeout_ms")).toList
  | .nvmeControllerCreate vhcaId ctrl nqn mdts numQueues =>
    [.opt "--vhca_id" (toString vhcaId), .opt "--ctrl" ctrl, .opt "--nqn" nqn,
      .opt "--mdts" (toString mdts), .opt "--num_queues" (toString numQueues),
      .flag "--suspended", .flag "--live_update_listener"]
  | .nvmeControllerAttachNs ctrl nsid | .nvmeControllerDetachNs ctrl nsid =>
    [.opt "--ctrl" ctrl, .opt "--nsid" (toString nsid)]
  | .nvmeControllerDestroy ctrl => [.opt "--ctrl" ctrl]

/-- A command: the arguments of `send_rpc`, and the RPC they spell. -/
structure Cmd where
  sock : Sock
  script : String
  method : String
  params : List String
  rpc : Rpc
  deriving DecidableEq

/-- `cmd` of `send_rpc`: the argument vector that is run, given the names of the sockets. -/
def Cmd.argv (sockName : Sock → String) (c : Cmd) : List String :=
  [c.script, "-s", sockName c.sock, c.method] ++ c.params

/-! ## What a successful command does -/

/-- Close the controller `c` of the emulation type `t` on a function. -/
def PhysFunc.close (t c : String) (f : PhysFunc) : PhysFunc :=
  let closed (g : Func) : Func := if g.ctrlId = some c then { g with ctrlId := none } else g
  if f.emulationType = t then
    { f with toFunc := closed f.toFunc, vfs := f.vfs.map closed }
  else f

/-- The source process after a successful RPC. -/
def Source.exec (s : Source) : Rpc → Source
  | .virtioBlkControllerDestroy c _ =>
    { s with
      vblkCtrls := s.vblkCtrls.filter fun k => k.ctrlId ≠ c
      functions := s.functions.map (PhysFunc.close "VBLK" c) }
  | .nvmeControllerDetachNs c n =>
    { s with
      nvmeCtrls := s.nvmeCtrls.map fun k =>
        if k.ctrlId = c then { k with namespaces := k.namespaces.filter fun ns => ns.nsid ≠ n }
        else k }
  | .nvmeControllerDestroy c =>
    { s with
      nvmeCtrls := s.nvmeCtrls.filter fun k => k.ctrlId ≠ c
      functions := s.functions.map (PhysFunc.close "NVME" c) }
  | .bdevNullDelete b | .bdevMallocDelete b =>
    { s with bdevs := s.bdevs.filter fun k => k.name ≠ b }
  | .bdevNvmeDetachController g =>
    { s with
      nvmfCtrls := s.nvmfCtrls.filter fun k => k.name ≠ g
      bdevs := s.bdevs.filter fun b =>
        ¬(b.productName = "NVMe disk" ∧ ∃ k ∈ s.nvmfCtrls, k.name = g ∧ k.trid = b.trid) }
  | _ => s

/-- The destination process after a successful RPC. -/
def Destination.exec (d : Destination) : Rpc → Destination
  | .bdevNvmeAttachController name .. => { d with nvmfCtrls := d.nvmfCtrls ++ [name] }
  | .bdevNullCreate name .. | .bdevMallocCreate name .. => { d with bdevs := d.bdevs ++ [name] }
  | .virtioBlkControllerCreate c _ => { d with vblkCtrls := d.vblkCtrls ++ [c] }
  | .nvmeSubsystemCreate s => { d with subsystems := d.subsystems ++ [s] }
  | .nvmeNamespaceCreate ns => { d with namespaces := d.namespaces ++ [ns] }
  | .nvmeControllerCreate vhcaId ctrl nqn mdts numQueues =>
    { d with nvmeCtrls := d.nvmeCtrls ++ [⟨ctrl, nqn, vhcaId, mdts, numQueues, []⟩] }
  | .nvmeControllerAttachNs c n =>
    { d with
      nvmeCtrls := d.nvmeCtrls.map fun k =>
        if k.ctrlId = c then { k with attached := k.attached ++ [n] } else k }
  | _ => d

/-- The two processes of a live update. -/
structure World where
  src : Source
  dst : Destination
  deriving DecidableEq

/-- The two processes after a successful RPC to one of them. -/
def World.exec (w : World) : Sock → Rpc → World
  | .src, r => { w with src := w.src.exec r }
  | .dst, r => { w with dst := w.dst.exec r }

/-- What a run of the manager leaves in its log: the commands of `send_rpc` and the queries of
`send_recv_rpc`, each with its success. -/
inductive Event where
  | sent (cmd : Cmd) (ok : Bool)
  | asked (sock : Sock) (script method : String) (ok : Bool)
  deriving DecidableEq

/-- Whether the RPC of an event succeeded. -/
def Event.ok : Event → Bool
  | .sent _ ok => ok
  | .asked _ _ _ ok => ok

/-- The command of an event. -/
def Event.cmd? : Event → Option Cmd
  | .sent c _ => some c
  | .asked .. => none

/-- The two processes after an event. -/
def World.after (w : World) : Event → World
  | .sent c true => w.exec c.sock c.rpc
  | _ => w

/-- The two processes after a log. -/
def World.replay (w : World) (l : List Event) : World := l.foldl World.after w

@[simp] theorem World.replay_nil (w : World) : w.replay [] = w := rfl

@[simp] theorem World.replay_append (w : World) (l l' : List Event) :
    w.replay (l ++ l') = (w.replay l).replay l' := by
  simp [World.replay]

@[simp] theorem World.replay_singleton (w : World) (e : Event) : w.replay [e] = w.after e := rfl

end DcPerf.LiveUpdate
