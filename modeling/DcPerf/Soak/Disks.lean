import DcPerf.Library.Requests
import DcPerf.Soak.Commands

/-!
# The disks of the host under test

What the DPU has attached and what the target exports, after the commands of a soak test and according to
what these came back with: a request that is refused has no effect. From this follows when a command makes
sense.
-/

namespace DcPerf.Soak

open DcPerf.Library

structure Disks where
  /-- What `VblkCtrl1` is backed by. -/
  backing : Option Bdev
  /-- `nvme_rocky8` and `nvme_ubuntu` are attached. -/
  rocky : Bool
  ubuntu : Bool
  /-- The last command about the subsystem of `nvme_ubuntu` listed it as exported. -/
  exported : Bool
  deriving DecidableEq

namespace Disks

/-- What a request does that is granted. -/
def grant (s : Disks) : Command → Disks
  | .virtioBlkControllerCreate => { s with backing := some .null }
  | .virtioBlkControllerBdevAttach bdev => { s with backing := some bdev }
  | .virtioBlkControllerBdevDetach => { s with backing := none }
  | .bdevNvmeAttachController .nvmeRocky8 => { s with rocky := true }
  | .bdevNvmeDetachController .nvmeRocky8 => { s with rocky := false }
  | .bdevNvmeAttachController .nvmeUbuntu => { s with ubuntu := true }
  | .bdevNvmeDetachController .nvmeUbuntu => { s with ubuntu := false }
  | _ => s

def next (s : Disks) (r : Ran Command) : Disks :=
  match r.command with
  | .startNewUbuntu27 =>
    { s with exported := grepEcho "nqn.2025-01.baidu.boot:ubuntu27" r.reply.output }
  | .stopUsedUbuntu27 => { s with exported := false }
  | c => if r.reply.status = 0 then s.grant c else s

/-- The NVMe controller that a backing device is on is attached. -/
def Has (s : Disks) : Bdev → Prop
  | .null => True
  | .nvmeRocky8n1 => s.rocky = true
  | .nvmeUbuntun1 => s.ubuntu = true

/-- When a command makes sense: a backing device is attached where there is none and while its NVMe
controller is attached, and detached where there is one; `nvme_ubuntu` is attached when it is not, once its
subsystem is exported, and is detached while no backing device is there that may be on it; its subsystem is
moved only while it is not attached; and the host is reset, and logged into, only while it has a disk. -/
def Allowed (s : Disks) (r : Ran Command) : Prop :=
  match r.command with
  | .virtioBlkControllerCreate => s.backing = none
  | .virtioBlkControllerBdevAttach bdev => s.backing = none ∧ s.Has bdev
  | .virtioBlkControllerBdevDetach => s.backing ≠ none
  | .bdevNvmeAttachController .nvmeRocky8 => s.rocky = false
  | .bdevNvmeAttachController .nvmeUbuntu => s.ubuntu = false ∧ s.exported = true
  | .bdevNvmeDetachController .nvmeUbuntu => s.ubuntu = true ∧ s.backing = none
  | .startNewUbuntu27 => s.ubuntu = false
  | .stopUsedUbuntu27 => s.ubuntu = false
  | .powerReset => s.backing ≠ none
  | .sshSleep => s.backing = some .nvmeRocky8n1 ∨ s.backing = some .nvmeUbuntun1
  | .sshHalt => s.backing = some .nvmeRocky8n1
  | _ => True

end Disks

/-- From a DPU without `VblkCtrl1`, `nvme_rocky8` and `nvme_ubuntu`. -/
def disks : Protocol Disks (Ran Command) where
  start := { backing := none, rocky := false, ubuntu := false, exported := false }
  next := Disks.next
  Allowed := Disks.Allowed

/-! ## Refusals -/

/-- Commands about the backing device of `VblkCtrl1`. -/
def aboutBacking : Command → Bool
  | .virtioBlkControllerCreate => true
  | .virtioBlkControllerBdevAttach _ => true
  | .virtioBlkControllerBdevDetach => true
  | _ => false

/-- Commands about an NVMe controller. -/
def aboutNvme (name : Nvme) : Command → Bool
  | .bdevNvmeAttachController name' => name' = name
  | .bdevNvmeDetachController name' => name' = name
  | _ => false

/-- The last request about the backing device of `VblkCtrl1`, and the last one about each NVMe controller,
was granted. -/
structure Settled (log : Log) : Prop where
  backing : LastGranted aboutBacking log
  nvme : ∀ name, LastGranted (aboutNvme name) log

end DcPerf.Soak
