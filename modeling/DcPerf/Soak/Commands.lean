import DcPerf.Library.Timed
import DcPerf.Library.ShellText

/-!
# The commands of the soak tests

What the scripts run that boot a host or a service over and over again: commands on the DPU, on the
target that exports the disks, and on the host.
-/

namespace DcPerf.Soak

open DcPerf.Library

/-- Backing devices of the emulated disk; `null` is `--dbg_bdev_type null --bdev none`. -/
inductive Bdev where
  | null
  | nvmeRocky8n1
  | nvmeUbuntun1
  deriving DecidableEq

/-- NVMe controllers of the DPU, on the subsystems that the target exports. -/
inductive Nvme where
  | nvmeRocky8
  | nvmeUbuntu
  deriving DecidableEq

inductive Command where
  | date
  | sleep (seconds : ℕ)
  | echo (text : String)
  /-- `mlnx-sf --action create` and `ip a a` -/
  | mlnxSf
  | ipAddr
  /-- `snap_service ... &` -/
  | snapService
  /-- `spdk_rpc.py -s socket spdk_get_version` -/
  | spdkGetVersion (socket : Option String)
  /-- `snap_rpc.py snap_log_level_set -l 4` -/
  | snapLogLevelSet
  /-- `spdk_rpc.py bdev_nvme_attach_controller -b name` -/
  | bdevNvmeAttachController (name : Nvme)
  | bdevNvmeDetachController (name : Nvme)
  /-- `snap_rpc.py virtio_blk_controller_create --bdev none --ctrl VblkCtrl1` -/
  | virtioBlkControllerCreate
  /-- `snap_rpc.py virtio_blk_controller_bdev_attach --ctrl VblkCtrl1 --bdev bdev` -/
  | virtioBlkControllerBdevAttach (bdev : Bdev)
  | virtioBlkControllerBdevDetach
  /-- `ssh_cmd.py bash start_new_ubuntu27.sh` on the target -/
  | startNewUbuntu27
  | stopUsedUbuntu27
  /-- `ipmitool chassis power reset` -/
  | powerReset
  /-- `ssh 'sleep 10'`, `ssh 'shutdown --halt now'` and `ssh 'reboot'` on the host -/
  | sshSleep
  | sshHalt
  | sshReboot
  deriving DecidableEq

instance : Lasting Command where
  atLeast
    | .sleep seconds => seconds
    | _ => 0

abbrev Log := List (Ran Command)

/-- `$(date +%s)` -/
def date (w : TimedHost Command) : Script Log ℕ := do
  w.call .date
  return w.seconds (← get)

/-! ## What a command prints -/

/-- A basic regular expression whose only operator is the dot, at the start of a text. -/
def startsWith : List Char → List Char → Bool
  | [], _ => true
  | _ :: _, [] => false
  | p :: pattern, c :: text => (p = '.' || p = c) && startsWith pattern text

/-- `echo $output | grep pattern`: the output is split into words and is printed in one line. -/
def grepEcho (pattern : String) (output : List Char) : Bool :=
  let line := ShellText.echo (ShellText.words (ShellText.substitution output))
  line.tails.any fun text => startsWith pattern.toList text

end DcPerf.Soak
