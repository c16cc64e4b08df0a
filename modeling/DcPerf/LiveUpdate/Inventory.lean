import DcPerf.Library.Abortable
import DcPerf.LiveUpdate.Manager

/-!
# The bdevs of the source and their copies

What the tables of `get_bdev_info` are taken to say of the two replies that they are made from, and
the size of the disk that `create_bdev` makes from an entry.
-/

namespace DcPerf.LiveUpdate

open DcPerf.Library

/-! ## The tables -/

/-- The bdev is an NVMe disk on the NVMe-oF controller. -/
def Bdev.isOn (bdev : Bdev) (ctrl : NvmfCtrl) : Bool :=
  decide (bdev.productName = "NVMe disk" ∧ bdev.trid = ctrl.trid)

/-- Every bdev has an entry, every NVMe disk is entered under a controller with its transport ID, and
the controllers count the entries under them. -/
structure Consistent (bdevs : List Bdev) (ctrls : List NvmfCtrl)
    (d : Dict String BdevEntry × Dict String NvmfEntry) : Prop where
  entered : ∀ bdev ∈ bdevs, (d.1.lookup bdev.name).isSome = true
  based : ∀ b e, d.1.lookup b = some e → e.info.productName = "NVMe disk" →
    ∃ ctrl ∈ ctrls, e.base = some ctrl.name ∧ e.info.trid = ctrl.trid
  counted : ∀ ctrl ∈ ctrls, ∃ n, d.2.lookup ctrl.name = some n ∧
    n.used = d.1.countValues fun e => e.base = some ctrl.name

/-! ## The disks -/

/-- The number of blocks of a disk that is made with a size in MiB, as SPDK's RPC client has it. -/
def blocksOf (size blockSize : ℕ) : ℕ := size * 1024 ^ 2 / blockSize

/-- The number of blocks of the disk that an RPC makes. -/
def Rpc.numBlocks : Rpc → Option ℕ
  | .bdevNullCreate _ totalSize blockSize _ => some (blocksOf totalSize blockSize)
  | .bdevMallocCreate _ totalSize blockSize _ => some (blocksOf totalSize blockSize)
  | _ => none

/-- `create_bdev` sends one command, and it makes a disk of the given number of blocks on the
destination. -/
def Recreates (s : Session) (b : String) (numBlocks : ℕ) : Prop :=
  ∃ c ok, (finalState (createBdev b s)).log = s.log ++ [.sent c ok] ∧ c.sock = .dst ∧
    c.rpc.numBlocks = some numBlocks

end DcPerf.LiveUpdate
