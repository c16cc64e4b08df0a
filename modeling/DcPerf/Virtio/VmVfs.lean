import DcPerf.Library.Dict
import DcPerf.Library.ShellNumber
import DcPerf.Library.ShellText

/-!
# The script `gen_vm_vfs.sh`

The script cuts the list of VFs in the file `x` into groups of one size. For each group it writes a
directory of XML files that hand the VFs over to a virtual machine. Counts are those of a file, so
that no arithmetic on them wraps.
-/

namespace DcPerf.Virtio.VmVfs

open DcPerf.Library DcPerf.Library.ShellText

/-! ## The addresses in the virtual machine -/

/-- An entry of `tbdfs`. -/
def tbdf (slot function : String) : String :=
  s!"    <address type='pci' domain='0x0000' bus='0x00' slot='{slot}' function='{function}'/>"

def tbdfs : List String :=
  ["0x4", "0x5", "0x6", "0x7"].map (tbdf "0x04") ++
    ["0x05", "0x06", "0x07", "0x08", "0x09", "0x0a", "0x0b", "0x0c", "0x0d", "0x0e", "0x0f",
      "0x10"].flatMap fun slot =>
        ["0x0", "0x1", "0x2", "0x3", "0x4", "0x5", "0x6", "0x7"].map (tbdf slot)

/-! ## One group -/

/-- The line with the address of the VF on the host. -/
def sourceLine (bus dev func : String) : String :=
  s!"    <address domain='0x0000' bus='{bus}' slot='{dev}' function='{func}'/>"

/-- The lines of an XML file. -/
def hostdev (bus dev func tbdf : String) : List String :=
  ["<hostdev mode='subsystem' type='pci' managed='yes'>",
    "  <driver name='vfio'/>",
    "  <source>",
    sourceLine bus dev func,
    "  </source>",
    tbdf,
    "</hostdev>"]

/-- The body of the loop in `gg`. -/
def vfXml (bdf : List Char) (idx : ℕ) : List String :=
  let bdf := echo (words bdf)
  let bus := "0x" ++ String.ofList (substitution (cut ':' 1 bdf))
  let dev := "0x" ++ String.ofList (substitution (cut '.' 1 (cut ':' 2 bdf)))
  let func := "0x" ++ String.ofList (substitution (cut '.' 2 (cut ':' 2 bdf)))
  hostdev bus dev func (tbdfs.getD idx "")

/-- The file for the `idx`-th VF of a group. -/
structure VfPath where
  dir : ℕ
  idx : ℕ
  deriving DecidableEq

def VfPath.text (path : VfPath) : String := s!"{path.dir}/vf{path.idx}.xml"

/-- `gg`; the files in the order in which they are written. -/
def gg (group : List Char) (dir : ℕ) : List (VfPath × List String) :=
  let bdfs := words (substitution (echo (words group)))
  (List.range bdfs.length).map fun idx => (⟨dir, idx⟩, vfXml (bdfs.getD idx []) idx)

/-! ## The script -/

/-- `seq 0 last` -/
def seq (last : ℤ) : List ℕ := List.range (last + 1).toNat

/-- What `$1` counts as in arithmetic. An argument that cannot be read leaves `array_number` unset, as
a division by zero does, and it then counts as 0. -/
def groupNumber (arg : List Char) : ℤ :=
  match shellNumber arg with
  | some v => v.toInt
  | none => 0

/-- `array_number` -/
def arrayNumber (groupNumber : ℤ) (lines : ℕ) : ℤ := Int.tdiv lines groupNumber

/-- `tail_array_number`, which the script does not read. -/
def tailArrayNumber (groupNumber : ℤ) (lines : ℕ) : ℤ :=
  let temp := arrayNumber groupNumber lines * groupNumber
  lines - temp

/-- `array`, after the loop that fills it. -/
def array (groupNumber : ℤ) (x : List Char) : Dict ℕ (List Char) :=
  Dict.ofList id (fun i =>
    let firstLine := i * groupNumber + 1
    let lastLine := firstLine + groupNumber - 1
    substitution (sedPrint firstLine.toNat lastLine.toNat x))
    (seq (arrayNumber groupNumber (lineCount x) - 1))

/-- The files that the script writes, in this order, with its argument and the file `x`. -/
def main (arg x : List Char) : List (VfPath × List String) :=
  let groupNumber := groupNumber arg
  (seq (arrayNumber groupNumber (lineCount x) - 1)).flatMap fun i =>
    gg (((array groupNumber x).lookup i).getD []) i

/-- The files that are there in the end. -/
def files (arg x : List Char) : Dict VfPath (List String) :=
  Dict.ofList Prod.fst Prod.snd (main arg x)

end DcPerf.Virtio.VmVfs
