import DcPerf.Virtio.VmVfs

/-!
# VFs that are passed through

Each VF of a list goes to one place in one virtual machine: a directory stands for a machine, and the
address in it that a file names is the place.
-/

namespace DcPerf.Virtio.VmVfs

open DcPerf.Library DcPerf.Library.ShellText

/-- A VF, written `BB:DD.F`. -/
structure Bdf where
  bus : List Char
  dev : List Char
  func : List Char
  bus_hex : isHexWord 2 bus = true
  dev_hex : isHexWord 2 dev = true
  func_hex : isHexWord 1 func = true
  deriving DecidableEq

def Bdf.text (vf : Bdf) : List Char := vf.bus ++ ':' :: (vf.dev ++ '.' :: vf.func)

/-- The file `x`. -/
def listing (vfs : List Bdf) : List Char := unlines (vfs.map Bdf.text)

/-- The address of the VF on the host, as XML. -/
def Bdf.source (vf : Bdf) : String :=
  sourceLine ("0x" ++ String.ofList vf.bus) ("0x" ++ String.ofList vf.dev)
    ("0x" ++ String.ofList vf.func)

/-- The address between `<source>` and `</source>`. -/
def sourceAddress (xml : List String) : Option String := xml[3]?

/-- The address after `</source>`. -/
def guestAddress (xml : List String) : Option String := xml[5]?

/-- The file comes before another one: in an earlier directory, or earlier in the same one. -/
def VfPath.Before (p q : VfPath) : Prop := p.dir < q.dir ∨ p.dir = q.dir ∧ p.idx < q.idx

/-- Each VF is the source address of one file; the files are in the order of the list, at most `g` in
a directory, and no two in a directory have one guest address. -/
structure PassedThrough (vfs : List Bdf) (g : ℕ) (files : Dict VfPath (List String)) : Prop where
  once : ∀ vf ∈ vfs, files.countValues (fun xml => sourceAddress xml = some vf.source) = 1
  inOrder : ∀ pre a b post, vfs = pre ++ a :: b :: post → ∀ p q xml xml',
    files.lookup p = some xml → sourceAddress xml = some a.source →
    files.lookup q = some xml' → sourceAddress xml' = some b.source → p.Before q
  bounded : ∀ dir, (files.keys.countP fun p => p.dir = dir) ≤ g
  guests : ∀ p q xml xml', files.lookup p = some xml → files.lookup q = some xml' →
    p.dir = q.dir → guestAddress xml = guestAddress xml' → p = q

end DcPerf.Virtio.VmVfs
