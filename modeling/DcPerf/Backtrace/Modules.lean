import DcPerf.Backtrace.Loader
import Mathlib.Algebra.Group.Nat.Defs
import Mathlib.Data.List.Forall2

/-!
# Modules and the addresses in them

The segments of a module are ranges of addresses. The module of an address is the one that has it in
a segment, in whatever order the loader lists the modules and their headers.
-/

namespace DcPerf.Backtrace

/-- The segment has `address` when its module is loaded at `base`. -/
def Phdr.Contains (phdr : Phdr) (base address : Address) : Prop :=
  (phdr.vaddr + base).toNat ≤ address.toNat ∧
    address.toNat < (phdr.vaddr + base).toNat + phdr.memsz.toNat

instance Phdr.decidableContains (phdr : Phdr) (base address : Address) :
    Decidable (phdr.Contains base address) :=
  inferInstanceAs (Decidable (_ ∧ _))

/-- A segment of the module has `address`. -/
def DlPhdrInfo.Contains (info : DlPhdrInfo) (address : Address) : Prop :=
  ∃ phdr ∈ info.phdr, phdr.Contains info.addr address

instance DlPhdrInfo.decidableContains (info : DlPhdrInfo) (address : Address) :
    Decidable (info.Contains address) :=
  inferInstanceAs (Decidable (∃ phdr ∈ info.phdr, _))

/-- No segment of the module wraps. -/
def DlPhdrInfo.Fits (info : DlPhdrInfo) : Prop :=
  ∀ phdr ∈ info.phdr, (phdr.vaddr + info.addr).toNat + phdr.memsz.toNat < 2 ^ 64

/-- The modules are loaded side by side in the address space. -/
structure Loaded (modules : List DlPhdrInfo) : Prop where
  fits : ∀ info ∈ modules, info.Fits
  disjoint : modules.Pairwise fun info other =>
    ∀ address, ¬(info.Contains address ∧ other.Contains address)

/-- One module, with its headers in another order. -/
structure SameModule (info other : DlPhdrInfo) : Prop where
  addr : info.addr = other.addr
  name : info.name = other.name
  phdr : info.phdr.Perm other.phdr

/-- The same modules, in another order and with their headers in another order. -/
def Reordered (modules others : List DlPhdrInfo) : Prop :=
  ∃ permuted, modules.Perm permuted ∧ List.Forall₂ SameModule permuted others

/-- The lookup has found the one module with `address`, if there is one; the module without a name is
known by `path`. -/
structure Finds (path : String) (modules : List DlPhdrInfo) (address : Address)
    (result : Bool × DlAddressSearch) : Prop where
  fails_iff : result.1 = false ↔ ∀ info ∈ modules, ¬info.Contains address
  found : result.1 = true → ∃ info, modules.filter (·.Contains address) = [info] ∧
    result.2.base = info.addr ∧
    result.2.filename = some (if info.name = "" then path else info.name)

end DcPerf.Backtrace
