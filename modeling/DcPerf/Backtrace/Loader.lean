import Mathlib.Data.Int.Notation
import Mathlib.Data.List.Basic
import Mathlib.Data.Nat.Notation

/-!
# The module of an address in `backtrace.c`

`dl_lookup_address` asks the loader for its modules and remembers the last one that has a segment
with the address. Addresses are 64-bit words whose arithmetic wraps.
-/

namespace DcPerf.Backtrace

/-- `unsigned long` -/
abbrev Address := BitVec 64

/-- A program header. -/
structure Phdr where
  vaddr : Address
  memsz : Address
  deriving DecidableEq

/-- `struct dl_phdr_info` -/
structure DlPhdrInfo where
  addr : Address
  name : String
  phdr : List Phdr
  deriving DecidableEq

/-- `struct dl_address_search` -/
structure DlAddressSearch where
  address : Address
  filename : Option String
  base : Address
  deriving DecidableEq

/-- `get_exe`, with the target of `/proc/self/exe`, if it can be read. A string has one character for
each byte. -/
def getExe (link : Option String) : String :=
  match link with
  | none => ""
  | some target => String.ofList (target.toList.take (1024 - 1))

/-- `dl_match_address` -/
def dlMatchAddress (info : DlPhdrInfo) (dl : DlAddressSearch) : DlAddressSearch :=
  info.phdr.foldl (fun dl phdr =>
    let vbaseaddr := phdr.vaddr + info.addr
    if vbaseaddr ≤ dl.address ∧ dl.address < vbaseaddr + phdr.memsz then
      { dl with filename := some info.name, base := info.addr }
    else
      dl) dl

/-- `dl_lookup_address`, with the modules that `dl_iterate_phdr` visits and what `get_exe` returns;
whether it succeeds, and the search record afterwards. -/
def dlLookupAddress (exe : String) (modules : List DlPhdrInfo) (dl : DlAddressSearch) :
    Bool × DlAddressSearch :=
  let dl := { dl with filename := none, base := 0#64 }
  let dl := modules.foldl (fun dl info => dlMatchAddress info dl) dl
  match dl.filename with
  | none => (false, dl)
  | some filename => (true, { dl with filename := some (if filename.isEmpty then exe else filename) })

theorem dlMatchAddress_address (info : DlPhdrInfo) (dl : DlAddressSearch) :
    (dlMatchAddress info dl).address = dl.address := by
  unfold dlMatchAddress
  induction info.phdr generalizing dl with
  | nil => rfl
  | cons phdr phdrs ih =>
    rw [List.foldl_cons, ih]
    dsimp only
    split <;> rfl

theorem foldl_dlMatchAddress_address (modules : List DlPhdrInfo) (dl : DlAddressSearch) :
    (modules.foldl (fun dl info => dlMatchAddress info dl) dl).address = dl.address := by
  induction modules generalizing dl with
  | nil => rfl
  | cons info modules ih => rw [List.foldl_cons, ih, dlMatchAddress_address]

/-- A lookup that succeeds has stored a file name. -/
theorem dlLookupAddress_found {exe : String} {modules : List DlPhdrInfo} {dl dl' : DlAddressSearch}
    (h : dlLookupAddress exe modules dl = (true, dl')) :
    dl'.address = dl.address ∧ ∃ filename, dl'.filename = some filename := by
  unfold dlLookupAddress at h
  dsimp only at h
  split at h
  next => simp at h
  next filename hfilename =>
    simp only [Prod.mk.injEq, true_and] at h
    rw [← h]
    exact ⟨foldl_dlMatchAddress_address modules _, _, rfl⟩

end DcPerf.Backtrace
