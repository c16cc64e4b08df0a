import DcPerf.Backtrace.Loader
import DcPerf.Library.Lifetimes

/-!
# The use of BFD in `backtrace.c`

What BFD answers for one address is a record: every call of the library may succeed or fail as its
interface allows, and line queries are answered by any function of the queries so far. `load_file`
and `unload_file` open and close a file and read and free its symbol table.
-/

namespace DcPerf.Backtrace

open DcPerf.Library

/-! ## What BFD answers -/

/-- The values that a line query stores. -/
structure LineInfo where
  filename : Option String
  function : Option String
  lineno : BitVec 32
  deriving DecidableEq

/-- `asection`, with the flag `SEC_ALLOC`. -/
structure Section where
  id : ℕ
  alloc : Bool
  vma : Address
  size : Address
  deriving DecidableEq

inductive LineQuery where
  /-- `bfd_find_nearest_line` -/
  | nearest (section_ : Section) (offset : Address)
  /-- `bfd_find_inliner_info` -/
  | inliner
  deriving DecidableEq

/-- A query that fails may leave its outputs untouched. -/
inductive LineAnswer where
  | found (info : LineInfo)
  | notFound (stored : Option LineInfo)
  deriving DecidableEq

/-- A read of the symbol table: an array is stored when the count is positive, none when it is
negative. -/
structure MinisymbolsAnswer where
  count : ℤ
  stored : Bool
  pos : 0 < count → stored = true
  neg : count < 0 → stored = false

/-- A table without symbols, for which nothing is stored. -/
def MinisymbolsAnswer.nothing : MinisymbolsAnswer :=
  ⟨0, false, fun h => absurd h (Int.lt_irrefl 0), fun _ => rfl⟩

/-- The answers of BFD for one file. -/
structure BfdAnswers where
  /-- `bfd_openr` returns a handle. -/
  opened : Bool
  /-- `bfd_check_format` with `bfd_archive` -/
  archive : Bool
  /-- `bfd_check_format_matches` with `bfd_object` -/
  object : Bool
  /-- The file flag `HAS_SYMS`. -/
  hasSyms : Bool
  /-- `bfd_read_minisymbols` of the static and of the dynamic table. -/
  static : MinisymbolsAnswer
  dynamic : MinisymbolsAnswer
  /-- The sections in the order of `bfd_map_over_sections`. -/
  sections : List Section
  /-- The answer to the last of a list of line queries. -/
  lines : List LineQuery → LineAnswer

/-- One return address of the stack, with what the loader and BFD answer for it. -/
structure Frame where
  address : Address
  modules : List DlPhdrInfo
  bfd : BfdAnswers
  /-- What the three output variables hold before anything is stored in them. -/
  garbage : LineInfo

/-- The module of the address. -/
def Frame.lookup (exe : String) (frame : Frame) : Bool × DlAddressSearch :=
  dlLookupAddress exe frame.modules ⟨frame.address, none, 0#64⟩

/-- The number of symbols that `load_file` goes by. -/
def BfdAnswers.symcount (bfd : BfdAnswers) : ℤ :=
  if bfd.static.count = 0 then bfd.dynamic.count else bfd.static.count

/-- The file is an object file and its symbols can be read. -/
def BfdAnswers.isLoaded (bfd : BfdAnswers) : Bool :=
  bfd.opened && !bfd.archive && bfd.object && bfd.hasSyms && 0 ≤ bfd.symcount

/-! ## Resources -/

/-- The file handle that is opened for the `n`-th address, and the symbol arrays that are stored for
it by the static and the dynamic read. -/
inductive Res where
  | bfd (n : ℕ)
  | syms (n : ℕ) (dynamic : Bool)
  deriving DecidableEq

/-- `struct backtrace_file`; a pointer is null or names a resource. -/
structure BacktraceFile where
  dl : DlAddressSearch
  abfd : Option Res
  syms : Option Res
  deriving DecidableEq

/-- Passing a pointer to BFD uses what it points to. -/
def usePtr (p : Option Res) : List (Use Res) :=
  match p with
  | some r => [.use r]
  | none => []

/-- `free` or `bfd_close` of a pointer; nothing happens to a null pointer. -/
def releasePtr (p : Option Res) : List (Use Res) :=
  match p with
  | some r => [.release r]
  | none => []

/-- The state of `load_file`: the file and what was done with resources so far. -/
structure Loading where
  file : BacktraceFile
  log : List (Use Res)

/-- `bfd_read_minisymbols` into `file->syms`. -/
def readMinisymbols (n : ℕ) (dynamic : Bool) (answer : MinisymbolsAnswer) (s : Loading) : Loading :=
  if answer.stored = true then
    { file := { s.file with syms := some (.syms n dynamic) },
      log := s.log ++ usePtr s.file.abfd ++ [.acquire (.syms n dynamic)] }
  else
    { s with log := s.log ++ usePtr s.file.abfd }

/-- `free(file->syms)`: the pointer keeps its value. -/
def freeSyms (s : Loading) : Loading := { s with log := s.log ++ releasePtr s.file.syms }

/-- `bfd_close(file->abfd)` -/
def closeBfd (s : Loading) : Loading := { s with log := s.log ++ releasePtr s.file.abfd }

/-- A call of BFD that only looks at the file. -/
def askBfd (s : Loading) : Loading := { s with log := s.log ++ usePtr s.file.abfd }

/-- The part of `load_file` that reads the symbol table. -/
def loadSymbols (n : ℕ) (bfd : BfdAnswers) (s : Loading) : Bool × Loading :=
  let s := readMinisymbols n false bfd.static s
  if bfd.static.count = 0 then
    let s := readMinisymbols n true bfd.dynamic (freeSyms s)
    if bfd.dynamic.count < 0 then (false, closeBfd s) else (true, s)
  else if bfd.static.count < 0 then (false, closeBfd s)
  else (true, s)

/-- `load_file` for the `n`-th address; whether it returns 0. -/
def loadFile (n : ℕ) (bfd : BfdAnswers) (s : Loading) : Bool × Loading :=
  let s := { s with file := { s.file with syms := none } }
  if bfd.opened = true then
    let s : Loading := { file := { s.file with abfd := some (.bfd n) }, log := s.log ++ [.acquire (.bfd n)] }
    let s := askBfd s
    if bfd.archive = true then (false, closeBfd s)
    else
      let s := askBfd s
      if bfd.object = true then
        let s := askBfd s
        if bfd.hasSyms = true then loadSymbols n bfd s
        else (false, closeBfd s)
      else (false, closeBfd s)
  else
    (false, { s with file := { s.file with abfd := none } })

/-- When `load_file` returns 0. -/
theorem loadFile_fst (n : ℕ) (bfd : BfdAnswers) (s : Loading) :
    (loadFile n bfd s).1 = bfd.isLoaded := by
  unfold loadFile BfdAnswers.isLoaded
  by_cases hopened : bfd.opened = true
  · by_cases harchive : bfd.archive = true
    · simp [hopened, harchive]
    · by_cases hobject : bfd.object = true
      · by_cases hsyms : bfd.hasSyms = true
        · simp only [hopened, harchive, hobject, hsyms, loadSymbols, BfdAnswers.symcount]
          by_cases hstatic : bfd.static.count = 0
          · by_cases hdynamic : bfd.dynamic.count < 0 <;> simp [hstatic, hdynamic]
            omega
          · by_cases hneg : bfd.static.count < 0 <;> simp [hstatic, hneg]
            omega
        · simp [hopened, harchive, hobject, hsyms]
      · simp [hopened, harchive, hobject]
  · simp [hopened]

theorem readMinisymbols_dl (n : ℕ) (dynamic : Bool) (answer : MinisymbolsAnswer) (s : Loading) :
    (readMinisymbols n dynamic answer s).file.dl = s.file.dl := by
  unfold readMinisymbols
  split <;> rfl

/-- The search record is left as it is. -/
theorem loadFile_dl (n : ℕ) (bfd : BfdAnswers) (s : Loading) :
    (loadFile n bfd s).2.file.dl = s.file.dl := by
  have hsymbols : ∀ s : Loading, (loadSymbols n bfd s).2.file.dl = s.file.dl := by
    intro s
    unfold loadSymbols
    dsimp only
    split_ifs <;> simp only [closeBfd, freeSyms, readMinisymbols_dl]
  unfold loadFile
  dsimp only
  split_ifs <;> simp only [closeBfd, askBfd, hsymbols]

/-- `unload_file` -/
def unloadFile (s : Loading) : Loading := closeBfd (freeSyms s)

end DcPerf.Backtrace
