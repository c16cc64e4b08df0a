import DcPerf.Backtrace.Print
import DcPerf.Library.Sequences

/-!
# The expanded stack

What a backtrace is for: every return address stands for a sequence of records, the line of the call
followed by the functions that it is inlined into, and the backtrace shows the beginning of what they
make together. The number of records of an address is not limited here.
-/

namespace DcPerf.Backtrace

open DcPerf.Library
open Stream' (Seq)

/-- What a line says, without the places of its strings on the heap. -/
structure Record where
  address : Address
  file : String
  function : String
  lineno : BitVec 32
  deriving DecidableEq

/-- What a line of the buffer says. -/
def BacktraceLine.toRecord (ln : BacktraceLine) : Record :=
  ⟨ln.address, ln.file.text, ln.function.text, ln.lineno⟩

/-- The record of the answer to a line query. -/
def LineInfo.toRecord (address : Address) (info : LineInfo) : Record :=
  ⟨address, info.filename.getD "???", info.function.getD "???", info.lineno⟩

/-! ## Answers that depend on the file, the section, the offset and the position only -/

/-- The lines of a file: the nearest line of an offset in a section, and the `k`-th inliner after a
query at the offset. -/
structure LineOracle where
  nearest : Section → Address → LineInfo
  inliner : Section → Address → ℕ → Option LineInfo

/-- Line queries are answered by the oracle, and every nearest-line query succeeds. -/
structure LineOracle.Answers (o : LineOracle) (lines : List LineQuery → LineAnswer) : Prop where
  nearest : ∀ asked section_ offset,
    lines (asked ++ [.nearest section_ offset]) = .found (o.nearest section_ offset)
  inliner : ∀ asked section_ offset k info, o.inliner section_ offset k = some info →
    lines (asked ++ [.nearest section_ offset] ++ List.replicate (k + 1) .inliner) = .found info
  noInliner : ∀ asked section_ offset k, o.inliner section_ offset k = none →
    ∃ stored, lines (asked ++ [.nearest section_ offset] ++ List.replicate (k + 1) .inliner) =
      .notFound stored

/-! ## Expansion -/

/-- The file and the load address of the module of the address, if there is one. -/
def Frame.module? (exe : String) (frame : Frame) : Option (String × Address) :=
  match frame.lookup exe with
  | (true, dl) => dl.filename.map (·, dl.base)
  | (false, _) => none

/-- The section is allocated and the address is in it. The end of a section is a 64-bit word. -/
def Section.Contains (section_ : Section) (address : Address) : Prop :=
  section_.alloc = true ∧ section_.vma ≤ address ∧ address < section_.vma + section_.size

instance (section_ : Section) (address : Address) : Decidable (section_.Contains address) := by
  unfold Section.Contains
  infer_instance

/-- In a section that ends within the address space these are the addresses between its ends. -/
theorem Section.contains_iff {section_ : Section} {address : Address}
    (h : section_.vma.toNat + section_.size.toNat < 2 ^ 64) :
    section_.Contains address ↔ section_.alloc = true ∧ section_.vma.toNat ≤ address.toNat ∧
      address.toNat < section_.vma.toNat + section_.size.toNat := by
  unfold Section.Contains
  rw [BitVec.le_def, BitVec.lt_def, BitVec.toNat_add, Nat.mod_eq_of_lt h]

/-- The line of the call is searched just before the return address, the inliners at it. -/
def LineOracle.expansion (o : LineOracle) (section_ : Section) (address : Address) : Seq Record :=
  Seq.cons ((o.nearest section_ (address - section_.vma - 1#64)).toRecord address)
    (elements (fun k => (o.inliner section_ (address - section_.vma) k).map
      (LineInfo.toRecord address)) 0)

/-- The first section that contains the address is expanded. -/
def LineOracle.expansionIn (o : LineOracle) (sections : List Section) (address : Address) :
    Seq Record :=
  match sections.find? (·.Contains address) with
  | some section_ => o.expansion section_ address
  | none => Seq.nil

/-- The records that a return address stands for. -/
def expansion (exe : String) (oracle : String → LineOracle) (frame : Frame) : Seq Record :=
  match frame.module? exe with
  | some (filename, base) =>
    if frame.bfd.isLoaded = true then
      (oracle filename).expansionIn frame.bfd.sections (frame.address - base)
    else
      Seq.nil
  | none => Seq.nil

/-- The line queries in the module of the address are answered by the oracle for its file. -/
def Answered (exe : String) (oracle : String → LineOracle) (frame : Frame) : Prop :=
  ∀ filename base, frame.module? exe = some (filename, base) →
    (oracle filename).Answers frame.bfd.lines

/-- The whole stack. -/
def expandedStack (exe : String) (oracle : String → LineOracle) (frames : List Frame) : Seq Record :=
  concat (frames.map (expansion exe oracle))

/-- The records that are printed: of the first 64 those from index `strip` on that are not excluded. -/
def printedRecords (exe : String) (oracle : String → LineOracle) (frames : List Frame)
    (strip : ℤ) : List Record :=
  (((expandedStack exe oracle frames).take backtraceMax).drop strip.toNat).filter
    fun r => !debugBacktraceIsExcluded r.function

/-- How a record is printed; where its strings are does not matter. -/
def Record.text (n : ℕ) (r : Record) : String :=
  lineText n ⟨r.address, ⟨0, r.file⟩, ⟨0, r.function⟩, r.lineno⟩

end DcPerf.Backtrace
