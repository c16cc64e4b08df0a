import DcPerf.Backtrace.Expansion

/-!
# Call sites and lookups

A return address stands for the call just before it. The section of the call is the one that contains
the address of the call, and each line that is recorded for it says what one lookup has stored.
-/

namespace DcPerf.Backtrace

/-! ## Sections -/

/-- No address is in both sections. -/
def Section.Disjoint (s t : Section) : Prop := ∀ address, ¬(s.Contains address ∧ t.Contains address)

/-- The sections are allocated side by side in the address space. -/
structure LaidOut (sections : List Section) : Prop where
  alloc : ∀ s ∈ sections, s.alloc = true
  ends : ∀ s ∈ sections, s.vma.toNat + s.size.toNat < 2 ^ 64
  disjoint : sections.Pairwise Section.Disjoint

/-- The first query is for the call at `address`, in its section. -/
def AsksForCall (asked : List LineQuery) (section_ : Section) (address : Address) : Prop :=
  asked.head? = some (.nearest section_ (address - section_.vma)) ∧
    address - section_.vma < section_.size

/-! ## Lookups -/

/-- The lookup for the line of the call, when the section is searched. -/
def callLookup (file : BacktraceFile) (backoff : ℤ) (section_ : Section) : LineQuery :=
  .nearest section_ (file.dl.address - file.dl.base - section_.vma - BitVec.ofInt 64 backoff)

/-- The place, among the queries for an address, of the lookup for its `i`-th line: the first query is
the one for the line of the call, the second only moves to the original address, and those after it
are for the inliners. -/
def lineLookup (i : ℕ) : ℕ := if i = 0 then 0 else i + 1

/-- Every line that the search has recorded has what its own lookup has stored, and this lookup
reported success. -/
def LinesLookedUp (bfd : BfdAnswers) (address : Address) (s : Search) : Prop :=
  ∀ i : ℕ, (i : ℤ) < s.count → ∃ info,
    bfd.lines (s.asked.take (lineLookup i + 1)) = .found info ∧
      (s.buf.at (s.base + i)).map BacktraceLine.toRecord = some (info.toRecord address)

end DcPerf.Backtrace
