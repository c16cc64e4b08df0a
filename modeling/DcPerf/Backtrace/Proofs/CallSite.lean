import DcPerf.Backtrace.CallSite
import DcPerf.Backtrace.Proofs.Expansion
import Mathlib.Data.List.Pairwise

/-!
# Call sites and lookups: where the first query goes, and which lines it decides
-/

namespace DcPerf.Backtrace

open DcPerf.Library

variable {bfd : BfdAnswers} {file : BacktraceFile} {section_ : Section} {address : Address}
  {locals garbage : LineInfo} {s : Search} {buf : Buffer} {backoff base max : ℤ}
  {log : List (Use Res)}

/-! ## One search -/

/-- The search before the sections are looked at. -/
def searchStart (file : BacktraceFile) (backoff : ℤ) (buf : Buffer) (base max : ℤ)
    (log : List (Use Res)) : Search where
  count := 0
  backoff := backoff
  base := base
  maxLines := max
  buf := buf
  asked := []
  log := log ++ usePtr file.abfd

/-- The loop finds a line. -/
theorem lineLoop_count_pos (h : 0 ≤ s.count) :
    0 < (lineLoop bfd file section_ address locals s).count := by
  induction locals, s using lineLoop.induct bfd file section_ address with
  | case1 locals s found locals' s' ht hmore ih =>
    obtain ⟨hcount, -⟩ := lineTurn_count ht
    rw [lineLoop_eq ht, if_pos hmore]
    exact ih (by omega)
  | case2 locals s found locals' s' ht hend =>
    obtain ⟨hcount, -⟩ := lineTurn_count ht
    rw [lineLoop_eq ht, if_neg hend]
    omega

/-- `get_line_info` searches the first section that contains the address, if there is room. -/
theorem getLineInfo_eq (hmax : max ≠ 0) : getLineInfo bfd file garbage backoff buf base max log =
    match bfd.sections.find? (·.Contains (file.dl.address - file.dl.base)) with
    | none => searchStart file backoff buf base max log
    | some section_ => findAddressInSection bfd file garbage
        (searchStart file backoff buf base max log) section_ := by
  show bfd.sections.foldl (findAddressInSection bfd file garbage)
    (searchStart file backoff buf base max log) = _
  induction bfd.sections with
  | nil => rfl
  | cons section_ sections ih =>
    rw [List.foldl_cons]
    by_cases hcontains : section_.Contains (file.dl.address - file.dl.base)
    · have hpos : 0 < (findAddressInSection bfd file garbage
          (searchStart file backoff buf base max log) section_).count := by
        rw [findAddressInSection_contains (Int.le_refl 0) hmax hcontains]
        exact lineLoop_count_pos (Int.le_refl 0)
      rw [List.find?_cons_of_pos (by simpa using hcontains)]
      exact foldl_skip sections (.inl hpos)
    · rw [List.find?_cons_of_neg (by simpa using hcontains),
        findAddressInSection_skip (.inr (.inr hcontains))]
      exact ih

/-- Without room nothing is asked. -/
theorem getLineInfo_full : getLineInfo bfd file garbage backoff buf base 0 log =
    searchStart file backoff buf base 0 log :=
  foldl_skip bfd.sections (.inr rfl)

theorem lineLoop_asked : s.asked <+: (lineLoop bfd file section_ address locals s).asked := by
  induction locals, s using lineLoop.induct bfd file section_ address with
  | case1 locals s found locals' s' ht hmore ih =>
    rw [lineLoop_eq ht, if_pos hmore]
    refine List.IsPrefix.trans ?_ ih
    rw [lineTurn_asked ht, List.append_assoc]
    exact List.prefix_append _ _
  | case2 locals s found locals' s' ht hend =>
    rw [lineLoop_eq ht, if_neg hend, lineTurn_asked ht, List.append_assoc]
    exact List.prefix_append _ _

theorem lineLoop_head {query : LineQuery} (h : s.asked.head? = some query) :
    (lineLoop bfd file section_ address locals s).asked.head? = some query := by
  have hprefix : s.asked <+: (lineLoop bfd file section_ address locals s).asked := lineLoop_asked
  obtain ⟨more, hmore⟩ := hprefix
  rw [← hmore, List.head?_append, h]
  rfl

/-! ## The section of the call -/

/-- The address of the call is just before the return address. -/
theorem toNat_call (h : section_.Contains (address - 1))
    (hend : section_.vma.toNat + section_.size.toNat < 2 ^ 64) :
    (address - 1).toNat + 1 = address.toNat := by
  have hle := ((section_.contains_iff hend).mp h).2.2
  by_cases h0 : address = 0
  · subst h0
    simp at hle
    omega
  · have hpos : address ≠ 0#64 := h0
    bv_omega

/-- The return address is in the section of its call unless the call is the last there. -/
theorem contains_return_iff (h : section_.Contains (address - 1))
    (hend : section_.vma.toNat + section_.size.toNat < 2 ^ 64) :
    section_.Contains address ↔ address ≠ section_.vma + section_.size := by
  have hcall := toNat_call h hend
  obtain ⟨halloc, hlow, hhigh⟩ := (section_.contains_iff hend).mp h
  have hne : address ≠ section_.vma + section_.size ↔
      address.toNat ≠ section_.vma.toNat + section_.size.toNat := by
    rw [Ne, ← BitVec.toNat_inj, BitVec.toNat_add, Nat.mod_eq_of_lt hend]
  rw [section_.contains_iff hend, hne]
  constructor
  · rintro ⟨-, -, hlt⟩
    omega
  · intro hne
    exact ⟨halloc, by omega, by omega⟩

/-- Of sections side by side only one contains an address. -/
theorem LaidOut.eq_of_contains {sections : List Section} (h : LaidOut sections) {t : Section}
    (hs : section_ ∈ sections) (ht : t ∈ sections) (hsa : section_.Contains address)
    (hta : t.Contains address) : section_ = t := by
  by_contra hne
  have hsymm : Std.Symm Section.Disjoint := ⟨fun s t h a ha => h a ha.symm⟩
  exact h.disjoint.forall hs ht hne address ⟨hsa, hta⟩

/-- What the first query of a search is. -/
theorem head_asked (hmax : max ≠ 0) :
    (getLineInfo bfd file garbage backoff buf base max log).asked.head? =
      (bfd.sections.find? (·.Contains (file.dl.address - file.dl.base))).map fun section_ =>
        .nearest section_
          (file.dl.address - file.dl.base - section_.vma - BitVec.ofInt 64 backoff) := by
  rw [getLineInfo_eq hmax]
  cases hfind : bfd.sections.find? (·.Contains (file.dl.address - file.dl.base)) with
  | none => rfl
  | some section_ =>
    have hcontains : section_.Contains (file.dl.address - file.dl.base) := by
      simpa using List.find?_some hfind
    dsimp only
    rw [findAddressInSection_contains (Int.le_refl 0) hmax hcontains]
    exact lineLoop_head rfl

/-- A call is looked for in its section when the return address is in that section too. -/
theorem asksForCall_iff_contains (hl : LaidOut bfd.sections) (hmem : section_ ∈ bfd.sections)
    (hcall : section_.Contains (file.dl.address - file.dl.base - 1)) (hmax : 0 < max) :
    AsksForCall (getLineInfo bfd file garbage 1 buf base max log).asked section_
        (file.dl.address - file.dl.base - 1) ↔
      section_.Contains (file.dl.address - file.dl.base) := by
  have hoffset : file.dl.address - file.dl.base - section_.vma - BitVec.ofInt 64 1 =
      file.dl.address - file.dl.base - 1 - section_.vma := by
    have hone : BitVec.ofInt 64 1 = 1#64 := rfl
    rw [hone]
    bv_omega
  unfold AsksForCall
  rw [head_asked (by omega)]
  constructor
  · rintro ⟨hhead, -⟩
    obtain ⟨t, hfind, hquery⟩ := Option.map_eq_some_iff.mp hhead
    obtain ⟨rfl, -⟩ := LineQuery.nearest.inj hquery
    simpa using List.find?_some hfind
  · intro hcontains
    have hfind : bfd.sections.find? (·.Contains (file.dl.address - file.dl.base)) =
        some section_ := by
      cases hfind : bfd.sections.find? (·.Contains (file.dl.address - file.dl.base)) with
      | none =>
        have hno := List.find?_eq_none.mp hfind section_ hmem
        simp [hcontains] at hno
      | some t =>
        have ht : t.Contains (file.dl.address - file.dl.base) := by
          simpa using List.find?_some hfind
        rw [hl.eq_of_contains (List.mem_of_find?_eq_some hfind) hmem ht hcontains]
    refine ⟨by rw [hfind, Option.map_some, hoffset], ?_⟩
    obtain ⟨-, hlow, hhigh⟩ := (section_.contains_iff (hl.ends _ hmem)).mp hcall
    rw [BitVec.lt_def, BitVec.toNat_sub_of_le (BitVec.le_def.mpr hlow)]
    omega

/-- The first query is for the call, if and only if the return address is not the end of the section of
the call. -/
theorem asksForCall_iff (hl : LaidOut bfd.sections) (hmem : section_ ∈ bfd.sections)
    (hcall : section_.Contains (file.dl.address - file.dl.base - 1)) (hmax : 0 < max) :
    AsksForCall (getLineInfo bfd file garbage 1 buf base max log).asked section_
        (file.dl.address - file.dl.base - 1) ↔
      file.dl.address - file.dl.base ≠ section_.vma + section_.size := by
  rw [asksForCall_iff_contains hl hmem hcall hmax,
    contains_return_iff hcall (hl.ends _ hmem)]

/-! A call at the end -/

/-- A section of which the last instruction is a call. -/
def endingInCall : Section := ⟨1, true, 0x1000#64, 0x100#64⟩

/-- BFD with this section only, and with no line for it. -/
def endingAnswers : BfdAnswers where
  opened := true
  archive := false
  object := true
  hasSyms := true
  static := .nothing
  dynamic := .nothing
  sections := [endingInCall]
  lines := fun _ => .notFound none

/-- The file that is searched for the return address `address`. -/
def fileAt (address : Address) : BacktraceFile := ⟨⟨address, some "a.out", 0#64⟩, none, none⟩

theorem laidOut_endingAnswers : LaidOut endingAnswers.sections := by
  refine ⟨?_, ?_, by simp [endingAnswers]⟩
  · intro s hs
    rw [List.mem_singleton.mp hs]
    rfl
  · intro s hs
    rw [List.mem_singleton.mp hs]
    decide

/-- One instruction before the end the call is looked for. -/
theorem asksForCall_inside :
    AsksForCall (getLineInfo endingAnswers (fileAt 0x10ff#64) ⟨none, none, 0#32⟩ 1 .empty 0 64 []).asked
      endingInCall 0x10fe#64 :=
  (asksForCall_iff laidOut_endingAnswers List.mem_cons_self (by decide) (by decide)).mpr (by decide)

/-- The return address of a call at the end is in no section, and nothing is asked. -/
theorem not_asksForCall_end :
    LaidOut endingAnswers.sections ∧ endingInCall ∈ endingAnswers.sections ∧
      endingInCall.Contains (0x1100#64 - 1) ∧
      ¬AsksForCall
        (getLineInfo endingAnswers (fileAt 0x1100#64) ⟨none, none, 0#32⟩ 1 .empty 0 64 []).asked
        endingInCall (0x1100#64 - 1) := by
  refine ⟨laidOut_endingAnswers, List.mem_cons_self, by decide, ?_⟩
  rintro ⟨hhead, -⟩
  rw [head_asked (by decide)] at hhead
  revert hhead
  decide

/-! ## Lookups -/

/-- The queries before the `k`-th line is recorded; from the second line on, the last of them is the
lookup of this line. -/
def Ready (bfd : BfdAnswers) (k : ℕ) (locals : LineInfo) (asked : List LineQuery) : Prop :=
  (k = 0 ∧ asked.length = 1) ∨ (0 < k ∧ asked.length = k + 2 ∧ bfd.lines asked = .found locals)

/-- From the second line on, every line is what its lookup has stored. -/
def InlinersLookedUp (bfd : BfdAnswers) (address : Address) (new : List Record)
    (asked : List LineQuery) : Prop :=
  ∀ i, 0 < i → ∀ r, new[i]? = some r → ∃ info,
    bfd.lines (asked.take (lineLookup i + 1)) = .found info ∧ r = info.toRecord address

variable {new rs : List Record} {found : Bool} {locals' : LineInfo} {s' : Search}

/-- An inliner that is found is in the output variables. -/
theorem lineTurn_found
    (ht : lineTurn bfd file section_ address locals s = (true, locals', s')) :
    bfd.lines s'.asked = .found locals' := by
  obtain ⟨hanswer, l, hlocals⟩ : (bfd.lines s'.asked).isFound = true ∧
      ∃ l, locals' = (bfd.lines s'.asked).store l := by
    obtain ⟨hfound, rfl, rfl⟩ : true = (lineTurn bfd file section_ address locals s).1 ∧
        locals' = (lineTurn bfd file section_ address locals s).2.1 ∧
        s' = (lineTurn bfd file section_ address locals s).2.2 := by
      rw [ht]
      exact ⟨rfl, rfl, rfl⟩
    exact ⟨hfound.symm, _, rfl⟩
  cases h : bfd.lines s'.asked with
  | found info =>
    rw [h] at hlocals
    rw [hlocals]
    rfl
  | notFound stored =>
    rw [h] at hanswer
    cases hanswer

theorem length_asked_turn (h : Searching rs s new) (hready : Ready bfd new.length locals s.asked)
    (ht : lineTurn bfd file section_ address locals s = (found, locals', s')) :
    s'.asked.length = new.length + 3 := by
  have hcount := h.count
  rw [lineTurn_asked ht, List.length_append, List.length_append, List.length_singleton]
  rcases hready with ⟨h0, hlen⟩ | ⟨hpos, hlen, -⟩
  · rw [if_pos (by omega), List.length_singleton]
    omega
  · rw [if_neg (by omega), List.length_nil]
    omega

theorem ready_turn (h : Searching rs s new) (hready : Ready bfd new.length locals s.asked)
    (ht : lineTurn bfd file section_ address locals s = (true, locals', s')) :
    Ready bfd (new.length + 1) locals' s'.asked :=
  .inr ⟨by omega, length_asked_turn h hready ht, lineTurn_found ht⟩

/-- The line that a turn records is looked up. -/
theorem inlinersLookedUp_turn (hready : Ready bfd new.length locals s.asked)
    (hin : InlinersLookedUp bfd address new s.asked)
    (ht : lineTurn bfd file section_ address locals s = (found, locals', s')) :
    InlinersLookedUp bfd address (new ++ [locals.toRecord address]) s'.asked := by
  intro i hi r hr
  have hlt : i < new.length + 1 := by
    have hlen := (List.getElem?_eq_some_iff.mp hr).1
    simpa using hlen
  -- A line after the first has two queries more before it than there are lines.
  obtain ⟨-, hlen, hfound⟩ := hready.resolve_left (by omega)
  have htake : s'.asked.take (lineLookup i + 1) = s.asked.take (lineLookup i + 1) := by
    rw [lineTurn_asked ht, List.append_assoc, List.take_append_of_le_length]
    unfold lineLookup
    rw [if_neg (by omega)]
    omega
  rw [htake]
  by_cases hold : i < new.length
  · rw [List.getElem?_append_left hold] at hr
    exact hin i hi r hr
  · obtain rfl : i = new.length := by omega
    rw [List.getElem?_append_right (Nat.le_refl _), Nat.sub_self] at hr
    refine ⟨locals, ?_, (Option.some.inj hr).symm⟩
    unfold lineLookup
    rw [if_neg (by omega), List.take_of_length_le (by omega)]
    exact hfound

/-- The loop records the output variables, and then lines that are looked up. -/
theorem looked_loop (h : Searching rs s new) (hlt : s.count < s.maxLines)
    (hready : Ready bfd new.length locals s.asked)
    (hin : InlinersLookedUp bfd address new s.asked) :
    ∃ more, Searching rs (lineLoop bfd file section_ address locals s)
        (new ++ locals.toRecord address :: more) ∧
      InlinersLookedUp bfd address (new ++ locals.toRecord address :: more)
        (lineLoop bfd file section_ address locals s).asked := by
  induction locals, s using lineLoop.induct bfd file section_ address generalizing new with
  | case1 locals s found locals' s' ht hmore ih =>
    obtain ⟨rfl, hroom⟩ := hmore
    rw [lineLoop_eq ht, if_pos ⟨rfl, hroom⟩]
    have hready' := ready_turn h hready ht
    rw [← List.length_singleton (a := locals.toRecord address), ← List.length_append] at hready'
    obtain ⟨more, hloop⟩ := ih (searching_turn h hlt ht) hroom hready'
      (inlinersLookedUp_turn hready hin ht)
    rw [List.append_assoc] at hloop
    exact ⟨_, hloop⟩
  | case2 locals s found locals' s' ht hend =>
    rw [lineLoop_eq ht, if_neg hend]
    exact ⟨[], searching_turn h hlt ht, inlinersLookedUp_turn hready hin ht⟩

/-- What is in the buffer from `base` on. -/
theorem Searching.at_base (h : Searching rs s new) {i : ℕ} (hi : (i : ℤ) < s.count) :
    (s.buf.at (s.base + i)).map BacktraceLine.toRecord = new[i]? := by
  have hcount := h.count
  have hlt : rs.length + i < (rs ++ new).length := by
    rw [List.length_append]
    omega
  obtain ⟨ln, hln⟩ := h.filled.filled _ hlt
  have hat : s.buf.at (s.base + i) = some ln := by
    unfold Buffer.at
    rw [h.base, if_pos (by omega)]
    have hnat : ((rs.length : ℤ) + i).toNat = rs.length + i := by omega
    rw [hnat, hln.entry]
    rfl
  rw [hat, Option.map_some, hln.record, List.getElem_append_right (by omega), eq_comm,
    List.getElem?_eq_some_iff]
  exact ⟨by omega, by congr 1; omega⟩

/-- What the first lookup leaves in the output variables. -/
def firstInfo (bfd : BfdAnswers) (garbage : LineInfo) (query : LineQuery) : LineInfo :=
  (bfd.lines [query]).store garbage

/-- What is recorded for an address that is searched. -/
theorem looked_section (h : Filled buf rs) (hroom : rs.length < backtraceMax)
    (hcontains : section_.Contains (file.dl.address - file.dl.base)) :
    ∃ more, Searching rs
        (findAddressInSection bfd file garbage
          (searchStart file backoff buf rs.length (backtraceMax - rs.length) log) section_)
        ((firstInfo bfd garbage (callLookup file backoff section_)).toRecord
          (file.dl.address - file.dl.base) :: more) ∧
      InlinersLookedUp bfd (file.dl.address - file.dl.base)
        ((firstInfo bfd garbage (callLookup file backoff section_)).toRecord
          (file.dl.address - file.dl.base) :: more)
        (findAddressInSection bfd file garbage
          (searchStart file backoff buf rs.length (backtraceMax - rs.length) log) section_).asked := by
  have hmax : (backtraceMax : ℤ) - rs.length ≠ 0 := by omega
  rw [findAddressInSection_contains (Int.le_refl 0) hmax hcontains]
  have hstart : Searching rs
      (searchStart file backoff buf rs.length (backtraceMax - rs.length) log) [] :=
    searching_start h backoff (log ++ usePtr file.abfd)
  have hasked : Searching rs (Search.ask file _ (callLookup file backoff section_)) [] :=
    searching_ask hstart (by simp [callLookup])
  refine looked_loop hasked ?_ (.inl ⟨rfl, rfl⟩) ?_
  · show (0 : ℤ) < backtraceMax - rs.length
    omega
  · intro i hi r hr
    simp at hr

/-- The lines are looked up as soon as the first one is. -/
theorem linesLookedUp_iff_first {query : LineQuery} {more : List Record}
    (hs : Searching rs s ((firstInfo bfd garbage query).toRecord address :: more))
    (hin : InlinersLookedUp bfd address ((firstInfo bfd garbage query).toRecord address :: more)
      s.asked)
    (hhead : s.asked.head? = some query) :
    LinesLookedUp bfd address s ↔ (bfd.lines [query]).isFound = true := by
  have hcount := hs.count
  rw [List.length_cons] at hcount
  have htake : s.asked.take (lineLookup 0 + 1) = [query] := by
    obtain ⟨rest, hrest⟩ := List.head?_eq_some_iff.mp hhead
    rw [hrest]
    rfl
  constructor
  · intro h
    obtain ⟨info, hfound, -⟩ := h 0 (by omega)
    rw [htake] at hfound
    rw [hfound]
    rfl
  · intro hfound i hi
    rw [hs.at_base hi]
    cases i with
    | zero =>
      rw [htake]
      unfold firstInfo
      cases hanswer : bfd.lines [query] with
      | found info => exact ⟨info, rfl, rfl⟩
      | notFound stored =>
        rw [hanswer] at hfound
        cases hfound
    | succ i =>
      have hlt : i < more.length := by omega
      have hr : ((firstInfo bfd garbage query).toRecord address :: more)[i + 1]? =
          some (more.get ⟨i, hlt⟩) := by simp
      obtain ⟨info, hfound, hrecord⟩ := hin (i + 1) (Nat.succ_pos i) _ hr
      exact ⟨info, hfound, by rw [hr, hrecord]⟩

/-- A search that finds nothing has no line to answer for. -/
theorem linesLookedUp_start :
    LinesLookedUp bfd address (searchStart file backoff buf base max log) := by
  intro i hi
  have hzero : (searchStart file backoff buf base max log).count = 0 := rfl
  omega

/-- The lines of an address are what their lookups have stored, if and only if no section is searched or
the first lookup succeeds in the one that is. -/
theorem linesLookedUp_iff (h : Filled buf rs) :
    LinesLookedUp bfd (file.dl.address - file.dl.base)
        (getLineInfo bfd file garbage backoff buf rs.length (backtraceMax - rs.length) log) ↔
      ∀ section_,
        bfd.sections.find? (·.Contains (file.dl.address - file.dl.base)) = some section_ →
          rs.length < backtraceMax →
            (bfd.lines [callLookup file backoff section_]).isFound = true := by
  by_cases hroom : rs.length < backtraceMax
  · have hmax : (backtraceMax : ℤ) - rs.length ≠ 0 := by omega
    rw [getLineInfo_eq hmax]
    cases hfind : bfd.sections.find? (·.Contains (file.dl.address - file.dl.base)) with
    | none => simp [linesLookedUp_start]
    | some section_ =>
      have hcontains : section_.Contains (file.dl.address - file.dl.base) := by
        simpa using List.find?_some hfind
      obtain ⟨more, hs, hin⟩ := looked_section h hroom hcontains
      have hhead : (findAddressInSection bfd file garbage
          (searchStart file backoff buf rs.length (backtraceMax - rs.length) log)
          section_).asked.head? = some (callLookup file backoff section_) := by
        rw [findAddressInSection_contains (Int.le_refl 0) hmax hcontains]
        exact lineLoop_head rfl
      simpa [hroom] using linesLookedUp_iff_first hs hin hhead
  · have hle := h.le
    have hzero : (backtraceMax : ℤ) - rs.length = 0 := by omega
    rw [hzero, getLineInfo_full]
    simp [linesLookedUp_start, hroom]

/-! A lookup that fails -/

/-- The only lookup succeeds, and there is no inliner. -/
def lookedUpAnswers : BfdAnswers :=
  { endingAnswers with
    lines := fun asked => if asked.length < 3 then .found ⟨some "a.c", none, 7#32⟩ else .notFound none }

theorem linesLookedUp_one :
    LinesLookedUp lookedUpAnswers 0x1010#64
      (getLineInfo lookedUpAnswers (fileAt 0x1010#64) ⟨none, none, 0#32⟩ 1 .empty 0 64 []) := by
  refine (linesLookedUp_iff filled_empty).mpr ?_
  intro section_ _ _
  rfl

/-- The lookup fails and stores nothing: what the variables held before is recorded as the line. -/
theorem not_linesLookedUp_garbage :
    ¬LinesLookedUp endingAnswers 0x1010#64
      (getLineInfo endingAnswers (fileAt 0x1010#64) ⟨some "b.c", some "other", 9#32⟩ 1 .empty 0 64
        []) := by
  intro h
  have hpos : ((0 : ℕ) : ℤ) < (getLineInfo endingAnswers (fileAt 0x1010#64)
      ⟨some "b.c", some "other", 9#32⟩ 1 .empty 0 64 []).count := by
    rw [getLineInfo_eq (by decide)]
    have hfind : endingAnswers.sections.find? (·.Contains ((fileAt 0x1010#64).dl.address -
        (fileAt 0x1010#64).dl.base)) = some endingInCall := by decide
    rw [hfind]
    dsimp only
    rw [findAddressInSection_contains (Int.le_refl 0) (by decide) (by decide)]
    exact lineLoop_count_pos (Int.le_refl 0)
  obtain ⟨info, hfound, -⟩ := h 0 hpos
  cases hfound

end DcPerf.Backtrace
