import DcPerf.Backtrace.Proofs.Capacity

/-!
# A backtrace shows the expanded stack

The loop of one address records the line of the call and then one inliner after the other, which is the
expansion of the address as far as there is room. The addresses fill the buffer one after another with
the beginning of the expanded stack, and printing walks over it from index `strip` on.
-/

namespace DcPerf.Backtrace

open DcPerf.Library
open Stream' (Seq)

variable {o : LineOracle} {bfd : BfdAnswers} {file : BacktraceFile} {section_ : Section}
  {address offset : Address} {locals locals' garbage : LineInfo} {found : Bool} {s s' : Search}
  {rs new : List Record} {asked : List LineQuery} {k : ℕ}

/-! ## The inliners of one address -/

/-- The queries end with one at the offset and `k` for inliners after it. -/
def AskedInliners (section_ : Section) (offset : Address) (k : ℕ) (asked : List LineQuery) : Prop :=
  ∃ pre, asked = pre ++ [.nearest section_ offset] ++ List.replicate k .inliner

theorem askedInliners_zero (asked : List LineQuery) (section_ : Section) (offset : Address) :
    AskedInliners section_ offset 0 (asked ++ [.nearest section_ offset]) :=
  ⟨asked, by simp⟩

theorem AskedInliners.succ (h : AskedInliners section_ offset k asked) :
    AskedInliners section_ offset (k + 1) (asked ++ [.inliner]) := by
  obtain ⟨pre, rfl⟩ := h
  refine ⟨pre, ?_⟩
  rw [List.replicate_succ', ← List.append_assoc]

/-- What the query for the `k`-th inliner returns and leaves in the output variables. -/
def Reports (o : LineOracle) (section_ : Section) (offset : Address) (k : ℕ) (found : Bool)
    (locals : LineInfo) : Prop :=
  match o.inliner section_ offset k with
  | some info => found = true ∧ locals = info
  | none => found = false

theorem LineOracle.Answers.reports (ho : o.Answers bfd.lines)
    (h : AskedInliners section_ offset (k + 1) asked) (locals : LineInfo) :
    Reports o section_ offset k (bfd.lines asked).isFound ((bfd.lines asked).store locals) := by
  obtain ⟨pre, rfl⟩ := h
  unfold Reports
  cases hinliner : o.inliner section_ offset k with
  | none =>
    obtain ⟨stored, hlines⟩ := ho.noInliner pre section_ offset k hinliner
    rw [hlines]
    rfl
  | some info =>
    rw [ho.inliner pre section_ offset k info hinliner]
    exact ⟨rfl, rfl⟩

/-- Before a turn either no line has been recorded, or `k` inliners were asked for. -/
def Turning (section_ : Section) (offset : Address) (k : ℕ) (s : Search) : Prop :=
  s.count = 0 ∧ k = 0 ∨ 0 < s.count ∧ AskedInliners section_ offset k s.asked

/-- A turn asks for the `k`-th inliner. -/
theorem lineTurn_reports (ho : o.Answers bfd.lines)
    (hturning : Turning section_ (address - section_.vma) k s)
    (ht : lineTurn bfd file section_ address locals s = (found, locals', s')) :
    AskedInliners section_ (address - section_.vma) (k + 1) s'.asked ∧
      Reports o section_ (address - section_.vma) k found locals' := by
  obtain ⟨rfl, rfl, rfl⟩ : found = (lineTurn bfd file section_ address locals s).1 ∧
      locals' = (lineTurn bfd file section_ address locals s).2.1 ∧
      s' = (lineTurn bfd file section_ address locals s).2.2 := by
    rw [ht]
    exact ⟨rfl, rfl, rfl⟩
  unfold lineTurn
  rcases hturning with ⟨hfirst, rfl⟩ | ⟨hpos, hasked⟩
  · simp only [hfirst, decide_true, if_true]
    have hnext := (askedInliners_zero s.asked section_ (address - section_.vma)).succ
    exact ⟨hnext, ho.reports hnext _⟩
  · have hne : ¬s.count = 0 := by omega
    simp only [hne, decide_false, Bool.false_eq_true, if_false]
    exact ⟨hasked.succ, ho.reports hasked.succ _⟩

/-- The records of the inliners from the `k`-th on. -/
def LineOracle.inlined (o : LineOracle) (section_ : Section) (address : Address) (k : ℕ) :
    Seq Record :=
  elements (fun k => (o.inliner section_ (address - section_.vma) k).map
    (LineInfo.toRecord address)) k

/-- The loop records the output variables and the inliners after them, as far as there is room. -/
theorem searching_lineLoop (ho : o.Answers bfd.lines) (h : Searching rs s new)
    (hlt : s.count < s.maxLines) (hturning : Turning section_ (address - section_.vma) k s) :
    Searching rs (lineLoop bfd file section_ address locals s)
      (fill s.maxLines.toNat (new ++ [locals.toRecord address]) (o.inlined section_ address k)) := by
  induction locals, s using lineLoop.induct bfd file section_ address generalizing new k with
  | case1 locals s found locals' s' ht hmore ih =>
    obtain ⟨hasked, hreports⟩ := lineTurn_reports ho hturning ht
    obtain ⟨hcount, hmax⟩ := lineTurn_count ht
    have hturn := searching_turn h hlt ht
    have hpos : 0 < s'.count := by
      rw [hturn.count, List.length_append, List.length_singleton]
      omega
    have hloop := ih hturn hmore.2 (.inr ⟨hpos, hasked⟩)
    unfold Reports at hreports
    cases hinliner : o.inliner section_ (address - section_.vma) k with
    | none =>
      rw [hinliner] at hreports
      exact absurd hmore.1 (by simp [hreports])
    | some info =>
      rw [hinliner] at hreports
      obtain ⟨-, rfl⟩ := hreports
      have hsome : o.inlined section_ address k =
          Seq.cons (locals'.toRecord address) (o.inlined section_ address (k + 1)) :=
        elements_some (by simp [hinliner])
      have hroom : (new ++ [locals.toRecord address]).length < s.maxLines.toNat := by
        have hlen := hturn.count
        have hmore' := hmore.2
        omega
      rw [lineLoop_eq ht, if_pos hmore, hsome, fill_cons hroom, ← hmax]
      exact hloop
  | case2 locals s found locals' s' ht hend =>
    obtain ⟨-, hreports⟩ := lineTurn_reports ho hturning ht
    obtain ⟨hcount, hmax⟩ := lineTurn_count ht
    have hturn := searching_turn h hlt ht
    rw [lineLoop_eq ht, if_neg hend]
    by_cases hroom : s'.count < s'.maxLines
    · -- There is room, so it was the last inliner.
      have hnone : o.inlined section_ address k = Seq.nil := by
        apply elements_none
        unfold Reports at hreports
        cases hinliner : o.inliner section_ (address - section_.vma) k with
        | none => rfl
        | some info =>
          rw [hinliner] at hreports
          exact absurd ⟨hreports.1, hroom⟩ hend
      rw [hnone, fill_nil]
      exact hturn
    · have hfull : s.maxLines.toNat ≤ (new ++ [locals.toRecord address]).length := by
        have hlen := hturn.count
        omega
      rw [fill_full hfull]
      exact hturn

/-! ## The section of an address -/

/-- A section that does not contain the address, or that comes after the lines were found or when there
is no room, is passed over. -/
theorem findAddressInSection_skip
    (h : 0 < s.count ∨ s.maxLines = 0 ∨ ¬section_.Contains (file.dl.address - file.dl.base)) :
    findAddressInSection bfd file garbage s section_ = s := by
  unfold findAddressInSection
  by_cases hguard : 0 < s.count ∨ s.maxLines = 0 ∨ section_.alloc = false
  · rw [if_pos hguard]
  · rw [if_neg hguard]
    dsimp only
    by_cases hlow : file.dl.address - file.dl.base < section_.vma
    · rw [if_pos hlow]
    · rw [if_neg hlow]
      by_cases hhigh : section_.vma + section_.size ≤ file.dl.address - file.dl.base
      · rw [if_pos hhigh]
      · exfalso
        simp only [not_or, Bool.not_eq_false] at hguard
        obtain ⟨hcount, hmax, halloc⟩ := hguard
        rcases h with h | h | h
        · exact hcount h
        · exact hmax h
        · exact h ⟨halloc, BitVec.not_lt.mp hlow, BitVec.not_le.mp hhigh⟩

/-- The first section that contains the address is searched, just before it for the line of the call. -/
theorem findAddressInSection_contains (hcount : s.count ≤ 0) (hmax : s.maxLines ≠ 0)
    (hcontains : section_.Contains (file.dl.address - file.dl.base)) :
    findAddressInSection bfd file garbage s section_ =
      let query := .nearest section_
        (file.dl.address - file.dl.base - section_.vma - BitVec.ofInt 64 s.backoff)
      lineLoop bfd file section_ (file.dl.address - file.dl.base)
        ((s.answer bfd query).store garbage) (s.ask file query) := by
  obtain ⟨halloc, hlow, hhigh⟩ := hcontains
  have hguard : ¬(0 < s.count ∨ s.maxLines = 0 ∨ section_.alloc = false) := by
    simp [hcount, hmax, halloc]
  unfold findAddressInSection
  rw [if_neg hguard]
  dsimp only
  rw [if_neg (BitVec.not_lt.mpr hlow), if_neg (BitVec.not_le.mpr hhigh)]

/-- A section that contains the address is expanded. -/
theorem searching_contains (ho : o.Answers bfd.lines) (h : Searching rs s []) (hbackoff : s.backoff = 1)
    (hmax : s.maxLines ≠ 0) (hcontains : section_.Contains (file.dl.address - file.dl.base)) :
    Searching rs (findAddressInSection bfd file garbage s section_)
      (fill s.maxLines.toNat [] (o.expansion section_ (file.dl.address - file.dl.base))) := by
  have hcount : s.count = 0 := h.count
  have hle := h.le
  have hpos : ([] : List Record).length < s.maxLines.toNat := by
    rw [List.length_nil]
    omega
  rw [findAddressInSection_contains (by omega) hmax hcontains, hbackoff]
  unfold LineOracle.expansion
  rw [fill_cons hpos]
  have hnearest := ho.nearest s.asked section_
    (file.dl.address - file.dl.base - section_.vma - BitVec.ofInt 64 1)
  have hlocals : (s.answer bfd (.nearest section_
      (file.dl.address - file.dl.base - section_.vma - BitVec.ofInt 64 1))).store garbage =
      o.nearest section_ (file.dl.address - file.dl.base - section_.vma - 1#64) := by
    unfold Search.answer
    rw [hnearest]
    rfl
  dsimp only
  rw [hlocals]
  have hasked : Searching rs (s.ask file (.nearest section_
      (file.dl.address - file.dl.base - section_.vma - BitVec.ofInt 64 1))) [] :=
    searching_ask h (by simp)
  exact searching_lineLoop ho hasked (by show s.count < s.maxLines; omega) (.inl ⟨hcount, rfl⟩)

theorem foldl_skip (sections : List Section) (h : 0 < s.count ∨ s.maxLines = 0) :
    sections.foldl (findAddressInSection bfd file garbage) s = s := by
  induction sections with
  | nil => rfl
  | cons section_ sections ih =>
    rw [List.foldl_cons, findAddressInSection_skip (h.imp_right Or.inl)]
    exact ih

theorem searching_foldl (ho : o.Answers bfd.lines) (h : Searching rs s []) (hbackoff : s.backoff = 1)
    (sections : List Section) :
    Searching rs (sections.foldl (findAddressInSection bfd file garbage) s)
      (fill s.maxLines.toNat [] (o.expansionIn sections (file.dl.address - file.dl.base))) := by
  by_cases hmax : s.maxLines = 0
  · rw [foldl_skip sections (.inr hmax), fill_full (by simp [hmax])]
    exact h
  · induction sections with
    | nil =>
      show Searching rs s (fill _ [] Seq.nil)
      rw [fill_nil]
      exact h
    | cons section_ sections ih =>
      rw [List.foldl_cons]
      by_cases hcontains : section_.Contains (file.dl.address - file.dl.base)
      · have hfound : Searching rs (findAddressInSection bfd file garbage s section_) _ :=
          searching_contains ho h hbackoff hmax hcontains
        have hexpansion : o.expansionIn (section_ :: sections) (file.dl.address - file.dl.base) =
            o.expansion section_ (file.dl.address - file.dl.base) := by
          simp [LineOracle.expansionIn, hcontains]
        have hle := h.le
        have hcount := h.count
        have hpos : 0 < (findAddressInSection bfd file garbage s section_).count := by
          have hlength : 0 < (fill s.maxLines.toNat []
              (o.expansion section_ (file.dl.address - file.dl.base))).length :=
            length_fill_cons_pos (by simp at hcount; omega) _ _
          rw [hfound.count]
          omega
        rw [foldl_skip sections (.inl hpos), hexpansion]
        exact hfound
      · have hexpansion : o.expansionIn (section_ :: sections) (file.dl.address - file.dl.base) =
            o.expansionIn sections (file.dl.address - file.dl.base) := by
          simp [LineOracle.expansionIn, hcontains]
        rw [findAddressInSection_skip (.inr (.inr hcontains)), hexpansion]
        exact ih

/-! ## The addresses -/

variable {exe : String} {oracle : String → LineOracle} {frame : Frame} {c : Creation} {strip : ℤ}

theorem expansion_eq_nil (h : frame.module? exe = none ∨ frame.bfd.isLoaded = false) :
    expansion exe oracle frame = Seq.nil := by
  unfold expansion
  cases hmodule : frame.module? exe with
  | none => rfl
  | some m =>
    have hload : frame.bfd.isLoaded = false := h.resolve_left (by simp [hmodule])
    simp [hload]

/-- An address adds its expansion, as far as there is room. -/
theorem created_expansion (h : Created rs strip c) (hframe : Answered exe oracle frame) (n : ℕ) :
    Created (fill backtraceMax rs (expansion exe oracle frame)) strip (createStep exe c n frame) := by
  obtain ⟨dl, hlook, heq⟩ | ⟨dl, loading, hlook, hload, heq⟩ | ⟨dl, loading, hlook, hload, heq⟩ :=
    createStep_cases exe c n frame
  · have hnone : frame.module? exe = none := by
      simp [Frame.module?, hlook]
    rw [heq, expansion_eq_nil (.inl hnone), fill_nil]
    exact created_skipped h _
  · have hfst := loadFile_fst n frame.bfd (c.loading.withDl dl)
    rw [hload] at hfst
    rw [heq, expansion_eq_nil (.inr hfst.symm), fill_nil]
    exact created_skipped h _
  · obtain ⟨haddress, filename, hfilename⟩ := dlLookupAddress_found hlook
    have hmodule : frame.module? exe = some (filename, dl.base) := by
      simp [Frame.module?, hlook, hfilename]
    have hfst := loadFile_fst n frame.bfd (c.loading.withDl dl)
    have hdl := loadFile_dl n frame.bfd (c.loading.withDl dl)
    rw [hload] at hfst hdl
    have hexpansion : expansion exe oracle frame =
        (oracle filename).expansionIn frame.bfd.sections
          (loading.file.dl.address - loading.file.dl.base) := by
      rw [hdl]
      simp [expansion, hmodule, ← hfst, Loading.withDl, haddress]
    have hsearch : Searching rs (c.search frame loading)
        ((expansion exe oracle frame).take (backtraceMax - rs.length)) := by
      have hroom : ((backtraceMax : ℤ) - rs.length).toNat = backtraceMax - rs.length := by omega
      unfold Creation.search
      rw [h.size, hexpansion, ← fill_empty, ← hroom]
      exact searching_foldl (hframe filename dl.base hmodule) (searching_start h.filled 1 _) rfl
        frame.bfd.sections
    rw [heq]
    exact created_searched h n hsearch

theorem created_createLoop {frames : List Frame} (h : Created rs strip c)
    (hframes : ∀ frame ∈ frames, Answered exe oracle frame) (n : ℕ) :
    Created (fill backtraceMax rs (expandedStack exe oracle frames)) strip
      (createLoop exe c n frames) := by
  unfold expandedStack
  rw [← foldl_fill]
  induction frames generalizing rs c n with
  | nil => exact h
  | cons frame frames ih =>
    have hstep := created_expansion h (hframes frame List.mem_cons_self) n
    exact ih hstep (fun frame' hframe' => hframes frame' (List.mem_cons_of_mem _ hframe')) (n + 1)

/-- A backtrace records the beginning of the expanded stack. -/
theorem created_expandedStack {frames : List Frame}
    (hframes : ∀ frame ∈ frames, Answered exe oracle frame) (strip : ℤ) :
    Created ((expandedStack exe oracle frames).take backtraceMax) strip
      (debugBacktraceCreate exe frames strip) := by
  rw [← fill_empty]
  exact created_createLoop (created_start strip) hframes 0

/-! ## Printing -/

/-- The record is not excluded. -/
def isPrinted (r : Record) : Bool := !debugBacktraceIsExcluded r.function

variable {bckt : Bckt}

/-- The next line is the next record that is not excluded. -/
theorem debugBacktraceNext_spec (h : Filled bckt.buf rs) (hsize : bckt.size = rs.length) {p : ℕ}
    (hp : bckt.position = p) :
    match debugBacktraceNext bckt with
    | none => (rs.drop p).filter isPrinted = []
    | some (ln, bckt') => ∃ q : ℕ, bckt' = { bckt with position := q } ∧
        (rs.drop p).filter isPrinted = ln.toRecord :: (rs.drop q).filter isPrinted := by
  fun_induction debugBacktraceNext bckt generalizing p with
  | case1 bckt hend =>
    have hle : rs.length ≤ p := by omega
    rw [List.drop_eq_nil_of_le hle, List.filter_nil]
  | case2 bckt hend hat =>
    have hlt : p < rs.length := by omega
    obtain ⟨ln, hln⟩ := h.filled p hlt
    simp [Buffer.at, hp, hln.entry] at hat
  | case3 bckt hend ln hat hex ih =>
    have hlt : p < rs.length := by omega
    obtain ⟨ln', hln'⟩ := h.filled p hlt
    obtain rfl : ln' = ln := by simpa [Buffer.at, hp, hln'.entry] using hat
    have hdrop : (rs.drop p).filter isPrinted = (rs.drop (p + 1)).filter isPrinted := by
      rw [List.drop_eq_getElem_cons hlt, List.filter_cons, ← hln'.record]
      simp [isPrinted, BacktraceLine.toRecord, hex]
    rw [hdrop]
    exact ih h hsize (by simp [hp])
  | case4 bckt hend ln hat hex =>
    have hlt : p < rs.length := by omega
    obtain ⟨ln', hln'⟩ := h.filled p hlt
    obtain rfl : ln' = ln := by simpa [Buffer.at, hp, hln'.entry] using hat
    refine ⟨p + 1, by simp [hp], ?_⟩
    rw [List.drop_eq_getElem_cons hlt, List.filter_cons, ← hln'.record]
    simp [isPrinted, BacktraceLine.toRecord, hex]

/-- Where the strings of a line are does not matter for how it is printed. -/
theorem lineText_eq (n : ℕ) (ln : BacktraceLine) : lineText n ln = ln.toRecord.text n := rfl

/-- The lines are printed with consecutive numbers. -/
theorem printLines_spec (h : Filled bckt.buf rs) (hsize : bckt.size = rs.length) {p : ℕ}
    (hp : bckt.position = p) (n : ℕ) :
    printLines bckt n =
      ((rs.drop p).filter isPrinted).mapIdx fun i r => r.text (n + i) := by
  fun_induction printLines bckt n generalizing p with
  | case1 bckt n hnext =>
    have hspec := debugBacktraceNext_spec h hsize hp
    rw [hnext] at hspec
    rw [hspec, List.mapIdx_nil]
  | case2 bckt n ln bckt' hnext ih =>
    have hspec := debugBacktraceNext_spec h hsize hp
    rw [hnext] at hspec
    obtain ⟨q, rfl, hfilter⟩ := hspec
    rw [hfilter, List.mapIdx_cons, ih h hsize rfl, lineText_eq]
    simp only [Nat.add_zero, Nat.add_assoc, Nat.add_comm 1]

/-- What is printed are the lines of the expanded stack: of its first 64 records those from index
`strip` on that are not excluded, numbered from 0. -/
theorem debugPrintBacktrace_eq (exe : String) (oracle : String → LineOracle) (frames : List Frame)
    (tid : ℕ) (strip : ℤ) (hstrip : 0 ≤ strip)
    (hframes : ∀ frame ∈ frames, Answered exe oracle frame) :
    debugPrintBacktrace true exe frames tid strip =
      ["==== backtrace (tid:" ++ padSeven tid ++ ") ====\n"] ++
        (printedRecords exe oracle frames strip).mapIdx (fun n r => r.text n) ++
        ["=================================\n"] := by
  have hcreated := created_expandedStack hframes strip
  have hposition : (debugBacktraceCreate exe frames strip).bckt.position = (strip.toNat : ℤ) := by
    rw [hcreated.position]
    omega
  have hprinted := printLines_spec hcreated.filled hcreated.size hposition 0
  unfold debugPrintBacktrace
  rw [if_pos rfl, hprinted]
  simp only [Nat.zero_add]
  rfl

/-- The number of queries for inliners at the end. -/
def inlinersAsked (asked : List LineQuery) : ℕ := (asked.reverse.takeWhile (· = .inliner)).length

theorem inlinersAsked_eq (asked : List LineQuery) (section_ : Section) (offset : Address) (k : ℕ) :
    inlinersAsked (asked ++ [.nearest section_ offset] ++ List.replicate k .inliner) = k := by
  simp [inlinersAsked]

/-- An address in a function that is inlined into `main`. -/
def inlinedFrame : Frame where
  address := 0x1010#64
  modules := [⟨0x1000#64, "", [⟨0#64, 0x100#64⟩]⟩]
  bfd :=
    { opened := true
      archive := false
      object := true
      hasSyms := true
      static := ⟨3, true, by decide, by decide⟩
      dynamic := .nothing
      sections := [⟨0, false, 0#64, 0x100#64⟩, ⟨1, true, 0#64, 0x100#64⟩]
      lines := fun asked =>
        match inlinersAsked asked with
        | 0 => .found ⟨some "a.h", some "inlined", 3#32⟩
        | 1 => .found ⟨some "a.c", some "main", 9#32⟩
        | _ => .notFound none }
  garbage := ⟨none, none, 0#32⟩

def inlinedOracle : LineOracle where
  nearest _ _ := ⟨some "a.h", some "inlined", 3#32⟩
  inliner _ _ k := if k = 0 then some ⟨some "a.c", some "main", 9#32⟩ else none

theorem inlinedOracle_answers : inlinedOracle.Answers inlinedFrame.bfd.lines := by
  refine ⟨?_, ?_, ?_⟩
  · intro asked section_ offset
    have hasked := inlinersAsked_eq asked section_ offset 0
    rw [List.replicate_zero, List.append_nil] at hasked
    simp only [inlinedFrame, hasked, inlinedOracle]
  · intro asked section_ offset k info hinfo
    have hasked := inlinersAsked_eq asked section_ offset (k + 1)
    cases k with
    | zero =>
      simp only [inlinedFrame, hasked]
      simpa [inlinedOracle] using hinfo
    | succ k => simp [inlinedOracle] at hinfo
  · intro asked section_ offset k hnone
    have hasked := inlinersAsked_eq asked section_ offset (k + 1)
    cases k with
    | zero => simp [inlinedOracle] at hnone
    | succ k => exact ⟨none, by simp only [inlinedFrame, hasked]⟩

/-- The line of the call is stripped, the one of the inliner is printed. -/
theorem debugPrintBacktrace_inlined :
    debugPrintBacktrace true "/bin/a" [inlinedFrame] 7 1 =
      ["==== backtrace (tid:      7) ====\n", " 0 0x0000000000000010 main()  a.c:9\n",
        "=================================\n"] := by
  have hframes : ∀ frame ∈ [inlinedFrame], Answered "/bin/a" (fun _ => inlinedOracle) frame := by
    intro frame hframe filename base _
    rw [List.mem_singleton.mp hframe]
    exact inlinedOracle_answers
  rw [debugPrintBacktrace_eq "/bin/a" (fun _ => inlinedOracle) [inlinedFrame] 7 1 (by decide) hframes]
  decide +kernel

end DcPerf.Backtrace
