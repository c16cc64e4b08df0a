import DcPerf.Backtrace.Proofs.Lines

/-!
# The resources of a backtrace

Between two addresses nothing is held. A file that is not loaded is closed by `load_file`, a loaded
one is held until `unload_file`, with its symbol array if one was stored. The exception is a second
read of the symbols that stores nothing: the pointer to the array that was freed before it is kept,
used and freed again.
-/

namespace DcPerf.Backtrace

open DcPerf.Library

variable {n : ℕ} {d : Bool} {exe : String} {frame : Frame} {bfd : BfdAnswers}
  {file : BacktraceFile} {answer : MinisymbolsAnswer} {s s' : Loading} {r : Res}

/-! ## What the log goes on with -/

/-- The address that a resource is for. -/
def Res.index : Res → ℕ
  | .bfd n => n
  | .syms n _ => n

/-- Only resources of the `n`-th address are acquired. -/
def OfAddress (n : ℕ) (u : Use Res) : Prop := ∀ r, u = .acquire r → r.index = n

@[simp] theorem ofAddress_acquire : OfAddress n (.acquire r) ↔ r.index = n := by
  simp [OfAddress]

@[simp] theorem ofAddress_use : OfAddress n (.use r) := by
  simp [OfAddress]

@[simp] theorem ofAddress_release : OfAddress n (.release r) := by
  simp [OfAddress]

theorem ofAddress_usePtr (p : Option Res) : ∀ u ∈ usePtr p, OfAddress n u := by
  cases p <;> simp [usePtr]

theorem ofAddress_releasePtr (p : Option Res) : ∀ u ∈ releasePtr p, OfAddress n u := by
  cases p <;> simp [releasePtr]

theorem goesOn_askBfd (s : Loading) : GoesOn (OfAddress n) s.log (askBfd s).log :=
  goesOn_append (ofAddress_usePtr _)

theorem goesOn_freeSyms (s : Loading) : GoesOn (OfAddress n) s.log (freeSyms s).log :=
  goesOn_append (ofAddress_releasePtr _)

theorem goesOn_closeBfd (s : Loading) : GoesOn (OfAddress n) s.log (closeBfd s).log :=
  goesOn_append (ofAddress_releasePtr _)

theorem goesOn_readMinisymbols (d : Bool) (answer : MinisymbolsAnswer) (s : Loading) :
    GoesOn (OfAddress n) s.log (readMinisymbols n d answer s).log := by
  unfold readMinisymbols
  by_cases hstored : answer.stored = true
  · rw [if_pos hstored]
    refine (goesOn_append (ofAddress_usePtr s.file.abfd)).trans (goesOn_append ?_)
    simp [Res.index]
  · rw [if_neg hstored]
    exact goesOn_append (ofAddress_usePtr _)

theorem goesOn_loadSymbols (bfd : BfdAnswers) (s : Loading) :
    GoesOn (OfAddress n) s.log (loadSymbols n bfd s).2.log := by
  have hread := goesOn_readMinisymbols (n := n) false bfd.static s
  unfold loadSymbols
  dsimp only
  by_cases hzero : bfd.static.count = 0
  · rw [if_pos hzero]
    have hretry := (hread.trans (goesOn_freeSyms _)).trans
      (goesOn_readMinisymbols true bfd.dynamic _)
    by_cases hneg : bfd.dynamic.count < 0
    · rw [if_pos hneg]
      exact hretry.trans (goesOn_closeBfd _)
    · rw [if_neg hneg]
      exact hretry
  · rw [if_neg hzero]
    by_cases hneg : bfd.static.count < 0
    · rw [if_pos hneg]
      exact hread.trans (goesOn_closeBfd _)
    · rw [if_neg hneg]
      exact hread

theorem goesOn_loadFile (bfd : BfdAnswers) (s : Loading) :
    GoesOn (OfAddress n) s.log (loadFile n bfd s).2.log := by
  unfold loadFile
  dsimp only
  by_cases hopened : bfd.opened = true
  · rw [if_pos hopened]
    have hopen : GoesOn (OfAddress n) s.log (s.log ++ [.acquire (.bfd n)]) :=
      goesOn_append (by simp [Res.index])
    have harchived := hopen.trans (goesOn_askBfd ⟨{ s.file with syms := none, abfd := some (.bfd n) }, _⟩)
    by_cases harchive : bfd.archive = true
    · rw [if_pos harchive]
      exact harchived.trans (goesOn_closeBfd _)
    · rw [if_neg harchive]
      have hobjected := harchived.trans (goesOn_askBfd _)
      by_cases hobject : bfd.object = true
      · rw [if_pos hobject]
        have hflags := hobjected.trans (goesOn_askBfd _)
        by_cases hsyms : bfd.hasSyms = true
        · rw [if_pos hsyms]
          exact hflags.trans (goesOn_loadSymbols bfd _)
        · rw [if_neg hsyms]
          exact hflags.trans (goesOn_closeBfd _)
      · rw [if_neg hobject]
        exact hobjected.trans (goesOn_closeBfd _)
  · rw [if_neg hopened]
    exact GoesOn.refl _

theorem goesOn_unloadFile (s : Loading) : GoesOn (OfAddress n) s.log (unloadFile s).log :=
  (goesOn_freeSyms s).trans (goesOn_closeBfd _)

/-! ## The search only looks -/

/-- A use of what the file points to. -/
def OfFile (file : BacktraceFile) (u : Use Res) : Prop :=
  u ∈ usePtr file.abfd ++ usePtr file.syms

theorem goesOn_ask {search : Search} {query : LineQuery} {l : List (Use Res)}
    (hl : search.log = l) : GoesOn (OfFile file) l (search.ask file query).log := by
  rw [← hl]
  unfold Search.ask
  refine (goesOn_append ?_).trans (goesOn_append ?_)
  · intro u hu
    exact List.mem_append_left _ hu
  · intro u hu
    cases query with
    | nearest section_ offset => exact List.mem_append_right _ hu
    | inliner => exact absurd hu List.not_mem_nil

theorem goesOn_lineTurn {section_ : Section} {address : Address} {locals locals' : LineInfo}
    {search search' : Search} {found : Bool}
    (ht : lineTurn bfd file section_ address locals search = (found, locals', search')) :
    GoesOn (OfFile file) search.log search'.log := by
  have hs : search' = (lineTurn bfd file section_ address locals search).2.2 := by rw [ht]
  rw [hs]
  unfold lineTurn
  dsimp only
  by_cases hfirst : search.count = 0
  · simp only [hfirst, decide_true, if_true]
    refine GoesOn.trans ?_ (goesOn_ask rfl)
    dsimp only
    exact goesOn_ask rfl
  · simp only [hfirst, decide_false, Bool.false_eq_true, if_false]
    exact goesOn_ask rfl

theorem goesOn_lineLoop (section_ : Section) (address : Address) (locals : LineInfo)
    (search : Search) :
    GoesOn (OfFile file) search.log (lineLoop bfd file section_ address locals search).log := by
  induction locals, search using lineLoop.induct bfd file section_ address with
  | case1 locals search found locals' search' ht hmore ih =>
    rw [lineLoop_eq ht, if_pos hmore]
    exact (goesOn_lineTurn ht).trans ih
  | case2 locals search found locals' search' ht hend =>
    rw [lineLoop_eq ht, if_neg hend]
    exact goesOn_lineTurn ht

theorem goesOn_findAddressInSection (garbage : LineInfo) (search : Search) (section_ : Section) :
    GoesOn (OfFile file) search.log
      (findAddressInSection bfd file garbage search section_).log := by
  obtain heq | ⟨-, -, address, locals, query, -, heq⟩ :=
    findAddressInSection_cases bfd file garbage search section_
  · rw [heq]
    exact GoesOn.refl _
  · rw [heq]
    exact (goesOn_ask rfl).trans (goesOn_lineLoop section_ address locals _)

theorem goesOn_getLineInfo (bfd : BfdAnswers) (file : BacktraceFile) (garbage : LineInfo)
    (backoff : ℤ) (buf : Buffer) (base max : ℤ) (log : List (Use Res)) :
    GoesOn (OfFile file) log (getLineInfo bfd file garbage backoff buf base max log).log := by
  have hsections : ∀ (sections : List Section) (search : Search),
      GoesOn (OfFile file) search.log
        (sections.foldl (findAddressInSection bfd file garbage) search).log := by
    intro sections
    induction sections with
    | nil => exact fun search => GoesOn.refl _
    | cons section_ sections ih =>
      exact fun search => (goesOn_findAddressInSection garbage search section_).trans (ih _)
  unfold getLineInfo
  refine GoesOn.trans ?_ (hsections bfd.sections _)
  exact goesOn_append fun u hu => List.mem_append_left _ hu

/-! ## Loading and unloading -/

/-- The file of the `n`-th address is open and `held` is what is held. -/
structure Opened (n : ℕ) (s : Loading) (held : List Res) : Prop where
  abfd : s.file.abfd = some (.bfd n)
  holding : Holding s.log held

/-- A second read of the symbols finds none and stores nothing, after the first one has stored an
array. -/
structure BfdAnswers.RetriesInVain (bfd : BfdAnswers) : Prop where
  first : bfd.static.count = 0
  stored : bfd.static.stored = true
  second : bfd.dynamic.count = 0
  unstored : bfd.dynamic.stored = false

variable {held : List Res}

theorem Opened.uses (h : Opened n s held) (hmem : .bfd n ∈ held) :
    Holding (s.log ++ usePtr s.file.abfd) held := by
  apply h.holding.uses
  rw [h.abfd]
  simp [usePtr, hmem]

theorem Opened.askBfd (h : Opened n s held) (hmem : .bfd n ∈ held) : Opened n (askBfd s) held :=
  ⟨h.abfd, h.uses hmem⟩

theorem Opened.closeBfd (h : Opened n s [.bfd n]) : Holding (closeBfd s).log [] := by
  unfold Backtrace.closeBfd
  rw [h.abfd]
  exact h.holding.release

/-- What is freed by a pointer that holds its array. -/
theorem Opened.freeSyms (h : Opened n s (s.file.syms.toList ++ [.bfd n])) :
    Opened n (freeSyms s) [.bfd n] := by
  refine ⟨h.abfd, ?_⟩
  have hholding := h.holding
  unfold Backtrace.freeSyms
  cases hsyms : s.file.syms with
  | none =>
    rw [hsyms] at hholding
    simpa [releasePtr] using hholding
  | some r =>
    rw [hsyms] at hholding
    exact hholding.release

/-- A read that stores an array. -/
theorem Opened.read_stored (h : Opened n s [.bfd n]) (hnew : .acquire (.syms n d) ∉ s.log)
    (hstored : answer.stored = true) :
    Opened n (readMinisymbols n d answer s)
      ((readMinisymbols n d answer s).file.syms.toList ++ [.bfd n]) := by
  unfold readMinisymbols
  rw [if_pos hstored]
  refine ⟨h.abfd, (h.uses (by simp)).acquire ?_⟩
  rw [h.abfd]
  simp [usePtr, hnew]

/-- A read that stores nothing. -/
theorem Opened.read_unstored (h : Opened n s [.bfd n]) (hstored : answer.stored = false) :
    (readMinisymbols n d answer s).file = s.file ∧ Opened n (readMinisymbols n d answer s) [.bfd n] := by
  have hneg : ¬answer.stored = true := by simp [hstored]
  unfold readMinisymbols
  rw [if_neg hneg]
  exact ⟨rfl, h.abfd, h.uses (by simp)⟩

/-- A read into a null pointer. -/
theorem Opened.read_null (h : Opened n s [.bfd n]) (hnull : s.file.syms = none)
    (hnew : .acquire (.syms n d) ∉ s.log) :
    Opened n (readMinisymbols n d answer s)
      ((readMinisymbols n d answer s).file.syms.toList ++ [.bfd n]) := by
  cases hstored : answer.stored with
  | true => exact h.read_stored hnew hstored
  | false =>
    obtain ⟨hfile, hread⟩ := h.read_unstored (d := d) hstored
    rw [hfile, hnull]
    exact hread

/-- What `load_file` leaves: an open file that holds its symbols, or nothing. -/
def LeavesFile (n : ℕ) : Bool × Loading → Prop
  | (true, s) => Opened n s (s.file.syms.toList ++ [.bfd n])
  | (false, s) => Holding s.log []

theorem Opened.loadSymbols (h : Opened n s [.bfd n]) (hnull : s.file.syms = none)
    (hnew : ∀ d, .acquire (.syms n d) ∉ s.log) (hvain : ¬bfd.RetriesInVain) :
    LeavesFile n (loadSymbols n bfd s) := by
  have hread : Opened n (readMinisymbols n false bfd.static s) _ := h.read_null hnull (hnew false)
  unfold Backtrace.loadSymbols
  dsimp only
  by_cases hzero : bfd.static.count = 0
  · rw [if_pos hzero]
    have hfreed := hread.freeSyms
    by_cases hneg : bfd.dynamic.count < 0
    · rw [if_pos hneg]
      exact (hfreed.read_unstored (bfd.dynamic.neg hneg)).2.closeBfd
    · rw [if_neg hneg]
      cases hstored : bfd.dynamic.stored with
      | true =>
        refine hfreed.read_stored ?_ hstored
        have hnewTrue := hnew true
        unfold Backtrace.freeSyms readMinisymbols
        by_cases hfirst : bfd.static.stored = true <;>
          cases hsyms : s.file.syms <;>
            simp [hfirst, hsyms, hnewTrue, h.abfd, usePtr, releasePtr]
      | false =>
        -- The second read found nothing, so the first one did not store an array either.
        have hsecond : bfd.dynamic.count = 0 := by
          by_contra hne
          have hpos := bfd.dynamic.pos (by omega)
          simp [hstored] at hpos
        have hfirst : bfd.static.stored = false := by
          by_contra hne
          exact hvain ⟨hzero, by simpa using hne, hsecond, hstored⟩
        obtain ⟨hfile, hsecondRead⟩ := hfreed.read_unstored (d := true) hstored
        show Opened n _ _
        rw [hfile]
        have hnull' : (Backtrace.freeSyms (readMinisymbols n false bfd.static s)).file.syms = none := by
          unfold Backtrace.freeSyms
          rw [(h.read_unstored hfirst).1]
          exact hnull
        rw [hnull']
        exact hsecondRead
  · rw [if_neg hzero]
    by_cases hneg : bfd.static.count < 0
    · rw [if_pos hneg]
      exact (h.read_unstored (bfd.static.neg hneg)).2.closeBfd
    · rw [if_neg hneg]
      exact hread

theorem loadFile_leaves (hs : Holding s.log []) (hnew : ∀ r, r.index = n → .acquire r ∉ s.log)
    (hvain : ¬(bfd.isLoaded = true ∧ bfd.RetriesInVain)) : LeavesFile n (loadFile n bfd s) := by
  unfold loadFile
  dsimp only
  by_cases hopened : bfd.opened = true
  · rw [if_pos hopened]
    have hopen : Opened n ⟨{ s.file with syms := none, abfd := some (.bfd n) },
        s.log ++ [.acquire (.bfd n)]⟩ [.bfd n] := ⟨rfl, hs.acquire (hnew _ rfl)⟩
    have harchived := hopen.askBfd (by simp)
    by_cases harchive : bfd.archive = true
    · rw [if_pos harchive]
      exact harchived.closeBfd
    · rw [if_neg harchive]
      have hobjected := harchived.askBfd (by simp)
      by_cases hobject : bfd.object = true
      · rw [if_pos hobject]
        have hflags := hobjected.askBfd (by simp)
        by_cases hsyms : bfd.hasSyms = true
        · rw [if_pos hsyms]
          refine hflags.loadSymbols rfl ?_ ?_
          · intro d
            simp [askBfd, usePtr, hnew (.syms n d) rfl]
          · intro hretry
            refine hvain ⟨?_, hretry⟩
            simp [BfdAnswers.isLoaded, BfdAnswers.symcount, hopened, harchive, hobject, hsyms,
              hretry.first, hretry.second]
        · rw [if_neg hsyms]
          exact hflags.closeBfd
      · rw [if_neg hobject]
        exact hobjected.closeBfd
  · rw [if_neg hopened]
    exact hs

/-- Looking for lines does not change what is held. -/
theorem Opened.goesOn (h : Opened n s (s.file.syms.toList ++ [.bfd n])) {l : List (Use Res)}
    (hl : GoesOn (OfFile s.file) s.log l) :
    Opened n { s with log := l } (s.file.syms.toList ++ [.bfd n]) := by
  obtain ⟨more, rfl, hmore⟩ := hl
  refine ⟨h.abfd, h.holding.uses ?_⟩
  intro u hu
  have hfile := hmore u hu
  unfold OfFile at hfile
  rw [h.abfd] at hfile
  cases hsyms : s.file.syms with
  | none => simpa [hsyms, usePtr] using hfile
  | some r => simpa [hsyms, usePtr, or_comm] using hfile

theorem Opened.unloadFile (h : Opened n s (s.file.syms.toList ++ [.bfd n])) :
    Holding (unloadFile s).log [] :=
  h.freeSyms.closeBfd

/-! ## The loop over the addresses -/

/-- The address is found and its file is loaded after a retry in vain. -/
structure RetriesInVain (exe : String) (frame : Frame) : Prop where
  found : (frame.lookup exe).1 = true
  loaded : frame.bfd.isLoaded = true
  retries : frame.bfd.RetriesInVain

/-- Before the `n`-th address nothing is held. -/
structure Released (n : ℕ) (s : Creation) : Prop where
  holding : Holding s.loading.log []
  index : ∀ r, .acquire r ∈ s.loading.log → r.index < n
  unloaded : s.unloaded = s.loaded

variable {c : Creation}

theorem ofAddress_ofFile {u : Use Res} (hu : OfFile file u) : OfAddress n u := by
  rcases List.mem_append.mp hu with hu | hu
  · exact ofAddress_usePtr _ u hu
  · exact ofAddress_usePtr _ u hu

theorem goesOn_search (c : Creation) (frame : Frame) (loading : Loading) :
    GoesOn (OfFile loading.file) loading.log (c.search frame loading).log :=
  goesOn_getLineInfo _ _ _ _ _ _ _ _

theorem goesOn_createStep (exe : String) (c : Creation) (n : ℕ) (frame : Frame) :
    GoesOn (OfAddress n) c.loading.log (createStep exe c n frame).loading.log := by
  obtain ⟨dl, -, heq⟩ | ⟨dl, loading, -, hload, heq⟩ | ⟨dl, loading, -, hload, heq⟩ :=
    createStep_cases exe c n frame
  · rw [heq]
    exact GoesOn.refl _
  · have hfile := goesOn_loadFile (n := n) frame.bfd (c.loading.withDl dl)
    rw [hload] at hfile
    rw [heq]
    exact hfile
  · have hfile := goesOn_loadFile (n := n) frame.bfd (c.loading.withDl dl)
    rw [hload] at hfile
    have hsearch := (goesOn_search c frame loading).mono fun u hu => ofAddress_ofFile (n := n) hu
    rw [heq]
    exact (hfile.trans hsearch).trans (goesOn_unloadFile _)

theorem released_step (h : Released n c) (hframe : ¬RetriesInVain exe frame) :
    Released (n + 1) (createStep exe c n frame) := by
  have hindex : ∀ r, .acquire r ∈ (createStep exe c n frame).loading.log → r.index < n + 1 := by
    intro r hr
    rcases (goesOn_createStep exe c n frame).of_mem hr with hr | hr
    · exact Nat.lt_succ_of_lt (h.index r hr)
    · rw [hr r rfl]
      exact Nat.lt_succ_self n
  have hleaves : ∀ dl, frame.lookup exe = (true, dl) →
      LeavesFile n (loadFile n frame.bfd (c.loading.withDl dl)) := by
    intro dl hlook
    refine loadFile_leaves h.holding ?_ ?_
    · intro r hr hmem
      exact absurd (h.index r hmem) (by omega)
    · rintro ⟨hloaded, hretries⟩
      exact hframe ⟨by rw [hlook], hloaded, hretries⟩
  obtain ⟨dl, -, heq⟩ | ⟨dl, loading, hlook, hload, heq⟩ | ⟨dl, loading, hlook, hload, heq⟩ :=
    createStep_cases exe c n frame
  · rw [heq] at hindex ⊢
    exact ⟨h.holding, hindex, h.unloaded⟩
  · have hclosed := hleaves dl hlook
    rw [hload] at hclosed
    rw [heq] at hindex ⊢
    exact ⟨hclosed, hindex, h.unloaded⟩
  · have hopened := hleaves dl hlook
    rw [hload] at hopened
    rw [heq] at hindex ⊢
    refine ⟨(hopened.goesOn (goesOn_search c frame loading)).unloadFile, hindex, ?_⟩
    show c.unloaded ++ [n] = c.loaded ++ [n]
    rw [h.unloaded]

theorem released_loop (h : Released n c) {frames : List Frame}
    (hframes : ∀ frame ∈ frames, ¬RetriesInVain exe frame) :
    ∃ m, Released m (createLoop exe c n frames) := by
  induction frames generalizing c n with
  | nil => exact ⟨n, h⟩
  | cons frame frames ih =>
    have hstep := released_step h (hframes frame List.mem_cons_self)
    exact ih hstep fun frame' hframe' => hframes frame' (List.mem_cons_of_mem _ hframe')

theorem goesOn_createLoop (exe : String) (c : Creation) (n : ℕ) (frames : List Frame) :
    GoesOn (fun _ => True) c.loading.log (createLoop exe c n frames).loading.log := by
  induction frames generalizing c n with
  | nil => exact GoesOn.refl _
  | cons frame frames ih =>
    have hstep := (goesOn_createStep exe c n frame).mono fun _ _ => trivial
    exact hstep.trans (ih _ _)

/-! ## Retries in vain -/

/-- A retry in vain keeps the pointer to the array that it has freed. -/
theorem loadFile_inVain (hload : bfd.isLoaded = true) (hvain : bfd.RetriesInVain) :
    (loadFile n bfd s).2.file.syms = some (.syms n false) ∧
      .acquire (.syms n false) ∈ (loadFile n bfd s).2.log ∧
      1 ≤ (loadFile n bfd s).2.log.count (.release (.syms n false)) := by
  unfold BfdAnswers.isLoaded at hload
  simp only [Bool.and_eq_true, Bool.not_eq_true'] at hload
  obtain ⟨⟨⟨⟨hopened, harchive⟩, hobject⟩, hsyms⟩, -⟩ := hload
  simp [loadFile, loadSymbols, readMinisymbols, freeSyms, askBfd, usePtr, releasePtr, hopened,
    harchive, hobject, hsyms, hvain.first, hvain.stored, hvain.second, hvain.unstored,
    List.count_append]

/-- Unloading frees it again. -/
theorem createStep_inVain (hframe : RetriesInVain exe frame) (c : Creation) (n : ℕ) :
    .acquire (.syms n false) ∈ (createStep exe c n frame).loading.log ∧
      2 ≤ (createStep exe c n frame).loading.log.count (.release (.syms n false)) := by
  have hfound := hframe.found
  obtain ⟨dl, hlook, -⟩ | ⟨dl, loading, -, hload, -⟩ | ⟨dl, loading, -, hload, heq⟩ :=
    createStep_cases exe c n frame
  · simp [hlook] at hfound
  · have hfst := loadFile_fst n frame.bfd (c.loading.withDl dl)
    rw [hload, hframe.loaded] at hfst
    exact absurd hfst (by simp)
  · obtain ⟨hsyms, hmem, hcount⟩ :=
      loadFile_inVain (n := n) (s := c.loading.withDl dl) hframe.loaded hframe.retries
    rw [hload] at hsyms hmem hcount
    dsimp only at hsyms hmem hcount
    have hsearch := goesOn_search c frame loading
    have hmore := hsearch.count_le (.release (.syms n false))
    rw [heq]
    refine ⟨(goesOn_unloadFile (n := n) _).mem (hsearch.mem hmem), ?_⟩
    simp only [Creation.searched, unloadFile, freeSyms, closeBfd, hsyms, releasePtr,
      List.count_append]
    simp
    omega

theorem createLoop_inVain {frames : List Frame} (hframe : RetriesInVain exe frame)
    (hmem : frame ∈ frames) (c : Creation) (n : ℕ) :
    ∃ r, .acquire r ∈ (createLoop exe c n frames).loading.log ∧
      2 ≤ (createLoop exe c n frames).loading.log.count (.release r) := by
  induction frames generalizing c n with
  | nil => exact absurd hmem List.not_mem_nil
  | cons frame' frames ih =>
    rcases List.mem_cons.mp hmem with rfl | hmem
    · obtain ⟨hacquired, htwice⟩ := createStep_inVain hframe c n
      have hrest := goesOn_createLoop exe (createStep exe c n frame) (n + 1) frames
      exact ⟨.syms n false, hrest.mem hacquired, Nat.le_trans htwice (hrest.count_le _)⟩
    · exact ih hmem _ _

/-! ## Balance -/

/-- Everything that was opened or stored has been closed or freed exactly once, and nothing is touched
after that; what was loaded has been unloaded. -/
structure ResourcesBalanced (c : Creation) : Prop where
  released : ∀ r, .acquire r ∈ c.loading.log → c.loading.log.count (.release r) = 1
  untouched : Always (fun pre u => ∀ r, u = .use r ∨ u = .release r → .release r ∉ pre) c.loading.log
  unloaded : c.unloaded = c.loaded

theorem Released.balanced (h : Released n c) : ResourcesBalanced c := by
  have hbalanced := h.holding.balanced
  refine ⟨fun r hr => hbalanced.count_release hr, ?_, h.unloaded⟩
  refine hbalanced.disciplined.mono ?_
  rintro pre u hallowed r (rfl | rfl)
  · exact hallowed.2
  · exact hallowed.2

theorem released_start (strip : ℤ) : Released 0 (createStart strip) :=
  ⟨holding_nil, by simp [createStart], rfl⟩

/-- The resources are balanced unless a file is loaded after a retry in vain. -/
theorem resourcesBalanced_iff (exe : String) (frames : List Frame) (strip : ℤ) :
    ResourcesBalanced (debugBacktraceCreate exe frames strip) ↔
      ∀ frame ∈ frames, ¬RetriesInVain exe frame := by
  constructor
  · intro h frame hmem hframe
    obtain ⟨r, hacquired, htwice⟩ := createLoop_inVain hframe hmem (createStart strip) 0
    have honce := h.released r hacquired
    unfold debugBacktraceCreate at honce
    omega
  · intro hframes
    obtain ⟨m, hreleased⟩ := released_loop (released_start strip) hframes
    exact hreleased.balanced

/-- An address in a stripped executable: the first read stores an array of no symbols, and the second
read, of the dynamic ones, stores nothing. -/
def strippedFrame : Frame where
  address := 0x1010#64
  modules := [⟨0x1000#64, "", [⟨0#64, 0x100#64⟩]⟩]
  bfd :=
    { opened := true
      archive := false
      object := true
      hasSyms := true
      static := ⟨0, true, fun _ => rfl, fun h => absurd h (Int.lt_irrefl 0)⟩
      dynamic := .nothing
      sections := []
      lines := fun _ => .notFound none }
  garbage := ⟨none, none, 0#32⟩

/-- Its array of symbols is freed twice. -/
theorem strippedFrame_not_balanced :
    ¬ResourcesBalanced (debugBacktraceCreate "/bin/stripped" [strippedFrame] 2) := by
  intro h
  have honce := h.released (.syms 0 false) (by decide)
  revert honce
  decide

end DcPerf.Backtrace
