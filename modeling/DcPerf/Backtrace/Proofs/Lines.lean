import DcPerf.Backtrace.Expansion

/-!
# The line buffer is never overrun

The lines recorded so far fill the buffer from its beginning, one string pair each. A turn of the
`do`-`while` loop records one more, and the loop goes on only while there is room.
-/

namespace DcPerf.Backtrace

open DcPerf.Library

/-- The entry at index `i` holds the `i`-th record, with the strings allocated for it. -/
structure Holds (buf : Buffer) (i : ℕ) (r : Record) (ln : BacktraceLine) : Prop where
  entry : buf.lines[i]? = some (some ln)
  record : ln.toRecord = r
  file : ln.file.id = 2 * i
  function : ln.function.id = 2 * i + 1

/-- The buffer is filled with `rs`, from its beginning and each entry once. -/
structure Filled (buf : Buffer) (rs : List Record) : Prop where
  length : buf.lines.length = backtraceMax
  le : rs.length ≤ backtraceMax
  writes : buf.writes = (List.range rs.length).map Int.ofNat
  strings : buf.strings = 2 * rs.length
  filled : ∀ i (h : i < rs.length), ∃ ln, Holds buf i rs[i] ln
  unset : ∀ i, rs.length ≤ i → i < backtraceMax → buf.lines[i]? = some none

variable {bfd : BfdAnswers} {file : BacktraceFile} {section_ : Section} {address : Address}
  {locals garbage : LineInfo} {s : Search} {buf : Buffer} {rs : List Record}

theorem filled_empty : Filled Buffer.empty [] := by
  refine ⟨by simp [Buffer.empty], by simp, rfl, rfl, by simp, ?_⟩
  intro i _ hi
  simp [Buffer.empty, hi]

/-- Recording at the end fills one more entry. -/
theorem Filled.record (h : Filled buf rs) (hlt : rs.length < backtraceMax) (address : Address)
    (info : LineInfo) :
    Filled (buf.record rs.length address info) (rs ++ [info.toRecord address]) := by
  have hpos : (0 : ℤ) ≤ (rs.length : ℤ) := Int.natCast_nonneg _
  unfold Buffer.record
  simp only [hpos, if_true, Int.toNat_natCast]
  refine ⟨by simpa using h.length, by rw [List.length_append]; exact hlt, ?_, ?_, ?_, ?_⟩
  · dsimp only
    rw [h.writes, List.length_append, List.length_singleton, List.range_succ, List.map_append]
    rfl
  · dsimp only
    rw [h.strings, List.length_append, List.length_singleton]
    omega
  · intro i hi
    rw [List.length_append, List.length_singleton] at hi
    by_cases heq : i = rs.length
    · subst heq
      refine ⟨buf.nextLine address info, ?_, ?_, ?_, ?_⟩
      · exact List.getElem?_set_self (by rw [h.length]; exact hlt)
      · simp [BacktraceLine.toRecord, LineInfo.toRecord, Buffer.nextLine]
      · exact h.strings
      · show buf.strings + 1 = _
        rw [h.strings]
    · have hi' : i < rs.length := by omega
      obtain ⟨ln, hentry, hrec, hfile, hfun⟩ := h.filled i hi'
      refine ⟨ln, ?_, ?_, hfile, hfun⟩
      · dsimp only
        rw [List.getElem?_set_ne (Ne.symm heq)]
        exact hentry
      · rw [hrec, List.getElem_append_left hi']
  · intro i hge hlt'
    rw [List.length_append, List.length_singleton] at hge
    dsimp only
    rw [List.getElem?_set_ne (by omega)]
    exact h.unset i (by omega) hlt'

/-! ## The search for one address -/

/-- The search has recorded `count` lines after the `rs` that were there, within its capacity. -/
structure Searching (rs : List Record) (s : Search) (new : List Record) : Prop where
  base : s.base = rs.length
  room : s.base + s.maxLines = backtraceMax
  count : s.count = new.length
  le : s.count ≤ s.maxLines
  filled : Filled s.buf (rs ++ new)
  turns : s.asked.countP (· = .inliner) = new.length

variable {new : List Record}

theorem record_end (h : Searching rs s new) :
    s.base + s.count = ((rs ++ new).length : ℕ) := by
  rw [h.base, h.count, List.length_append]
  omega

/-- The queries of a turn follow those before it. -/
theorem lineTurn_asked {found : Bool} {locals' : LineInfo} {s' : Search}
    (ht : lineTurn bfd file section_ address locals s = (found, locals', s')) :
    s'.asked = s.asked ++ (if s.count = 0 then [.nearest section_ (address - section_.vma)] else []) ++
      [.inliner] := by
  have hs : s' = (lineTurn bfd file section_ address locals s).2.2 := by rw [ht]
  rw [hs]
  unfold lineTurn Search.ask
  by_cases h0 : s.count = 0 <;> simp [h0]

/-- A turn of the loop writes the output variables at the end of the search's lines. -/
theorem lineTurn_buf {found : Bool} {locals' : LineInfo} {s' : Search}
    (ht : lineTurn bfd file section_ address locals s = (found, locals', s')) :
    s'.base = s.base ∧ s'.buf = s.buf.record (s.base + s.count) address locals := by
  have hs : s' = (lineTurn bfd file section_ address locals s).2.2 := by rw [ht]
  rw [hs]
  unfold lineTurn Search.ask
  by_cases h0 : s.count = 0 <;> simp [h0]

/-- A turn of the loop records the output variables. -/
theorem searching_turn {found : Bool} {locals' : LineInfo} {s' : Search} (h : Searching rs s new)
    (hlt : s.count < s.maxLines)
    (ht : lineTurn bfd file section_ address locals s = (found, locals', s')) :
    Searching rs s' (new ++ [locals.toRecord address]) := by
  obtain ⟨hcount, hmax⟩ := lineTurn_count ht
  obtain ⟨hbase, hbuf⟩ := lineTurn_buf ht
  have hroom : (rs ++ new).length < backtraceMax := by
    have hend := record_end h
    have hr := h.room
    omega
  have hfilled := h.filled.record hroom address locals
  rw [← record_end h, List.append_assoc, ← hbuf] at hfilled
  refine ⟨hbase.trans h.base, ?_, ?_, ?_, hfilled, ?_⟩
  · rw [hbase, hmax]
    exact h.room
  · rw [hcount, h.count, List.length_append, List.length_singleton]
    rfl
  · omega
  · rw [lineTurn_asked ht, List.countP_append, List.countP_append, h.turns, List.length_append]
    by_cases h0 : s.count = 0 <;> simp [h0]

/-- The loop, one turn at a time. -/
theorem lineLoop_eq {found : Bool} {locals' : LineInfo} {s' : Search}
    (ht : lineTurn bfd file section_ address locals s = (found, locals', s')) :
    lineLoop bfd file section_ address locals s =
      if found = true ∧ s'.count < s'.maxLines then lineLoop bfd file section_ address locals' s'
      else s' := by
  rw [lineLoop]
  split
  next found₁ locals₁ s₁ ht₁ =>
    rw [ht] at ht₁
    cases ht₁
    rw [dite_eq_ite]

/-- The loop ends within the capacity. -/
theorem searching_loop (h : Searching rs s new) (hlt : s.count < s.maxLines) :
    ∃ more, Searching rs (lineLoop bfd file section_ address locals s) (new ++ more) := by
  induction locals, s using lineLoop.induct bfd file section_ address generalizing new with
  | case1 locals s found locals' s' ht hmore ih =>
    rw [lineLoop_eq ht, if_pos hmore]
    obtain ⟨more, hloop⟩ := ih (searching_turn h hlt ht) hmore.2
    rw [List.append_assoc] at hloop
    exact ⟨_, hloop⟩
  | case2 locals s found locals' s' ht hend =>
    rw [lineLoop_eq ht, if_neg hend]
    exact ⟨_, searching_turn h hlt ht⟩

/-- A section at which nothing has been found yet leaves the search as it is, or starts the loop. -/
theorem findAddressInSection_cases (bfd : BfdAnswers) (file : BacktraceFile) (garbage : LineInfo)
    (s : Search) (section_ : Section) :
    findAddressInSection bfd file garbage s section_ = s ∨
      (s.count ≤ 0 ∧ s.maxLines ≠ 0 ∧
        ∃ (address : Address) (locals : LineInfo) (query : LineQuery), query ≠ .inliner ∧
          findAddressInSection bfd file garbage s section_ =
            lineLoop bfd file section_ address locals (s.ask file query)) := by
  unfold findAddressInSection
  by_cases hguard : 0 < s.count ∨ s.maxLines = 0 ∨ section_.alloc = false
  · exact .inl (if_pos hguard)
  · rw [if_neg hguard]
    obtain ⟨hcount, hmax, -⟩ := not_or.mp hguard |>.imp_right not_or.mp
    dsimp only
    by_cases hlow : file.dl.address - file.dl.base < section_.vma
    · exact .inl (if_pos hlow)
    · rw [if_neg hlow]
      by_cases hhigh : section_.vma + section_.size ≤ file.dl.address - file.dl.base
      · exact .inl (if_pos hhigh)
      · rw [if_neg hhigh]
        exact .inr ⟨by omega, hmax, _, _, _, by simp, rfl⟩

theorem searching_ask {query : LineQuery} (h : Searching rs s new) (hq : query ≠ .inliner) :
    Searching rs (s.ask file query) new := by
  refine ⟨h.base, h.room, h.count, h.le, h.filled, ?_⟩
  show (s.asked ++ [query]).countP (· = .inliner) = new.length
  simp [List.countP_append, h.turns, hq]

theorem searching_section (h : Searching rs s new) (section_ : Section) :
    ∃ more, Searching rs (findAddressInSection bfd file garbage s section_) more := by
  obtain heq | ⟨hcount, hmax, address, locals, query, hq, heq⟩ :=
    findAddressInSection_cases bfd file garbage s section_
  · rw [heq]
    exact ⟨new, h⟩
  · rw [heq]
    have hlt : s.count < s.maxLines := by
      have hle := h.le
      have hc := h.count
      omega
    have hasked : Searching rs (s.ask file query) new := searching_ask h hq
    obtain ⟨more, hloop⟩ := searching_loop hasked hlt
    exact ⟨_, hloop⟩

theorem searching_sections (h : Searching rs s new) (sections : List Section) :
    ∃ more, Searching rs (sections.foldl (findAddressInSection bfd file garbage) s) more := by
  induction sections generalizing s new with
  | nil => exact ⟨new, h⟩
  | cons section_ sections ih =>
    obtain ⟨more, hmore⟩ := searching_section h section_
    exact ih hmore

theorem searching_start (h : Filled buf rs) (backoff : ℤ) (log : List (Use Res)) :
    Searching rs
      { count := 0, backoff := backoff, base := rs.length, maxLines := backtraceMax - rs.length, buf := buf,
        asked := [], log := log } [] := by
  have hle := h.le
  refine ⟨rfl, ?_, rfl, ?_, by rwa [List.append_nil], rfl⟩
  · dsimp only
    omega
  · dsimp only
    omega

/-- The lines of one address stay within the capacity. -/
theorem searching_getLineInfo (h : Filled buf rs) (bfd : BfdAnswers) (file : BacktraceFile)
    (garbage : LineInfo) (log : List (Use Res)) :
    ∃ new, Searching rs
      (getLineInfo bfd file garbage 1 buf rs.length (backtraceMax - rs.length) log) new :=
  searching_sections (searching_start h 1 _) bfd.sections

end DcPerf.Backtrace
