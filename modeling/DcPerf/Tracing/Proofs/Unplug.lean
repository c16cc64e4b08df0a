import DcPerf.Tracing.Unplug

/-!
# The slot status probes: each read is reported once

The maps mirror the stacks as long as no two tasks with one `tid` are in the handler.
-/

namespace DcPerf.Tracing.Unplug

open DcPerf.Library

variable {ι : Type}

/-- A `tid` other than 0 belongs to one task. -/
theorem task_eq_of_tid_eq {task task' : Task ι} (h : task'.tid = task.tid) (h0 : task.tid ≠ 0) :
    task' = task := by
  cases task with
  | idle cpu => exact absurd rfl h0
  | thread tid =>
    cases task' with
    | idle cpu => exact absurd h.symm h0
    | thread tid' => exact congrArg Task.thread (Subtype.ext h)

/-- A task that shares its `tid` is an idle task. -/
theorem eq_idle_of_tid_eq {task task' : Task ι} (h : task'.tid = task.tid) (hne : task' ≠ task) :
    ∃ cpu, task' = .idle cpu := by
  cases task' with
  | idle cpu => exact ⟨cpu, rfl⟩
  | thread tid =>
    have h0 : task.tid ≠ 0 := by
      rw [← h]
      exact tid.property
    exact absurd (task_eq_of_tid_eq h h0) hne

/-! ## Reads that return -/

theorem kretprobe_inIsr (m : Maps) (tid : Tid) (r : Return) :
    (kretprobePcieCapabilityReadWord m tid r).1.inIsr = m.inIsr := by
  unfold kretprobePcieCapabilityReadWord
  split <;> rfl

theorem kretprobe_sltstaPtr {m : Maps} {tid : Tid} (h : m.sltstaPtr tid ≠ some 0) (r : Return) :
    (kretprobePcieCapabilityReadWord m tid r).1.sltstaPtr tid = none := by
  unfold kretprobePcieCapabilityReadWord BpfMap.fetch
  split
  · exact BpfMap.delete_self
  · rename_i hzero
    cases hptr : m.sltstaPtr tid with
    | none => rfl
    | some p =>
      rw [hptr] at h
      simp [hptr] at hzero
      exact absurd (congrArg some hzero) h

/-! ## Stacks -/

/-- What the kernel leaves on the stack of a task. -/
def Proper (task : Task ι) : List Frame → Prop
  | [] => True
  | .pciehpIsr :: below => .pciehpIsr ∉ below ∧ Proper task below
  | .pcieCapabilityReadWord _ _ :: below =>
    ((below = [] ∧ ∀ cpu, task ≠ .idle cpu) ∨ ∃ rest, below = .pciehpIsr :: rest) ∧ Proper task below

theorem Proper.tail {task : Task ι} {f : Frame} {below : List Frame}
    (h : Proper task (f :: below)) : Proper task below := by
  cases f with
  | pciehpIsr => exact h.2
  | pcieCapabilityReadWord pos val => exact h.2

/-- In an idle task nothing runs but the handler. -/
theorem Proper.mem_of_idle {cpu : ι} {stk : List Frame} (h : Proper (.idle cpu) stk)
    (hne : stk ≠ []) : .pciehpIsr ∈ stk := by
  cases stk with
  | nil => exact absurd rfl hne
  | cons f below =>
    cases f with
    | pciehpIsr => exact List.mem_cons_self
    | pcieCapabilityReadWord pos val =>
      rcases h.1 with ⟨-, hidle⟩ | ⟨rest, rfl⟩
      · exact absurd rfl (hidle cpu)
      · simp

/-- The mark of the handler. -/
def isrMark : Frame → List Frame → Option (BitVec 64)
  | .pciehpIsr, _ => some 1
  | .pcieCapabilityReadWord _ _, _ => none

/-- The buffer of a slot status read that the handler makes. -/
def slotBuffer : Frame → List Frame → Option (BitVec 64)
  | .pciehpIsr, _ => none
  | .pcieCapabilityReadWord pos val, below =>
    if pos = 0x1a ∧ .pciehpIsr ∈ below then some val else none

variable {pos : BitVec 64} {val : {p : BitVec 64 // p ≠ 0}} {below : List Frame}

theorem isrMark_read : isrMark (.pcieCapabilityReadWord pos val) below = none := rfl

theorem slotBuffer_isr : slotBuffer .pciehpIsr below = none := rfl

/-- No buffer is at address 0. -/
theorem slotBuffer_ne_zero {f : Frame} : slotBuffer f below ≠ some 0 := by
  cases f with
  | pciehpIsr => simp [slotBuffer]
  | pcieCapabilityReadWord pos val =>
    intro h
    obtain ⟨-, hval⟩ := Option.ite_none_right_eq_some.mp h
    exact val.property (Option.some.inj hval)

theorem tracked_isrMark (stk : List Frame) :
    tracked isrMark stk = if .pciehpIsr ∈ stk then some 1 else none := by
  induction stk with
  | nil => rfl
  | cons f below ih =>
    cases f with
    | pciehpIsr => simp [tracked_cons, isrMark]
    | pcieCapabilityReadWord pos val => simp [tracked_cons, isrMark, ih]

/-- Outside the handler there is no slot status read. -/
theorem tracked_slotBuffer_none {stk : List Frame} (h : .pciehpIsr ∉ stk) :
    tracked slotBuffer stk = none := by
  refine tracked_eq_none.mpr ?_
  rintro above f below rfl
  cases f with
  | pciehpIsr => rfl
  | pcieCapabilityReadWord pos val =>
    refine if_neg fun hin => h ?_
    simp [hin.2]

/-- A read is never made during a slot status read of the same handler. -/
theorem Proper.below_read {task : Task ι} (h : Proper task (.pcieCapabilityReadWord pos val :: below)) :
    tracked slotBuffer below = none := by
  rcases h.1 with ⟨rfl, -⟩ | ⟨rest, rfl⟩
  · rfl
  · exact (tracked_cons_none slotBuffer_isr).trans (tracked_slotBuffer_none h.2.1)

theorem Proper.below_isr {task : Task ι} (h : Proper task (.pciehpIsr :: below)) :
    tracked isrMark below = none := by
  rw [tracked_isrMark, if_neg h.1]

theorem cases_of_mayRead {task : Task ι} {stk : List Frame} (h : mayRead task stk = true) :
    (∃ rest, stk = .pciehpIsr :: rest) ∨ (stk = [] ∧ ∀ cpu, task ≠ .idle cpu) := by
  rcases stk with - | ⟨f, rest⟩
  · cases task with
    | idle cpu => cases h
    | thread tid => exact .inr ⟨rfl, fun cpu hc => by cases hc⟩
  · cases f with
    | pciehpIsr => exact .inl ⟨rest, rfl⟩
    | pcieCapabilityReadWord pos val => cases h

/-! ## The invariant -/

/-- The maps mirror the stacks. -/
structure Mirrored (stk : Task ι → List Frame) (m : Maps) : Prop where
  proper : ∀ task, Proper task (stk task)
  exclusive : Exclusive Task.tid stk
  inIsr : Mirrors Task.tid (tracked isrMark) stk m.inIsr
  sltstaPtr : Mirrors Task.tid (tracked slotBuffer) stk m.sltstaPtr

section Mirrored

variable {stk : Task ι → List Frame} {m m' : Maps} {task : Task ι}

theorem mirrored_nil : Mirrored (fun _ : Task ι => []) .empty :=
  ⟨fun _ => trivial, exclusive_nil _, .empty _ _, .empty _ _⟩

/-- A thread is alone with its `tid`. -/
theorem alone_of_thread (ht : ∀ cpu, task ≠ .idle cpu) : Alone Task.tid stk task := by
  intro task' htid hne
  refine absurd (task_eq_of_tid_eq htid ?_) hne
  cases task with
  | idle cpu => exact absurd rfl (ht cpu)
  | thread tid => exact tid.property

/-- A task in which the handler is about to start is alone with its `tid`. -/
theorem Mirrored.alone_of_starts (h : Mirrored stk m)
    (hs : StartsAlone stk (.call task .pciehpIsr)) : Alone Task.tid stk task := by
  intro task' ht hne
  obtain ⟨cpu, rfl⟩ := eq_idle_of_tid_eq ht hne
  by_contra hbusy
  exact hne (hs _ ht ((h.proper _).mem_of_idle hbusy))

/-- The mark says whether the handler runs in the task. -/
theorem Mirrored.fetch_inIsr (h : Mirrored stk m) (ha : Alone Task.tid stk task) :
    m.inIsr.fetch task.tid ≠ 0 ↔ .pciehpIsr ∈ stk task := by
  rw [BpfMap.fetch, h.inIsr.read ha, tracked_isrMark]
  split <;> simp_all

/-- When the handler runs nowhere, the maps are empty. -/
theorem Mirrored.eq_empty (h : Mirrored stk m) (hall : ∀ task, .pciehpIsr ∉ stk task) :
    m = .empty := by
  have hisr := h.inIsr.eq_empty fun task => by
    rw [tracked_isrMark, if_neg (hall task), tracked_nil]
  have hptr := h.sltstaPtr.eq_empty fun task => tracked_slotBuffer_none (hall task)
  cases m
  cases hisr
  cases hptr
  rfl

variable [DecidableEq ι]

/-- One step of a task, with what it leaves in the maps. -/
theorem Mirrored.step (h : Mirrored stk m) (ha : Alone Task.tid stk task) {stk' : List Frame}
    (hp : Proper task stk')
    (hisr : ∀ k, k ≠ task.tid → m'.inIsr k = m.inIsr k)
    (hisr' : m'.inIsr task.tid = tracked isrMark stk')
    (hptr : ∀ k, k ≠ task.tid → m'.sltstaPtr k = m.sltstaPtr k)
    (hptr' : m'.sltstaPtr task.tid = tracked slotBuffer stk') :
    Mirrored (Function.update stk task stk') m' where
  proper := by
    intro t
    by_cases ht : t = task
    · rw [ht, Function.update_self]
      exact hp
    · rw [Function.update_of_ne ht]
      exact h.proper t
  exclusive := h.exclusive.update ha stk'
  inIsr := h.inIsr.update ha hisr hisr'
  sltstaPtr := h.sltstaPtr.update ha hptr hptr'

theorem Mirrored.call_isr (h : Mirrored stk m) (ha : Alone Task.tid stk task)
    (hnew : .pciehpIsr ∉ stk task) :
    Mirrored (Function.update stk task (.pciehpIsr :: stk task))
      (kprobePciehpIsr m task.tid) :=
  h.step ha ⟨hnew, h.proper task⟩ (fun _ hk => BpfMap.set_of_ne hk) BpfMap.set_self
    (fun _ _ => rfl) ((h.sltstaPtr.read ha).trans (tracked_cons_none slotBuffer_isr).symm)

theorem Mirrored.ret_isr (h : Mirrored stk m) (hs : stk task = .pciehpIsr :: below) :
    Mirrored (Function.update stk task below) (kretprobePciehpIsr m task.tid) := by
  have ha : Alone Task.tid stk task := h.exclusive task (by simp [hs])
  have hp := hs ▸ h.proper task
  refine h.step ha hp.tail (fun _ hk => BpfMap.delete_of_ne hk) ?_ (fun _ _ => rfl) ?_
  · exact BpfMap.delete_self.trans hp.below_isr.symm
  · exact (h.sltstaPtr.read ha).trans (by rw [hs, tracked_cons_none slotBuffer_isr])

theorem Mirrored.call_read (h : Mirrored stk m) (ha : Alone Task.tid stk task)
    (hp : Proper task (.pcieCapabilityReadWord pos val :: stk task)) :
    Mirrored (Function.update stk task (.pcieCapabilityReadWord pos val :: stk task))
      (kprobePcieCapabilityReadWord m task.tid pos val) := by
  have hisr : m.inIsr task.tid =
      tracked isrMark (.pcieCapabilityReadWord pos val :: stk task) :=
    (h.inIsr.read ha).trans (tracked_cons_none isrMark_read).symm
  unfold kprobePcieCapabilityReadWord
  simp only [h.fetch_inIsr ha, and_comm (b := pos = 0x1a)]
  split
  · rename_i hslot
    refine h.step ha hp (fun _ _ => rfl) hisr (fun _ hk => BpfMap.set_of_ne hk) ?_
    exact BpfMap.set_self.trans (tracked_cons_some (if_pos hslot)).symm
  · rename_i hother
    refine h.step ha hp (fun _ _ => rfl) hisr (fun _ _ => rfl) ?_
    exact (h.sltstaPtr.read ha).trans (tracked_cons_none (if_neg hother)).symm

theorem Mirrored.ret_read (h : Mirrored stk m)
    (hs : stk task = .pcieCapabilityReadWord pos val :: below) (r : Return) :
    Mirrored (Function.update stk task below) (kretprobePcieCapabilityReadWord m task.tid r).1 ∧
      (kretprobePcieCapabilityReadWord m task.tid r).2 =
        if pos = 0x1a ∧ .pciehpIsr ∈ below then [⟨r.nsecs, r.memory val, r.retval⟩] else [] := by
  have ha : Alone Task.tid stk task := h.exclusive task (by simp [hs])
  have hp := hs ▸ h.proper task
  have hisr : m.inIsr task.tid = tracked isrMark below := by
    rw [h.inIsr.read ha, hs]
    exact tracked_cons_none isrMark_read
  have hptr : m.sltstaPtr task.tid =
      if pos = 0x1a ∧ .pciehpIsr ∈ below then some val.val else none := by
    rw [h.sltstaPtr.read ha, hs, tracked_cons, hp.below_read, Option.or_none]
    rfl
  unfold kretprobePcieCapabilityReadWord BpfMap.fetch
  rw [hptr]
  by_cases hslot : pos = 0x1a ∧ .pciehpIsr ∈ below
  · simp only [if_pos hslot, Option.getD_some, val.property, ne_eq, not_false_eq_true, if_true,
      and_true]
    refine h.step ha hp.tail (fun _ _ => rfl) hisr (fun _ hk => BpfMap.delete_of_ne hk) ?_
    exact BpfMap.delete_self.trans hp.below_read.symm
  · simp only [if_neg hslot, Option.getD_none, ne_eq, not_true_eq_false, if_false, and_true]
    refine h.step ha hp.tail (fun _ _ => rfl) hisr (fun _ _ => rfl) ?_
    rw [hptr, if_neg hslot, hp.below_read]

/-- Every step of the kernel keeps the maps right, and is reported as it should be. -/
theorem Mirrored.event (h : Mirrored stk m) {e : Event ι} (he : Allowed stk e)
    (hx : StartsAlone stk e) : Mirrored (move stk e) (fire m e).1 ∧ (fire m e).2 = due stk e := by
  cases e with
  | call task f =>
    cases f with
    | pciehpIsr => exact ⟨h.call_isr (h.alone_of_starts hx) he, rfl⟩
    | pcieCapabilityReadWord pos val =>
      refine ⟨?_, rfl⟩
      rcases cases_of_mayRead he with ⟨rest, hs⟩ | ⟨hs, ht⟩
      · exact h.call_read (h.exclusive task (by simp [hs])) ⟨.inr ⟨rest, hs⟩, h.proper task⟩
      · exact h.call_read (alone_of_thread ht) ⟨.inl ⟨hs, ht⟩, h.proper _⟩
  | ret task f r =>
    obtain ⟨below, hs⟩ := List.head?_eq_some_iff.mp he
    have hmove : move stk (.ret task f r) = Function.update stk task below := by
      simp [move, hs]
    rw [hmove]
    cases f with
    | pciehpIsr => exact ⟨h.ret_isr hs, rfl⟩
    | pcieCapabilityReadWord pos val => simpa [fire, due, hs] using h.ret_read hs r

end Mirrored

/-! ## Histories -/

section Run

variable {evs : List (Event ι)} {e : Event ι}

theorem maps_snoc : maps (evs ++ [e]) = (fire (maps evs) e).1 := by
  simp [maps]

variable [DecidableEq ι]

theorem stackOf_snoc : stackOf (evs ++ [e]) = move (stackOf evs) e := by
  simp [stackOf]

/-- After a history whose handlers start alone the maps are right, and all its lines were. -/
theorem mirrored_run (hn : Nested evs) (hx : Always (fun pre e => StartsAlone (stackOf pre) e) evs) :
    Mirrored (stackOf evs) (maps evs) ∧
      Always (fun pre e => printed pre e = due (stackOf pre) e) evs := by
  induction evs using List.reverseRecOn with
  | nil => exact ⟨mirrored_nil, always_nil⟩
  | append_singleton evs e ih =>
    obtain ⟨hn, he⟩ := always_snoc.mp hn
    obtain ⟨hx, hex⟩ := always_snoc.mp hx
    obtain ⟨hm, hall⟩ := ih hn hx
    obtain ⟨hm', hline⟩ := hm.event he hex
    rw [stackOf_snoc, maps_snoc]
    exact ⟨hm', always_snoc.mpr ⟨hall, hline⟩⟩

/-- When no two runs of the handler that see one `tid` overlap, the tracing is faithful. -/
theorem faithful_of_startsAlone (hn : Nested evs)
    (hx : Always (fun pre e => StartsAlone (stackOf pre) e) evs) : Faithful evs := by
  refine ⟨(mirrored_run hn hx).2, fun pre hpre hall => ?_⟩
  exact (mirrored_run (hn.of_prefix hpre) (hx.of_prefix hpre)).1.eq_empty hall

/-! ## Two handlers at a time -/

/-- The mark of the handler in a task is gone. -/
structure Unmarked (evs : List (Event ι)) (task : Task ι) : Prop where
  handling : ∃ rest, stackOf evs task = .pciehpIsr :: rest
  inIsr : (maps evs).inIsr task.tid = none
  sltstaPtr : (maps evs).sltstaPtr task.tid = none

/-- A slot status read made without the mark is not reported. -/
theorem Unmarked.not_faithful {task : Task ι} (h : Unmarked evs task)
    (hn : Nested evs) (val : {p : BitVec 64 // p ≠ 0}) (r : Return) :
    Nested (evs ++ [.call task (.pcieCapabilityReadWord 0x1a val),
        .ret task (.pcieCapabilityReadWord 0x1a val) r]) ∧
      ¬Faithful (evs ++ [.call task (.pcieCapabilityReadWord 0x1a val),
        .ret task (.pcieCapabilityReadWord 0x1a val) r]) := by
  obtain ⟨rest, hs⟩ := h.handling
  have hstk : stackOf (evs ++ [.call task (.pcieCapabilityReadWord 0x1a val)]) task =
      .pcieCapabilityReadWord 0x1a val :: .pciehpIsr :: rest := by
    simp [stackOf_snoc, move, hs]
  have hmaps : maps (evs ++ [.call task (.pcieCapabilityReadWord 0x1a val)]) = maps evs := by
    rw [maps_snoc]
    simp [fire, kprobePcieCapabilityReadWord, BpfMap.fetch, h.inIsr]
  rw [show evs ++ [.call task (.pcieCapabilityReadWord 0x1a val),
      .ret task (.pcieCapabilityReadWord 0x1a val) r] =
    (evs ++ [.call task (.pcieCapabilityReadWord 0x1a val)]) ++
      [.ret task (.pcieCapabilityReadWord 0x1a val) r] by simp]
  constructor
  · refine always_snoc.mpr ⟨always_snoc.mpr ⟨hn, ?_⟩, ?_⟩
    · simp [Allowed, hs, mayRead]
    · rw [Allowed, hstk]
      rfl
  · rintro ⟨hlines, -⟩
    have hline := (always_snoc.mp hlines).2
    have hdue : due (stackOf (evs ++ [.call task (.pcieCapabilityReadWord 0x1a val)]))
        (.ret task (.pcieCapabilityReadWord 0x1a val) r) = [⟨r.nsecs, r.memory val, r.retval⟩] := by
      rw [due, hstk]
      simp
    rw [hdue, printed, hmaps] at hline
    simp [fire, kretprobePcieCapabilityReadWord, BpfMap.fetch, h.sltstaPtr] at hline

/-- A second handler with the same `tid` that returns takes the mark of the first away. -/
theorem unmarked_of_shared {task task' : Task ι} (hn : Nested (evs ++ [.call task .pciehpIsr]))
    (hm : Mirrored (stackOf evs) (maps evs)) (ht : task'.tid = task.tid)
    (hin : .pciehpIsr ∈ stackOf evs task') (hne : task' ≠ task) (r : Return) :
    ∃ more, (∀ x ∈ more, ∀ t, x ≠ .call t .pciehpIsr) ∧
      Nested (evs ++ [.call task .pciehpIsr] ++ more) ∧
      Unmarked (evs ++ [.call task .pciehpIsr] ++ more) task' := by
  set h₁ := evs ++ [.call task .pciehpIsr] ++ [.ret task .pciehpIsr r]
  have hbusy : stackOf evs task' ≠ [] := List.ne_nil_of_mem hin
  have ha : Alone Task.tid (stackOf evs) task' := hm.exclusive task' hbusy
  have hidle : stackOf evs task = [] := ha task ht.symm hne.symm
  have hn₁ : Nested h₁ := by
    refine always_snoc.mpr ⟨hn, ?_⟩
    simp [Allowed, stackOf_snoc, move]
  have hstk : stackOf h₁ task' = stackOf evs task' := by
    rw [stackOf_snoc, stackOf_snoc]
    simp [move, Function.update_of_ne hne]
  have hisr : (maps h₁).inIsr task'.tid = none := by
    rw [maps_snoc, ht]
    exact BpfMap.delete_self
  have hptr : (maps h₁).sltstaPtr task'.tid = tracked slotBuffer (stackOf evs task') := by
    rw [← hm.sltstaPtr.read ha, maps_snoc, maps_snoc]
    rfl
  rcases hs : stackOf evs task' with - | ⟨f, below⟩
  · exact absurd hs hbusy
  have hp := hs ▸ hm.proper task'
  rw [hs] at hstk hptr hin
  cases f with
  | pciehpIsr =>
    refine ⟨[.ret task .pciehpIsr r], by simp, hn₁, ⟨below, hstk⟩, hisr, ?_⟩
    exact (hptr.trans (tracked_cons_none slotBuffer_isr)).trans (tracked_slotBuffer_none hp.1)
  | pcieCapabilityReadWord pos val =>
    -- The first handler is in the middle of a read, which returns before it makes another.
    obtain ⟨rest, rfl⟩ : ∃ rest, below = .pciehpIsr :: rest := by
      rcases hp.1 with ⟨rfl, -⟩ | hrest
      · simp at hin
      · exact hrest
    have hsplit : evs ++ [.call task .pciehpIsr] ++
        [.ret task .pciehpIsr r, .ret task' (.pcieCapabilityReadWord pos val) r] =
        h₁ ++ [.ret task' (.pcieCapabilityReadWord pos val) r] := by
      simp [h₁]
    refine ⟨[.ret task .pciehpIsr r, .ret task' (.pcieCapabilityReadWord pos val) r], by simp, ?_⟩
    rw [hsplit]
    refine ⟨always_snoc.mpr ⟨hn₁, ?_⟩, ⟨rest, ?_⟩, ?_, ?_⟩
    · rw [Allowed, hstk]
      rfl
    · rw [stackOf_snoc, move, hstk]
      simp
    · rw [maps_snoc]
      exact (congrFun (kretprobe_inIsr _ _ r) _).trans hisr
    · rw [maps_snoc]
      refine kretprobe_sltstaPtr ?_ r
      rw [hptr, tracked_cons, hp.below_read, Option.or_none]
      exact slotBuffer_ne_zero

/-- The condition is no stronger than it has to be: a handler may start, if and only if all is faithful
however the handlers in progress go on. -/
theorem startsAlone_iff (hn : Nested (evs ++ [e]))
    (hx : Always (fun pre e => StartsAlone (stackOf pre) e) evs) :
    StartsAlone (stackOf evs) e ↔
      ∀ more, (∀ x ∈ more, ∀ task, x ≠ .call task .pciehpIsr) →
        Nested (evs ++ [e] ++ more) → Faithful (evs ++ [e] ++ more) := by
  constructor
  · intro he more hmore hn'
    refine faithful_of_startsAlone hn' (always_append (always_snoc.mpr ⟨hx, he⟩) ?_)
    rintro pre x post rfl
    cases x with
    | call task f =>
      cases f with
      | pciehpIsr => exact absurd rfl (hmore _ (by simp) task)
      | pcieCapabilityReadWord pos val => trivial
    | ret task f r => trivial
  · intro hall
    cases e with
    | ret task f r => trivial
    | call task f =>
      cases f with
      | pcieCapabilityReadWord pos val => trivial
      | pciehpIsr =>
        intro task' ht hin
        by_contra hne
        have hm := (mirrored_run (always_snoc.mp hn).1 hx).1
        obtain ⟨more, hmore, hn', hun⟩ := unmarked_of_shared hn hm ht hin hne default
        have hbad := hun.not_faithful hn' ⟨1, by decide⟩ default
        rw [List.append_assoc] at hbad
        refine hbad.2 (hall _ ?_ hbad.1)
        intro x hx t
        rcases List.mem_append.mp hx with hx | hx
        · exact hmore x hx t
        · rintro rfl
          simp at hx

end Run

/-! ## Example runs -/

/-- The buffer of the example runs. -/
def status : {p : BitVec 64 // p ≠ 0} := ⟨0xffff88, by decide⟩

/-- A return that finds the word `w` in memory. -/
def returnOf (w : BitVec 16) : Return := { nsecs := 0, retval := 0, memory := fun _ => w }

/-- An idle CPU and a thread are interrupted at the same time, both handlers read the status and
return. -/
def idleAndThread : List (Event Bool) :=
  [.call (.idle false) .pciehpIsr, .call (.thread ⟨7, by decide⟩) .pciehpIsr,
    .call (.idle false) (.pcieCapabilityReadWord 0x1a status),
    .call (.thread ⟨7, by decide⟩) (.pcieCapabilityReadWord 0x1a status),
    .ret (.idle false) (.pcieCapabilityReadWord 0x1a status) (returnOf 8),
    .ret (.thread ⟨7, by decide⟩) (.pcieCapabilityReadWord 0x1a status) (returnOf 0x100),
    .ret (.idle false) .pciehpIsr (returnOf 1), .ret (.thread ⟨7, by decide⟩) .pciehpIsr (returnOf 1)]

theorem faithful_idleAndThread : Nested idleAndThread ∧ Faithful idleAndThread := by
  have hn : Nested idleAndThread := by
    unfold Nested
    decide
  refine ⟨hn, faithful_of_startsAlone hn ?_⟩
  simp [idleAndThread, always_cons, StartsAlone, stackOf, move, Task.tid, Function.update_apply]
  rintro task' htid rfl
  cases htid

/-- Two idle CPUs are interrupted at the same time: when one handler returns, the mark of the other
is gone too, and its read is not reported. -/
def idleTwice : List (Event Bool) :=
  [.call (.idle false) .pciehpIsr, .call (.idle true) .pciehpIsr,
    .ret (.idle false) .pciehpIsr (returnOf 0),
    .call (.idle true) (.pcieCapabilityReadWord 0x1a status),
    .ret (.idle true) (.pcieCapabilityReadWord 0x1a status) (returnOf 8),
    .ret (.idle true) .pciehpIsr (returnOf 0)]

theorem idleTwice_not_faithful : Nested idleTwice ∧ ¬Faithful idleTwice := by
  constructor
  · unfold Nested
    decide
  · rintro ⟨h, -⟩
    have hread := h (idleTwice.take 4) _ (idleTwice.drop 5) rfl
    revert hread
    decide

end DcPerf.Tracing.Unplug
