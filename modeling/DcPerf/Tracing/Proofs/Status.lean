import DcPerf.Library.Words
import DcPerf.Tracing.Status

/-!
# The status probes: every milestone once per reset

For each device the maps remember its latest reset and what it has reached since.
-/

namespace DcPerf.Tracing.Status

open DcPerf.Library

variable {m : Maps} {e : Event} {milestone milestone' : Milestone} {mdev : BitVec 64}

/-! ## Bits -/

/-- The mask of a milestone in its probe. -/
def Milestone.mask (milestone : Milestone) : BitVec 64 := BitVec.twoPow 64 milestone.bit

theorem Milestone.bit_lt (milestone : Milestone) : milestone.bit < 8 := by
  cases milestone <;> decide

theorem and_mask_eq_zero :
    e.status &&& milestone.mask = 0 ↔ e.status.getLsbD milestone.bit = false :=
  and_twoPow_eq_zero (by have := milestone.bit_lt; omega)

theorem resets_iff : e.Resets ↔ e.status.setWidth 8 = 0 := by
  have hmask : e.status &&& 0xff = (e.status.setWidth 8).setWidth 64 :=
    and_setWidth_allOnes (v := 8) e.status
  rw [Event.Resets, hmask]
  constructor
  · intro h
    have h' := congrArg (BitVec.setWidth 8) h
    simpa using h'
  · intro h
    rw [h]
    rfl

/-- A reset reaches nothing. -/
theorem Event.Resets.bit_eq_false (h : e.Resets) (milestone : Milestone) :
    e.status.getLsbD milestone.bit = false := by
  have hlow := congrArg (fun x => x.getLsbD milestone.bit) (resets_iff.mp h)
  simpa [milestone.bit_lt] using hlow

/-! ## Maps -/

/-- The script has seen the device reach the milestone. -/
def Maps.Seen (m : Maps) (mdev : BitVec 64) (milestone : Milestone) : Prop :=
  (m.seen milestone).fetch mdev ≠ 0

instance (m : Maps) (mdev : BitVec 64) (milestone : Milestone) :
    Decidable (m.Seen mdev milestone) :=
  inferInstanceAs (Decidable (_ ≠ _))

theorem setSeen_seen (v : BitVec 64) : (m.setSeen mdev v milestone').seen milestone =
    if milestone = milestone' then (m.seen milestone).set mdev v else m.seen milestone := by
  cases milestone <;> cases milestone' <;> rfl

@[simp] theorem setSeen_resetNs (v : BitVec 64) :
    (m.setSeen mdev v milestone).resetNs = m.resetNs := by
  cases milestone <;> rfl

@[simp] theorem linesFor_append (l l' : List Line) :
    linesFor mdev milestone (l ++ l') = linesFor mdev milestone l ++ linesFor mdev milestone l' :=
  List.filter_append ..

/-! ## The reset probe -/

theorem kprobeReset_seen :
    (kprobeReset m e).1.Seen mdev milestone ↔ m.Seen mdev milestone ∧ ¬e.ResetsDevice mdev := by
  unfold kprobeReset Event.ResetsDevice
  rw [← resets_iff]
  by_cases hd : mdev = e.mdev
  · subst hd
    split
    · cases milestone <;> simp_all [Maps.Seen, Maps.seen, BpfMap.fetch]
    · simp_all
  · have hne : e.mdev ≠ mdev := Ne.symm hd
    split
    · cases milestone <;> simp [Maps.Seen, Maps.seen, BpfMap.fetch, BpfMap.set_of_ne hd, hne]
    · simp [hne]

theorem kprobeReset_resetNs (hr : ¬e.ResetsDevice mdev) :
    (kprobeReset m e).1.resetNs mdev = m.resetNs mdev := by
  unfold kprobeReset
  unfold Event.ResetsDevice at hr
  rw [← resets_iff] at hr
  split
  · rename_i hres
    refine BpfMap.set_of_ne ?_
    rintro rfl
    exact hr ⟨rfl, hres⟩
  · rfl

theorem kprobeReset_resetNs_self (hr : e.ResetsDevice mdev) :
    (kprobeReset m e).1.resetNs mdev = some e.resetClock.first.val := by
  obtain ⟨rfl, hres⟩ := hr
  unfold kprobeReset
  rw [if_pos (resets_iff.mpr hres)]
  exact BpfMap.set_self

@[simp] theorem linesFor_kprobeReset : linesFor mdev milestone (kprobeReset m e).2 = [] := by
  unfold kprobeReset
  split <;> simp [linesFor]

/-! ## The milestone probes -/

/-- What a milestone probe prints when it fires. -/
def reachedLine (m : Maps) (e : Event) (milestone : Milestone) : Line :=
  let deltaMs := if m.resetNs.fetch e.mdev ≠ 0 then
      ((e.clock milestone).later.val - m.resetNs.fetch e.mdev) / 1000000
    else 0
  .reached milestone ⟨(e.clock milestone).first, e.comm, e.pid⟩ (e.status &&& 0xff) deltaMs e.mdev
    e.pciDev

/-- A probe fires at the first call that reaches its milestone. -/
theorem kprobeMilestone_eq : kprobeMilestone milestone milestone.mask m e =
    if e.Reaches e.mdev milestone ∧ ¬m.Seen e.mdev milestone then
      (m.setSeen e.mdev 1 milestone, [reachedLine m e milestone])
    else
      (m, []) := by
  have hcond : (e.status &&& milestone.mask ≠ 0 ∧ (m.seen milestone).fetch e.mdev = 0) ↔
      e.Reaches e.mdev milestone ∧ ¬m.Seen e.mdev milestone := by
    rw [Ne, and_mask_eq_zero, Bool.not_eq_false, Event.Reaches, Maps.Seen, not_not]
    simp
  unfold kprobeMilestone reachedLine
  simp only [hcond, setSeen_resetNs]

theorem kprobeMilestone_seen :
    (kprobeMilestone milestone' milestone'.mask m e).1.Seen mdev milestone ↔
      m.Seen mdev milestone ∨ (milestone = milestone' ∧ e.Reaches mdev milestone) := by
  rw [kprobeMilestone_eq]
  split
  · rename_i hfires
    rw [Maps.Seen, setSeen_seen]
    by_cases hm : milestone = milestone'
    · subst hm
      by_cases hd : mdev = e.mdev
      · subst hd
        simp [BpfMap.fetch, hfires.1]
      · have hne : ¬e.Reaches mdev milestone := fun h => hd h.1.symm
        simp [BpfMap.fetch, BpfMap.set_of_ne hd, hne, Maps.Seen]
    · simp [hm, Maps.Seen]
  · rename_i hno
    refine (or_iff_left_of_imp ?_).symm
    rintro ⟨rfl, hreach⟩
    by_contra hseen
    obtain rfl := hreach.1
    exact hno ⟨hreach, hseen⟩

@[simp] theorem kprobeMilestone_resetNs :
    (kprobeMilestone milestone milestone.mask m e).1.resetNs = m.resetNs := by
  rw [kprobeMilestone_eq]
  split <;> simp

theorem linesFor_kprobeMilestone :
    linesFor mdev milestone (kprobeMilestone milestone' milestone'.mask m e).2 =
      if milestone = milestone' ∧ e.Reaches mdev milestone ∧ ¬m.Seen mdev milestone then
        [reachedLine m e milestone]
      else
        [] := by
  rw [kprobeMilestone_eq]
  by_cases hfires : e.Reaches e.mdev milestone' ∧ ¬m.Seen e.mdev milestone'
  · rw [if_pos hfires]
    by_cases hline : milestone = milestone' ∧ e.mdev = mdev
    · obtain ⟨rfl, rfl⟩ := hline
      rw [if_pos ⟨rfl, hfires⟩]
      simp [linesFor, reachedLine]
    · rw [if_neg fun h => hline ⟨h.1, h.2.1.1⟩]
      have hline' : milestone' = milestone → e.mdev ≠ mdev :=
        fun hm hd => hline ⟨hm.symm, hd⟩
      simpa [linesFor, reachedLine] using hline'
  · rw [if_neg hfires, if_neg]
    · rfl
    · rintro ⟨rfl, hreach, hseen⟩
      obtain rfl := hreach.1
      exact hfires ⟨hreach, hseen⟩

/-! ## All probes -/

theorem kprobeAck_eq : kprobeAck = kprobeMilestone .ack Milestone.ack.mask := rfl

theorem kprobeDriver_eq : kprobeDriver = kprobeMilestone .driver Milestone.driver.mask := rfl

theorem kprobeFeaturesOk_eq :
    kprobeFeaturesOk = kprobeMilestone .featuresOk Milestone.featuresOk.mask := rfl

theorem kprobeDriverOk_eq : kprobeDriverOk = kprobeMilestone .driverOk Milestone.driverOk.mask := rfl

/-- A call that reaches a milestone is no reset. -/
theorem Event.Reaches.not_resets (h : e.Reaches mdev milestone) : ¬e.ResetsDevice mdev := by
  rintro ⟨-, hres⟩
  have hbit := (resets_iff.mpr hres).bit_eq_false milestone
  rw [h.2] at hbit
  cases hbit

theorem fire_seen : (fire m e).1.Seen mdev milestone ↔
    (m.Seen mdev milestone ∧ ¬e.ResetsDevice mdev) ∨ e.Reaches mdev milestone := by
  simp only [fire, kprobeAck_eq, kprobeDriver_eq, kprobeFeaturesOk_eq, kprobeDriverOk_eq,
    kprobeMilestone_seen, kprobeReset_seen]
  cases milestone <;> simp

theorem fire_resetNs : (fire m e).1.resetNs = (kprobeReset m e).1.resetNs := by
  simp [fire, kprobeAck_eq, kprobeDriver_eq, kprobeFeaturesOk_eq, kprobeDriverOk_eq]

theorem reachedLine_congr {m' : Maps} (h : m'.resetNs e.mdev = m.resetNs e.mdev) :
    reachedLine m' e milestone = reachedLine m e milestone := by
  unfold reachedLine BpfMap.fetch
  rw [h]

/-- A milestone is reported when the call reaches it and it was not seen before. -/
theorem linesFor_fire : linesFor mdev milestone (fire m e).2 =
    if e.Reaches mdev milestone ∧ ¬m.Seen mdev milestone then [reachedLine m e milestone] else [] := by
  by_cases hreach : e.Reaches mdev milestone
  · have hres := hreach.not_resets
    have hns : (kprobeReset m e).1.resetNs e.mdev = m.resetNs e.mdev := by
      obtain rfl := hreach.1
      exact kprobeReset_resetNs hres
    have hline : ∀ m', m'.resetNs = (kprobeReset m e).1.resetNs →
        reachedLine m' e milestone = reachedLine m e milestone :=
      fun m' h => reachedLine_congr (by rw [h, hns])
    simp only [fire, kprobeAck_eq, kprobeDriver_eq, kprobeFeaturesOk_eq, kprobeDriverOk_eq,
      linesFor_append, linesFor_kprobeReset, linesFor_kprobeMilestone, kprobeMilestone_seen,
      kprobeReset_seen, hres, hreach]
    cases milestone <;> simp [hline]
  · simp [fire, kprobeAck_eq, kprobeDriver_eq, kprobeFeaturesOk_eq, kprobeDriverOk_eq,
      linesFor_kprobeMilestone, hreach]

/-! ## Runs -/

variable {mid : List Event} {reset : Event}

theorem maps_snoc (evs : List Event) (e : Event) : maps (evs ++ [e]) = (fire (maps evs) e).1 := by
  simp [maps]

/-- Since the latest reset of a device, the maps have its time and what the device has reached. -/
theorem maps_since_reset (pre : List Event) (hreset : reset.ResetsDevice mdev)
    (hmid : ∀ x ∈ mid, ¬x.ResetsDevice mdev) :
    (maps (pre ++ reset :: mid)).resetNs mdev = some reset.resetClock.first.val ∧
      ∀ milestone, (maps (pre ++ reset :: mid)).Seen mdev milestone ↔
        ∃ x ∈ mid, x.Reaches mdev milestone := by
  induction mid using List.reverseRecOn with
  | nil =>
    rw [maps_snoc]
    refine ⟨?_, fun milestone => ?_⟩
    · rw [fire_resetNs]
      exact kprobeReset_resetNs_self hreset
    · have hreach : ¬reset.Reaches mdev milestone := fun h => h.not_resets hreset
      rw [fire_seen]
      simp [hreset, hreach]
  | append_singleton mid e ih =>
    have he : ¬e.ResetsDevice mdev := hmid e (by simp)
    obtain ⟨hns, hseen⟩ := ih fun x hx => hmid x (by simp [hx])
    rw [← List.cons_append, ← List.append_assoc, maps_snoc]
    refine ⟨?_, fun milestone => ?_⟩
    · rw [fire_resetNs, kprobeReset_resetNs he, hns]
    · rw [fire_seen, hseen]
      simp [he, or_and_right, exists_or]

/-- A line that is printed reports the time since the reset. -/
theorem reachedLine_reports (hd : e.mdev = mdev)
    (hns : m.resetNs mdev = some reset.resetClock.first.val) :
    Reports (reachedLine m e milestone) milestone reset e := by
  refine ⟨_, rfl, fun hle => ?_⟩
  have hfetch : m.resetNs.fetch e.mdev = reset.resetClock.first.val := by
    rw [BpfMap.fetch, hd, hns]
    rfl
  rw [hfetch, if_pos reset.resetClock.first.property, BitVec.toNat_udiv, BitVec.toNat_sub_of_le hle]
  rfl

/-- Whatever is written to whichever devices, every milestone is reported once per reset, at the first
write that reaches it. -/
theorem reportedOnce_run (evs : List Event) (mdev : BitVec 64) (milestone : Milestone) :
    ReportedOnce evs mdev milestone := by
  intro pre reset mid e post _ hreset hmid
  obtain ⟨hns, hseen⟩ := maps_since_reset pre hreset hmid
  simp only [printed, linesFor_fire, hseen, not_exists, not_and]
  split
  · rename_i hfirst
    exact ⟨_, rfl, reachedLine_reports hfirst.1.1 hns⟩
  · rfl

end DcPerf.Tracing.Status
