import DcPerf.Library.Words
import DcPerf.Tracing.Teardown

/-!
# The teardown probes: what is reported is true

What the maps hold for a thread is what an observer notes of `vp_del_vqs` and `pcie_flr`. A line is
missing only where a call of one of them has returned inside another call of it.
-/

namespace DcPerf.Tracing.Teardown

open DcPerf.Library DcPerf.Library.Transit

variable {τ : Type} [DecidableEq τ] {m : Maps τ} {e : Event τ} {evs pre : List (Event τ)} {tid : τ} {f : Call}

/-! ## The maps -/

/-- `pcie_flr` is followed by a mark, too. -/
def flrMark (f : Call) : Option (BitVec 64) := (flrDev f).map fun _ => 1

theorem fire_inVpDelVqs : (fire m e).1.inVpDelVqs = note delMark m.inVpDelVqs e := by
  rcases e with ⟨tid, ⟨function, arg0, arg1, arg2, at_⟩⟩ | ⟨tid, ⟨function, arg0, arg1, arg2, at_⟩⟩
  all_goals cases function <;> rfl

theorem fire_pcieFlrDev : (fire m e).1.pcieFlrDev = note flrDev m.pcieFlrDev e := by
  rcases e with ⟨tid, ⟨function, arg0, arg1, arg2, at_⟩⟩ | ⟨tid, ⟨function, arg0, arg1, arg2, at_⟩⟩
  all_goals cases function <;> rfl

theorem fire_inPcieFlr : (fire m e).1.inPcieFlr = note flrMark m.inPcieFlr e := by
  rcases e with ⟨tid, ⟨function, arg0, arg1, arg2, at_⟩⟩ | ⟨tid, ⟨function, arg0, arg1, arg2, at_⟩⟩
  all_goals cases function <;> rfl

/-- The maps are what is noted of the functions that are followed. -/
theorem maps_eq (evs : List (Event τ)) :
    maps evs = ⟨noted delMark evs, noted flrMark evs, noted flrDev evs⟩ := by
  induction evs using List.reverseRecOn with
  | nil => rfl
  | append_singleton evs e ih =>
    have hsnoc : maps (evs ++ [e]) = (fire (maps evs) e).1 := by simp [maps]
    have hdel := fire_inVpDelVqs (m := maps evs) (e := e)
    have hflr := fire_inPcieFlr (m := maps evs) (e := e)
    have hdev := fire_pcieFlrDev (m := maps evs) (e := e)
    rw [ih] at hdel hflr hdev
    rw [hsnoc, noted_snoc, noted_snoc, noted_snoc, ← hdel, ← hflr, ← hdev, ih]

theorem inVpDelVqs_eq : (maps pre).inVpDelVqs = noted delMark pre := by rw [maps_eq]

/-! ## The writes of `pcie_flr` -/

/-- The probe of the write asks for what is noted of `pcie_flr`. -/
theorem kprobeWrite_eq (tid : τ) (at_ : Stamp) (arg0 arg1 arg2 : BitVec 64) :
    kprobePcieCapabilityWriteWord (maps pre) tid at_ arg0 arg1 arg2 =
      if noted flrDev pre tid = some arg0 ∧ arg1 = 8 ∧ arg2.getLsbD 15 = true then
        [.flrSet at_ arg0 ((arg2.setWidth 16).setWidth 64)]
      else [] := by
  have hmark : noted flrMark pre tid = (noted flrDev pre tid).map fun _ => 1 := noted_map _ pre tid
  have hbit : arg2 &&& 0x8000 ≠ 0 ↔ arg2.getLsbD 15 = true := by
    have hzero : arg2 &&& BitVec.twoPow 64 15 = 0 ↔ arg2.getLsbD 15 = false :=
      and_twoPow_eq_zero (by decide)
    rw [← Bool.not_eq_false, ← hzero]
    rfl
  have hlow : arg2 &&& 0xffff = (arg2.setWidth 16).setWidth 64 := and_setWidth_allOnes (v := 16) arg2
  have hcond : (maps pre).inPcieFlr.fetch tid ≠ 0 ∧ arg0 = (maps pre).pcieFlrDev.fetch tid ↔
      noted flrDev pre tid = some arg0 := by
    rw [maps_eq]
    show (noted flrMark pre tid).getD 0 ≠ 0 ∧ arg0 = (noted flrDev pre tid).getD 0 ↔ _
    rw [hmark]
    cases noted flrDev pre tid with
    | none => simp
    | some dev => simp [eq_comm]
  unfold kprobePcieCapabilityWriteWord
  rw [hlow]
  refine if_congr ?_ rfl rfl
  rw [← and_assoc, hcond, hbit]

/-! ## Reports -/

/-- Where the script has lost sight of a call, it prints nothing for it. -/
theorem printed_of_lostSight (h : Nested pre) (hl : LostSight pre e) : printed pre e = [] := by
  rcases e with ⟨tid, ⟨function, arg0, arg1, arg2, at_⟩⟩ | ⟨tid, f⟩
  · cases function with
    | vpDelVqs | pcieFlr => exact hl.elim
    | freeIrq | vringDelVirtqueue =>
      have hlost := fetch_of_lostSight h hl
      rw [← delMark, ← inVpDelVqs_eq] at hlost
      exact if_neg hlost
    | pcieCapabilityWriteWord =>
      show kprobePcieCapabilityWriteWord (maps pre) tid at_ arg0 arg1 arg2 = []
      rw [kprobeWrite_eq, noted_of_blind h hl]
      exact if_neg fun hcond => nomatch hcond.1
  · exact hl.elim

/-- Elsewhere it prints what is due. -/
theorem printed_of_inSight (h : Nested pre) (hl : ¬LostSight pre e) :
    printed pre e = due (inProgress pre) e := by
  rcases e with ⟨tid, ⟨function, arg0, arg1, arg2, at_⟩⟩ | ⟨tid, f⟩
  · cases function with
    | vpDelVqs | pcieFlr => rfl
    | freeIrq | vringDelVirtqueue =>
      have hscope := fetch_of_inSight h hl
      rw [← delMark, ← inVpDelVqs_eq] at hscope
      exact if_congr hscope rfl rfl
    | pcieCapabilityWriteWord =>
      show kprobePcieCapabilityWriteWord (maps pre) tid at_ arg0 arg1 arg2 = _
      rw [kprobeWrite_eq, noted_of_not_blind h hl]
      rfl
  · rfl

/-- In every history, whatever the script prints is due; it prints all that is due exactly when nothing is
due of a call that it has lost sight of; and it leaves nothing behind in its maps. -/
theorem teardown_reported_iff (h : Nested evs) :
    Always (fun pre e => printed pre e <+: due (inProgress pre) e) evs ∧
      (Always (fun pre e => printed pre e = due (inProgress pre) e) evs ↔
        Always (fun pre e => due (inProgress pre) e ≠ [] → ¬LostSight pre e) evs) ∧
      ∀ pre, pre <+: evs → (∀ tid, inProgress pre tid = []) → maps pre = .empty := by
  have hpre {pre : List (Event τ)} {e : Event τ} {post : List (Event τ)} (hevs : evs = pre ++ e :: post) :
      Nested pre := h.of_prefix ⟨_, hevs.symm⟩
  have hlost : Always (fun pre e => LostSight pre e → printed pre e = []) evs :=
    fun pre e post hevs => printed_of_lostSight (hpre hevs)
  have hseen : Always (fun pre e => ¬LostSight pre e → printed pre e = due (inProgress pre) e) evs :=
    fun pre e post hevs => printed_of_inSight (hpre hevs)
  obtain ⟨hsound, hcomplete⟩ := always_reported hlost hseen
  refine ⟨hsound, hcomplete, fun pre hp hidle => ?_⟩
  have hn : Nested pre := h.of_prefix hp
  rw [maps_eq, noted_eq_empty hn hidle, noted_eq_empty hn hidle, noted_eq_empty hn hidle]
  rfl

/-- A call at some moment. -/
def callOf (function : Function) (arg0 arg1 arg2 : BitVec 64) : Call := ⟨function, arg0, arg1, arg2, ⟨0, "", 0⟩⟩

/-- One thread frees its queues while another resets a function. -/
def freeAndReset : List (Event Bool) :=
  [.call true (callOf .vpDelVqs 0x40 0 0), .call false (callOf .pcieFlr 0x80 0 0),
    .call true (callOf .freeIrq 5 0 0), .call false (callOf .pcieCapabilityWriteWord 0x80 8 0x8010),
    .ret true (callOf .freeIrq 5 0 0), .ret true (callOf .vpDelVqs 0x40 0 0),
    .ret false (callOf .pcieCapabilityWriteWord 0x80 8 0x8010), .ret false (callOf .pcieFlr 0x80 0 0)]

theorem teardown_reported_freeAndReset :
    Always (fun pre e => printed pre e <+: due (inProgress pre) e) freeAndReset ∧
      maps freeAndReset = .empty := by
  have hn : Nested freeAndReset := by decide
  obtain ⟨hsound, -, hempty⟩ := teardown_reported_iff hn
  exact ⟨hsound, hempty _ List.prefix_rfl (by decide)⟩

/-- A reset of one function inside the reset of another: after the inner one the outer one is lost. -/
example :
    let pre : List (Event Unit) := [.call () (callOf .pcieFlr 0x80 0 0), .call () (callOf .pcieFlr 0x90 0 0),
      .ret () (callOf .pcieFlr 0x90 0 0)]
    let e : Event Unit := .call () (callOf .pcieCapabilityWriteWord 0x80 8 0x8000)
    printed pre e = [] ∧ due (inProgress pre) e ≠ [] := by decide

end DcPerf.Tracing.Teardown
