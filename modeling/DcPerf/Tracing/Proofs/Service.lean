import DcPerf.Library.Words
import DcPerf.Tracing.Service

/-!
# The service probes: what is reported is true
-/

namespace DcPerf.Tracing.Service

open DcPerf.Library DcPerf.Library.Transit

variable {τ : Type} [DecidableEq τ] {m : BpfMap τ} {e : Event τ} {evs pre : List (Event τ)} {tid : τ} {f : Call}

/-- A leaf is reported where the map has a mark. -/
theorem enter_leaf (hf : f.function.IsLeaf) (m : BpfMap τ) (tid : τ) :
    enter m tid f = (m, kprobeLeaf m tid f.nsecs f.function) := by
  obtain ⟨function, arg1, ctrl, nsecs⟩ := f
  cases function with
  | pciehpIst => exact absurd rfl hf.1
  | pciehpDisableSlot => exact absurd rfl hf.2
  | _ => rfl

omit [DecidableEq τ] in
theorem due_leaf (hf : f.function.IsLeaf) (calls : τ → List Call) (tid : τ) :
    due calls (.call tid f) =
      if ∃ g ∈ calls tid, g.function = .pciehpIst then [.leaf f.nsecs f.function] else [] := by
  obtain ⟨function, arg1, ctrl, nsecs⟩ := f
  cases function with
  | pciehpIst => exact absurd rfl hf.1
  | pciehpDisableSlot => exact absurd rfl hf.2
  | _ => rfl

theorem fire_fst : (fire m e).1 = note istMark m e := by
  rcases e with ⟨tid, ⟨function, arg1, ctrl, nsecs⟩⟩ | ⟨tid, ⟨function, arg1, ctrl, nsecs⟩⟩
  all_goals cases function <;> rfl

/-- The map is what is noted of `pciehp_ist`. -/
theorem inIst_eq (evs : List (Event τ)) : inIst evs = noted istMark evs := by
  induction evs using List.reverseRecOn with
  | nil => rfl
  | append_singleton evs e ih =>
    have hsnoc : inIst (evs ++ [e]) = (fire (inIst evs) e).1 := by simp [inIst]
    rw [hsnoc, fire_fst, noted_snoc, ih]

theorem printed_leaf (hf : f.function.IsLeaf) (pre : List (Event τ)) (tid : τ) :
    printed pre (.call tid f) =
      if BpfMap.fetch (noted istMark pre) tid ≠ 0 then [.leaf f.nsecs f.function] else [] := by
  rw [printed, fire, enter_leaf hf, inIst_eq]
  rfl

/-- Where the script has lost sight of the service, it prints nothing for a leaf. -/
theorem printed_of_lostSight (h : Nested pre) (hl : LostSight pre e) : printed pre e = [] := by
  cases e with
  | call tid f =>
    rw [printed_leaf hl.1]
    exact if_neg (fetch_of_lostSight h hl.2)
  | ret tid f => exact hl.elim

/-- Elsewhere it prints what is due. -/
theorem printed_of_inSight (h : Nested pre) (hl : ¬LostSight pre e) :
    printed pre e = due (inProgress pre) e := by
  cases e with
  | call tid f =>
    by_cases hf : f.function.IsLeaf
    · have hsight : ¬Blind istMark pre tid := fun hblind => hl ⟨hf, hblind⟩
      rw [printed_leaf hf, due_leaf hf]
      exact if_congr (fetch_of_inSight h hsight) rfl rfl
    · obtain ⟨function, arg1, ctrl, nsecs⟩ := f
      cases function with
      | pciehpIst => rfl
      | pciehpDisableSlot =>
        have hlow : arg1 &&& 0xff = (arg1.setWidth 8).setWidth 64 := and_setWidth_allOnes (v := 8) arg1
        show [Line.disableSlot nsecs ctrl (arg1 &&& 0xff)] = _
        rw [hlow]
        rfl
      | _ => exact absurd ⟨by simp, by simp⟩ hf
  | ret tid f => rfl

/-- In every history, whatever the script prints of the service is due; it prints all that is due exactly
when no leaf is called where it has lost sight of the service; and it leaves nothing behind. -/
theorem service_reported_iff (h : Nested evs) :
    Always (fun pre e => printed pre e <+: due (inProgress pre) e) evs ∧
      (Always (fun pre e => printed pre e = due (inProgress pre) e) evs ↔
        Always (fun pre e => due (inProgress pre) e ≠ [] → ¬LostSight pre e) evs) ∧
      ∀ pre, pre <+: evs → (∀ tid, inProgress pre tid = []) → inIst pre = fun _ => none := by
  have hpre {pre : List (Event τ)} {e : Event τ} {post : List (Event τ)} (hevs : evs = pre ++ e :: post) :
      Nested pre := h.of_prefix ⟨_, hevs.symm⟩
  have hlost : Always (fun pre e => LostSight pre e → printed pre e = []) evs :=
    fun pre e post hevs => printed_of_lostSight (hpre hevs)
  have hseen : Always (fun pre e => ¬LostSight pre e → printed pre e = due (inProgress pre) e) evs :=
    fun pre e post hevs => printed_of_inSight (hpre hevs)
  obtain ⟨hsound, hcomplete⟩ := always_reported hlost hseen
  refine ⟨hsound, hcomplete, fun pre hp hidle => ?_⟩
  rw [inIst_eq, noted_eq_empty (h.of_prefix hp) hidle]

/-- A call of a function of the service. -/
def callOf (function : Function) : Call := ⟨function, 0x101, ⟨0x10, 3⟩, 0⟩

/-- Two controllers are served at the same time. -/
def twoServices : List (Event Bool) :=
  [.call true (callOf .pciehpIst), .call false (callOf .pciehpIst),
    .call true (callOf .pciehpHandlePresenceOrLinkChange), .call true (callOf .pciehpDisableSlot),
    .call false (callOf .pciehpHandleButtonPress), .ret true (callOf .pciehpDisableSlot),
    .ret true (callOf .pciehpHandlePresenceOrLinkChange), .ret true (callOf .pciehpIst),
    .ret false (callOf .pciehpHandleButtonPress), .ret false (callOf .pciehpIst)]

theorem service_reported_twoServices :
    Always (fun pre e => printed pre e <+: due (inProgress pre) e) twoServices ∧
      inIst twoServices = fun _ => none := by
  have hn : Nested twoServices := by decide
  obtain ⟨hsound, -, hempty⟩ := service_reported_iff hn
  exact ⟨hsound, hempty _ List.prefix_rfl (by decide)⟩

end DcPerf.Tracing.Service
