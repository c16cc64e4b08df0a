import DcPerf.LiveUpdate.Proofs.Handover

/-!
# The handover in every run

Every function keeps a controller at every point of every run, whichever RPC fails, and the NVMe
path keeps the handover order. The VBLK path does not: it sends the live update suspend before the
passive controller is there.
-/

namespace DcPerf.LiveUpdate

open DcPerf.Library

/-! ## The order of the plan -/

section Order

variable {q q' : Cmd → Bool} {src : Source} {c : String}

/-- The order of the VBLK blocks is the order of the plan. -/
theorem vblk_follows (hq : ∀ cmd, q cmd = true → cmd.rpc.isVblk = true)
    (hblock : ∀ isVf i ctrl, Always (Follows q q')
      (handVblkOver i ctrl ++ if isVf = true then [destroyVblkCtrlCmd i (some "force")] else []))
    (hfinal : ∀ i ctrl, q (destroyVblkCtrlCmd i none) = true →
      ∃ x ∈ handVblkOver i ctrl, q' x = true) : Always (Follows q q') (fixedCmds src) := by
  refine always_after_iff.mp (Always.append (stable_follows _ _) ?_ ?_)
  · rw [vblkPlan_eq]
    refine Always.flatMap (stable_follows _ _) fun pf _ => ?_
    refine always_pfBlocks (stable_follows _ _) pf (fun isVf i => always_after_iff.mpr ?_)
      fun isVf i l => always_after_of_exists ?_
    · rw [vblkCtrlPlan_fixed]
      cases (managerOf src).vblkCtrlDict.lookup i with
      | none => exact always_nil
      | some ctrl => exact hblock isVf i ctrl
    · rw [destroyVblkPlan_fixed, List.filterMap_append, vblkCtrlPlan_fixed]
      cases (managerOf src).vblkCtrlDict.lookup i with
      | none => simp
      | some ctrl =>
        rintro ⟨x, hx, hqx⟩
        rw [List.mem_singleton.mp hx] at hqx
        obtain ⟨y, hy, hq'⟩ := hfinal i ctrl hqx
        exact ⟨y, List.mem_append_left _ (List.mem_append_left _ hy), hq'⟩
  · refine always_after_of_not fun a ha cmd hc => ?_
    obtain ⟨i, -, hact⟩ := mem_nvmePlan ha
    by_contra hne
    simpa [hact.isVblk hc] using hq cmd (by simpa using hne)

/-- The commands that remove an NVMe controller from the source. -/
def removeNvme (i : String) (ctrl : NvmeCtrl) : List Cmd :=
  (ctrl.namespaces.map fun ns => detachNvmeNsCmd i ns.nsid) ++ [destroyNvmeControllerCmd i]

/-- The order of the NVMe blocks is the order of the plan. -/
theorem nvme_follows (hq : ∀ cmd, q cmd = true → cmd.rpc.isVblk = false)
    (hblock : ∀ isVf ctrl, Always (Follows q q')
      (handNvmeOver ctrl ++ if isVf = true then removeNvme ctrl.ctrlId ctrl else []))
    (hfinal : ∀ ctrl, (∃ x ∈ removeNvme ctrl.ctrlId ctrl, q x = true) →
      ∃ x ∈ handNvmeOver ctrl, q' x = true) : Always (Follows q q') (fixedCmds src) := by
  refine always_after_iff.mp (Always.append (stable_follows _ _) ?_ ?_)
  · refine always_after_of_not fun a ha cmd hc => ?_
    obtain ⟨i, -, hact⟩ := mem_vblkPlan ha
    by_contra hne
    simpa [hact.isVblk hc] using hq cmd (by simpa using hne)
  · rw [nvmePlan_eq]
    refine Always.flatMap (stable_follows _ _) fun pf _ => ?_
    refine always_pfBlocks (stable_follows _ _) pf (fun isVf i => always_after_iff.mpr ?_)
      fun isVf i l => always_after_of_exists ?_
    · rw [nvmeCtrlPlan_fixed, cleanupNvmePlan_fixed]
      cases hc : (managerOf src).nvmeCtrlDict.lookup i with
      | none => exact always_nil
      | some ctrl =>
        obtain rfl := ctrlId_of_lookup hc
        exact hblock isVf ctrl
    · rw [cleanupNvmePlan_fixed, List.filterMap_append, nvmeCtrlPlan_fixed]
      cases hc : (managerOf src).nvmeCtrlDict.lookup i with
      | none => simp
      | some ctrl =>
        obtain rfl := ctrlId_of_lookup hc
        intro hx
        obtain ⟨y, hy, hq'⟩ := hfinal ctrl hx
        exact ⟨y, List.mem_append_left _ (List.mem_append_left _ hy), hq'⟩

/-! ### VBLK -/

theorem suspendVblkCtrlCmd_rpc (i : String) : (suspendVblkCtrlCmd i (some "events_only")).rpc =
    .virtioBlkControllerSuspend i none (some "--events_only") := rfl

theorem isVblk_of_destroysVblk {k : Sock} {cmd : Cmd} (h : cmd.is k (Rpc.destroysVblk c) = true) :
    cmd.rpc.isVblk = true := by
  have hp := is_rpc h
  cases hr : cmd.rpc <;> simp_all [Rpc.destroysVblk, Rpc.isVblk]

theorem isVblk_of_createsVblk {k : Sock} {cmd : Cmd} (h : cmd.is k (Rpc.createsVblk c) = true) :
    cmd.rpc.isVblk = true := by
  have hp := is_rpc h
  cases hr : cmd.rpc <;> simp_all [Rpc.createsVblk, Rpc.isVblk]

theorem destroysVblk_follows (src : Source) (c : String) :
    Always (Follows (Cmd.is .src (Rpc.destroysVblk c)) (Cmd.is .dst (Rpc.createsVblk c)))
      (fixedCmds src) := by
  have hdestroy (i : String) (ctrl : VblkCtrl) (params : Option String)
      (h : Cmd.is .src (Rpc.destroysVblk c) (destroyVblkCtrlCmd i params) = true) :
      ∃ x ∈ handVblkOver i ctrl, Cmd.is .dst (Rpc.createsVblk c) x = true := by
    have hi : i = c := by simpa [Cmd.is, Rpc.destroysVblk, destroyVblkCtrlCmd] using h
    exact ⟨restoreVblkControllerCmd i ctrl, by simp [handVblkOver],
      by simp [Cmd.is, Rpc.createsVblk, restoreVblkControllerCmd, hi]⟩
  refine vblk_follows (fun cmd h => isVblk_of_destroysVblk h) (fun isVf i ctrl => ?_)
    fun i ctrl h => hdestroy i ctrl none h
  refine follows_append ?_ ?_
  · simp [handVblkOver, Cmd.is, Rpc.destroysVblk, suspendVblkCtrlCmd, cleanupVblkControllerCmd,
      restoreVblkControllerCmd]
  · rintro ⟨x, hx, hq⟩
    cases isVf with
    | false => simp at hx
    | true =>
      rw [if_pos rfl, List.mem_singleton] at hx
      subst hx
      exact hdestroy i ctrl _ hq

/-- The passive VBLK controller is created after both suspends. -/
theorem createsVblk_follows (src : Source) (c : String) :
    Always (Follows (Cmd.is .dst (Rpc.createsVblk c)) (Cmd.is .src (Rpc.quietsVblk c)))
      (fixedCmds src) ∧
    Always (Follows (Cmd.is .dst (Rpc.createsVblk c)) (Cmd.is .src (Rpc.suspendsVblk c)))
      (fixedCmds src) := by
  have hcreate (i : String) (ctrl : VblkCtrl) (l : List Cmd)
      (hl : ∀ x ∈ l, Cmd.is .dst (Rpc.createsVblk c) x = false)
      (h : ∃ x ∈ restoreVblkControllerCmd i ctrl :: l, Cmd.is .dst (Rpc.createsVblk c) x = true) :
      i = c := by
    obtain ⟨x, hx, hq⟩ := h
    rcases List.mem_cons.mp hx with rfl | hx
    · simpa [Cmd.is, Rpc.createsVblk, restoreVblkControllerCmd] using hq
    · simp [hl x hx] at hq
  have hrest (isVf : Bool) (i : String) :
      ∀ x ∈ (if isVf = true then [destroyVblkCtrlCmd i (some "force")] else []),
        Cmd.is .dst (Rpc.createsVblk c) x = false := by
    cases isVf <;> simp [Cmd.is, destroyVblkCtrlCmd]
  have hfirst (i : String) : ∀ x ∈ [suspendVblkCtrlCmd i (some "events_only"),
      cleanupVblkControllerCmd i], Cmd.is .dst (Rpc.createsVblk c) x = false := by
    simp [Cmd.is, suspendVblkCtrlCmd, cleanupVblkControllerCmd]
  constructor
  · refine vblk_follows (fun cmd h => isVblk_of_createsVblk h) (fun isVf i ctrl => ?_) ?_
    · refine follows_append (l := [suspendVblkCtrlCmd i (some "events_only"),
        cleanupVblkControllerCmd i]) (hfirst i) fun h => ?_
      have hi := hcreate i ctrl _ (hrest isVf i) h
      refine ⟨_, List.mem_cons_self, ?_⟩
      rw [Cmd.is, suspendVblkCtrlCmd_rpc]
      simp [Rpc.quietsVblk, suspendVblkCtrlCmd, hi]
    · simp [Cmd.is, destroyVblkCtrlCmd]
  · refine vblk_follows (fun cmd h => isVblk_of_createsVblk h) (fun isVf i ctrl => ?_) ?_
    · refine follows_append (l := [suspendVblkCtrlCmd i (some "events_only"),
        cleanupVblkControllerCmd i]) (hfirst i) fun h => ?_
      have hi := hcreate i ctrl _ (hrest isVf i) h
      exact ⟨cleanupVblkControllerCmd i, by simp,
        by simp [Cmd.is, Rpc.suspendsVblk, cleanupVblkControllerCmd, hi]⟩
    · simp [Cmd.is, destroyVblkCtrlCmd]

/-! ### NVMe -/

theorem adminOnlyCmd_rpc (ctrl : NvmeCtrl) : (suspendNvmeCtrlCmd ctrl (some "admin_only") none).rpc =
    .nvmeControllerSuspend ctrl.ctrlId (some "--admin_only") none := rfl

theorem notifierCmd_rpc (ctrl : NvmeCtrl) :
    (suspendNvmeCtrlCmd ctrl (some "live_update_notifier") (some "20")).rpc =
      .nvmeControllerSuspend ctrl.ctrlId (some "--live_update_notifier") (some "20") := rfl

theorem createsNvme_mem {ctrl : NvmeCtrl} {x : Cmd}
    (hx : x ∈ handNvmeOver ctrl ++ removeNvme ctrl.ctrlId ctrl)
    (hq : Cmd.is .dst (Rpc.createsNvme c) x = true) : ctrl.ctrlId = c := by
  simp only [handNvmeOver, removeNvme, List.mem_append, List.mem_cons, List.not_mem_nil, or_false,
    List.mem_map] at hx
  rcases hx with (((rfl | rfl) | ⟨n, -, rfl⟩) | rfl) | ⟨n, -, rfl⟩ | rfl
  · simp [Cmd.is, suspendNvmeCtrlCmd] at hq
  · simpa [Cmd.is, Rpc.createsNvme, createPassiveNvmeControllerCmd] using hq
  · simp [Cmd.is, Rpc.createsNvme, attachNvmeNsCmd] at hq
  · simp [Cmd.is, suspendNvmeCtrlCmd] at hq
  · simp [Cmd.is, detachNvmeNsCmd] at hq
  · simp [Cmd.is, destroyNvmeControllerCmd] at hq

theorem destroysNvme_follows (src : Source) (c : String) :
    Always (Follows (Cmd.is .src (Rpc.destroysNvme c)) (Cmd.is .dst (Rpc.createsNvme c)))
      (fixedCmds src) := by
  have hdestroy (ctrl : NvmeCtrl)
      (h : ∃ x ∈ removeNvme ctrl.ctrlId ctrl, Cmd.is .src (Rpc.destroysNvme c) x = true) :
      ∃ x ∈ handNvmeOver ctrl, Cmd.is .dst (Rpc.createsNvme c) x = true := by
    obtain ⟨x, hx, hq⟩ := h
    rcases List.mem_append.mp hx with hx | hx
    · obtain ⟨ns, -, rfl⟩ := List.mem_map.mp hx
      simp [Cmd.is, Rpc.destroysNvme, detachNvmeNsCmd] at hq
    · rw [List.mem_singleton.mp hx] at hq
      have hi : ctrl.ctrlId = c := by
        simpa [Cmd.is, Rpc.destroysNvme, destroyNvmeControllerCmd] using hq
      exact ⟨createPassiveNvmeControllerCmd ctrl, by simp [handNvmeOver],
        by simp [Cmd.is, Rpc.createsNvme, createPassiveNvmeControllerCmd, hi]⟩
  refine nvme_follows (fun cmd h => ?_) (fun isVf ctrl => ?_) hdestroy
  · have hp := is_rpc h
    cases hr : cmd.rpc <;> simp_all [Rpc.destroysNvme, Rpc.isVblk]
  · refine follows_append ?_ fun h => ?_
    · intro x hx
      simp only [handNvmeOver, List.mem_append, List.mem_cons, List.not_mem_nil, or_false,
        List.mem_map] at hx
      rcases hx with ((rfl | rfl) | ⟨n, -, rfl⟩) | rfl <;> rfl
    · cases isVf with
      | false => simp at h
      | true => exact hdestroy ctrl h

theorem suspendsNvme_mem {ctrl : NvmeCtrl} {x : Cmd}
    (hx : x ∈ handNvmeOver ctrl ++ removeNvme ctrl.ctrlId ctrl)
    (hq : Cmd.is .src (Rpc.suspendsNvme c) x = true) :
    ctrl.ctrlId = c ∧ x = suspendNvmeCtrlCmd ctrl (some "live_update_notifier") (some "20") := by
  simp only [handNvmeOver, removeNvme, List.mem_append, List.mem_cons, List.not_mem_nil, or_false,
    List.mem_map] at hx
  rcases hx with (((rfl | rfl) | ⟨n, -, rfl⟩) | rfl) | ⟨n, -, rfl⟩ | rfl
  · rw [Cmd.is, adminOnlyCmd_rpc] at hq
    simp [Rpc.suspendsNvme] at hq
  · simp [Cmd.is, createPassiveNvmeControllerCmd] at hq
  · simp [Cmd.is, attachNvmeNsCmd] at hq
  · rw [Cmd.is, notifierCmd_rpc] at hq
    exact ⟨by simpa [Rpc.suspendsNvme, suspendNvmeCtrlCmd] using hq, rfl⟩
  · simp [Cmd.is, Rpc.suspendsNvme, detachNvmeNsCmd] at hq
  · simp [Cmd.is, Rpc.suspendsNvme, destroyNvmeControllerCmd] at hq

theorem mem_nvme_block (isVf : Bool) (ctrl : NvmeCtrl) :
    ∀ x ∈ handNvmeOver ctrl ++ if isVf = true then removeNvme ctrl.ctrlId ctrl else [],
      x ∈ handNvmeOver ctrl ++ removeNvme ctrl.ctrlId ctrl := by
  intro x hx
  cases isVf <;> simp_all

/-- The passive NVMe controller is created after the weak suspend. -/
theorem createsNvme_follows (src : Source) (c : String) :
    Always (Follows (Cmd.is .dst (Rpc.createsNvme c)) (Cmd.is .src (Rpc.quietsNvme c)))
      (fixedCmds src) := by
  have hweak (ctrl : NvmeCtrl) (hi : ctrl.ctrlId = c) :
      Cmd.is .src (Rpc.quietsNvme c) (suspendNvmeCtrlCmd ctrl (some "admin_only") none) = true := by
    rw [Cmd.is, adminOnlyCmd_rpc]
    simp [Rpc.quietsNvme, suspendNvmeCtrlCmd, hi]
  refine nvme_follows (fun cmd h => ?_) (fun isVf ctrl => ?_) fun ctrl h => ?_
  · have hp := is_rpc h
    cases hr : cmd.rpc <;> simp_all [Rpc.createsNvme, Rpc.isVblk]
  · have hmem := mem_nvme_block isVf ctrl
    rw [handNvmeOver, List.append_assoc, List.append_assoc] at hmem ⊢
    refine follows_append (l := [suspendNvmeCtrlCmd ctrl (some "admin_only") none]) ?_ ?_
    · simp [Cmd.is, suspendNvmeCtrlCmd]
    · rintro ⟨x, hx, hq⟩
      have hi := createsNvme_mem (hmem x (List.mem_cons_of_mem _ hx)) hq
      exact ⟨_, List.mem_cons_self, hweak ctrl hi⟩
  · obtain ⟨x, hx, hq⟩ := h
    have hi := createsNvme_mem (List.mem_append_right _ hx) hq
    exact ⟨_, by simp [handNvmeOver], hweak ctrl hi⟩

/-- The live update suspend of an NVMe controller comes after the passive controller and its
listener. -/
theorem suspendsNvme_follows (src : Source) (c : String) :
    Always (Follows (Cmd.is .src (Rpc.suspendsNvme c))
      (Cmd.is .dst fun r => Rpc.createsNvme c r && r.listens)) (fixedCmds src) := by
  have hcreate (ctrl : NvmeCtrl) (hi : ctrl.ctrlId = c) :
      Cmd.is .dst (fun r => Rpc.createsNvme c r && r.listens)
        (createPassiveNvmeControllerCmd ctrl) = true := by
    simp [Cmd.is, createPassiveNvmeControllerCmd, Rpc.createsNvme, hi, Rpc.listens, Rpc.items]
  refine nvme_follows (fun cmd h => ?_) (fun isVf ctrl => ?_) fun ctrl h => ?_
  · have hp := is_rpc h
    cases hr : cmd.rpc <;> simp_all [Rpc.suspendsNvme, Rpc.isVblk]
  · have hmem := mem_nvme_block isVf ctrl
    rw [handNvmeOver, List.append_assoc] at hmem ⊢
    refine follows_append (fun x hx => ?_) ?_
    · by_contra hne
      obtain ⟨-, rfl⟩ := suspendsNvme_mem (c := c) (x := x)
        (hmem x (List.mem_append_left _ hx)) (by simpa using hne)
      simp only [List.mem_append, List.mem_cons, List.not_mem_nil, or_false, List.mem_map] at hx
      rcases hx with (hx | hx) | ⟨n, -, hx⟩
      · have hrpc := congrArg Cmd.rpc hx
        rw [notifierCmd_rpc, adminOnlyCmd_rpc] at hrpc
        simp at hrpc
      · simpa [suspendNvmeCtrlCmd, createPassiveNvmeControllerCmd] using congrArg Cmd.sock hx
      · simpa [suspendNvmeCtrlCmd, attachNvmeNsCmd] using congrArg Cmd.sock hx
    · rintro ⟨x, hx, hq⟩
      obtain ⟨hi, -⟩ := suspendsNvme_mem (hmem x (List.mem_append_right _ hx)) hq
      exact ⟨createPassiveNvmeControllerCmd ctrl, by simp, hcreate ctrl hi⟩
  · obtain ⟨x, hx, hq⟩ := h
    obtain ⟨hi, -⟩ := suspendsNvme_mem (List.mem_append_right _ hx) hq
    exact ⟨createPassiveNvmeControllerCmd ctrl, by simp [handNvmeOver], hcreate ctrl hi⟩

end Order

/-! ## Runs -/

section Runs

variable {w : World} {answers : ℕ → Bool} {c : String}

/-- In a run that returns, the controllers of all functions are listed. -/
theorem vblk_listed (h : Returned (run w answers)) (hc : c ∈ w.src.ids "VBLK") :
    ∃ ctrl, (managerOf w.src).vblkCtrlDict.lookup c = some ctrl := by
  obtain ⟨isVf, hsub⟩ := vblk_block_subset hc
  cases hl : (managerOf w.src).vblkCtrlDict.lookup c with
  | some ctrl => exact ⟨ctrl, rfl⟩
  | none =>
    have hm : Action.missing ∈ planOf w.src := hsub _ (by simp [vblkCtrlPlan, hl, look])
    exact absurd hm (missing_not_mem h)

theorem nvme_listed (h : Returned (run w answers)) (hc : c ∈ w.src.ids "NVME") :
    ∃ ctrl, (managerOf w.src).nvmeCtrlDict.lookup c = some ctrl := by
  obtain ⟨isVf, hsub⟩ := nvme_block_subset hc
  cases hl : (managerOf w.src).nvmeCtrlDict.lookup c with
  | some ctrl => exact ⟨ctrl, rfl⟩
  | none =>
    have hm : Action.missing ∈ planOf w.src := hsub _ (by simp [nvmeCtrlPlan, hl, look])
    exact absurd hm (missing_not_mem h)

/-- The RPCs that a handover is made of are about controllers. -/
theorem kind_controller {r : Rpc} (h : r.createsVblk c ∨ r.destroysVblk c ∨ r.quietsVblk c ∨
    r.suspendsVblk c ∨ r.createsNvme c ∨ r.destroysNvme c ∨ r.quietsNvme c ∨ r.suspendsNvme c) :
    r.kind = .controller := by
  cases r <;> simp_all [Rpc.createsVblk, Rpc.destroysVblk, Rpc.quietsVblk, Rpc.suspendsVblk,
    Rpc.createsNvme, Rpc.destroysNvme, Rpc.quietsNvme, Rpc.suspendsNvme, Rpc.kind]

/-- No VBLK controller is handed over twice. -/
theorem vblk_handedOverOnce (hnum : w.src.WellNumbered "VBLK") (hdist : (w.src.ids "VBLK").Nodup) :
    HandedOverOnce (Rpc.createsVblk c) (Rpc.destroysVblk c) (finalState (run w answers)).log := by
  have hone : listed (managerOf w.src).vblkCtrlDict c * (w.src.ids "VBLK").count c ≤ 1 :=
    Nat.mul_le_mul (listed_le_one _ c) (List.nodup_iff_count_le_one.mp hdist c)
  have hc (r : Rpc) (h : r.createsVblk c = true) := kind_controller (c := c) (r := r) (by simp [h])
  have hd (r : Rpc) (h : r.destroysVblk c = true) := kind_controller (c := c) (r := r) (by simp [h])
  refine ⟨Nat.le_trans (run_countP_le hc) ?_, Nat.le_trans (run_countP_le hd) ?_,
    run_follows hd hc (destroysVblk_follows w.src c)⟩
  · rwa [count_vblk_create]
  · rwa [count_vblk_destroy hnum]

/-- No NVMe controller is handed over twice. -/
theorem nvme_handedOverOnce (hnum : w.src.WellNumbered "NVME") (hdist : (w.src.ids "NVME").Nodup) :
    HandedOverOnce (Rpc.createsNvme c) (Rpc.destroysNvme c) (finalState (run w answers)).log := by
  have hone : listed (managerOf w.src).nvmeCtrlDict c * (w.src.ids "NVME").count c ≤ 1 :=
    Nat.mul_le_mul (listed_le_one _ c) (List.nodup_iff_count_le_one.mp hdist c)
  have hc (r : Rpc) (h : r.createsNvme c = true) := kind_controller (c := c) (r := r) (by simp [h])
  have hd (r : Rpc) (h : r.destroysNvme c = true) := kind_controller (c := c) (r := r) (by simp [h])
  refine ⟨Nat.le_trans (run_countP_le hc) ?_, Nat.le_trans (run_countP_le hd) ?_,
    run_follows hd hc (destroysNvme_follows w.src c)⟩
  · rwa [count_nvme_create]
  · rwa [count_nvme_destroy hnum]

/-- A run that returns has handed every VBLK controller over. -/
theorem vblk_complete (hr : Returned (run w answers)) (hnum : w.src.WellNumbered "VBLK")
    (hdist : (w.src.ids "VBLK").Nodup) (hc : c ∈ w.src.ids "VBLK") :
    (finalState (run w answers)).log.countP (Event.does .dst (Rpc.createsVblk c)) = 1 ∧
      (finalState (run w answers)).log.countP (Event.does .src (Rpc.destroysVblk c)) = 1 := by
  obtain ⟨ctrl, hl⟩ := vblk_listed hr hc
  have hone : listed (managerOf w.src).vblkCtrlDict c * (w.src.ids "VBLK").count c = 1 := by
    rw [listed, hl, List.count_eq_one_of_mem hdist hc]
    rfl
  rw [run_countP_eq (fun r h => kind_controller (c := c) (by simp [h])) hr,
    run_countP_eq (fun r h => kind_controller (c := c) (by simp [h])) hr,
    count_vblk_create, count_vblk_destroy hnum]
  exact ⟨hone, hone⟩

/-- A run that returns has handed every NVMe controller over. -/
theorem nvme_complete (hr : Returned (run w answers)) (hnum : w.src.WellNumbered "NVME")
    (hdist : (w.src.ids "NVME").Nodup) (hc : c ∈ w.src.ids "NVME") :
    (finalState (run w answers)).log.countP (Event.does .dst (Rpc.createsNvme c)) = 1 ∧
      (finalState (run w answers)).log.countP (Event.does .src (Rpc.destroysNvme c)) = 1 := by
  obtain ⟨ctrl, hl⟩ := nvme_listed hr hc
  have hone : listed (managerOf w.src).nvmeCtrlDict c * (w.src.ids "NVME").count c = 1 := by
    rw [listed, hl, List.count_eq_one_of_mem hdist hc]
    rfl
  rw [run_countP_eq (fun r h => kind_controller (c := c) (by simp [h])) hr,
    run_countP_eq (fun r h => kind_controller (c := c) (by simp [h])) hr,
    count_nvme_create, count_nvme_destroy hnum]
  exact ⟨hone, hone⟩

/-- A controller that is removed only after it was created elsewhere is always somewhere. -/
theorem somewhere_of_follows {creates destroys : Rpc → Bool} {log pre : List Event}
    (h : Always (fun pre e => e.sends .src destroys = true →
      ∃ x ∈ pre, x.does .dst creates = true) log) (hp : pre <+: log) :
    (∀ e ∈ pre, ¬e.does .src destroys = true) ∨ ∃ e ∈ pre, e.does .dst creates = true := by
  by_cases hd : ∃ e ∈ pre, e.does .src destroys = true
  · obtain ⟨e, he, hdoes⟩ := hd
    obtain ⟨l, l', rfl⟩ := List.append_of_mem he
    obtain ⟨x, hx, hc⟩ := (h.of_prefix hp) l e l' rfl ((Bool.and_eq_true _ _).mp hdoes).2
    exact .inr ⟨x, List.mem_append_left _ hx, hc⟩
  · exact .inl fun e he hdoes => hd ⟨e, he, hdoes⟩

/-- No function is ever left without a controller, and none is handed over twice: at every point of
every run each controller is still on the source or already on the destination, and a run that
returns has handed each one over. A run returns when no RPC fails and all names it looks up are
listed. -/
theorem never_without_controller (w : World) (answers : ℕ → Bool)
    (hvblk : w.src.WellNumbered "VBLK") (hnvme : w.src.WellNumbered "NVME")
    (dvblk : (w.src.ids "VBLK").Nodup) (dnvme : (w.src.ids "NVME").Nodup) :
    (∀ c, HandedOverOnce (Rpc.createsVblk c) (Rpc.destroysVblk c)
        (finalState (run w answers)).log ∧
      HandedOverOnce (Rpc.createsNvme c) (Rpc.destroysNvme c) (finalState (run w answers)).log) ∧
    (∀ pre, pre <+: (finalState (run w answers)).log →
      (∀ k ∈ w.src.vblkCtrls, k ∈ (w.replay pre).src.vblkCtrls ∨
        k.ctrlId ∈ (w.replay pre).dst.vblkCtrls) ∧
      ∀ c ∈ w.src.nvmeCtrls.map NvmeCtrl.ctrlId,
        c ∈ (w.replay pre).src.nvmeCtrls.map NvmeCtrl.ctrlId ∨
          c ∈ (w.replay pre).dst.nvmeCtrls.map PassiveCtrl.ctrlId) ∧
    (Returned (run w answers) →
      (∀ c ∈ w.src.ids "VBLK",
        (finalState (run w answers)).log.countP (Event.does .dst (Rpc.createsVblk c)) = 1 ∧
        (finalState (run w answers)).log.countP (Event.does .src (Rpc.destroysVblk c)) = 1) ∧
      ∀ c ∈ w.src.ids "NVME",
        (finalState (run w answers)).log.countP (Event.does .dst (Rpc.createsNvme c)) = 1 ∧
        (finalState (run w answers)).log.countP (Event.does .src (Rpc.destroysNvme c)) = 1) ∧
    (w.src.Listed → w.src.version = true → w.dst.version = true → (∀ n, answers n = true) →
      Returned (run w answers)) := by
  refine ⟨fun c => ⟨vblk_handedOverOnce hvblk dvblk, nvme_handedOverOnce hnvme dnvme⟩,
    fun pre hp => ⟨fun k hk => ?_, fun c hc => ?_⟩, fun hr => ⟨fun c hc => ?_, fun c hc => ?_⟩,
    fun hl hs hd ha => run_returns hl hs hd ha⟩
  · rw [mem_src_vblkCtrls, mem_dst_vblkCtrls]
    rcases somewhere_of_follows (vblk_handedOverOnce hvblk dvblk).after hp with h | h
    · exact .inl ⟨hk, h⟩
    · exact .inr (.inr h)
  · rw [mem_src_nvmeIds, mem_dst_nvmeIds]
    rcases somewhere_of_follows (nvme_handedOverOnce hnvme dnvme).after hp with h | h
    · exact .inl ⟨hc, h⟩
    · exact .inr (.inr h)
  · exact vblk_complete hr hvblk dvblk hc
  · exact nvme_complete hr hnvme dnvme hc

theorem never_without_controller_small :
    (finalState (run ⟨.small, .fresh⟩ fun _ => true)).log.countP
      (Event.does .src (Rpc.destroysNvme "e1")) = 1 := by
  have h := never_without_controller ⟨.small, .fresh⟩ (fun _ => true) (by decide +kernel)
    (by decide +kernel) (by decide +kernel) (by decide +kernel)
  have hr := h.2.2.2 (by decide +kernel) rfl rfl fun _ => rfl
  exact ((h.2.2.1 hr).2 "e1" (by decide +kernel)).2

/-- A VBLK function on a disk behind PCIe, whose transport ID has no `adrfam`. -/
def Source.pcie : Source :=
  { Source.idle with
    bdevs := [.small "d0" "NVMe disk" ⟨some "PCIe", none, some "0000:03:00.0", none, none⟩]
    nvmfCtrls := [⟨"c0", ⟨some "PCIe", none, some "0000:03:00.0", none, none⟩⟩]
    functions := [⟨⟨none, some "v0"⟩, "VBLK", []⟩]
    vblkCtrls := [.on "v0" "d0"] }

/-- No RPC fails, and yet the run is over before the only controller is handed over: the transport
ID of its disk lacks a key. -/
theorem pcie_not_handed_over :
    (Source.pcie.WellNumbered "VBLK" ∧ (Source.pcie.ids "VBLK").Nodup ∧
      "v0" ∈ Source.pcie.ids "VBLK") ∧
    (finalState (run ⟨.pcie, .fresh⟩ fun _ => true)).log.all Event.ok = true ∧
    (finalState (run ⟨.pcie, .fresh⟩ fun _ => true)).log.countP
      (Event.sends .dst (Rpc.createsVblk "v0")) = 0 := by
  decide +kernel

/-! ## The handover order -/

theorem does_sends {k : Sock} {p : Rpc → Bool} {e : Event} (h : e.does k p = true) :
    e.sends k p = true := ((Bool.and_eq_true _ _).mp h).2

theorem always_sends_of_does {A : Event → Prop} {k : Sock} {p : Rpc → Bool} {l : List Event}
    (h : Always (fun pre e => A e → ∃ x ∈ pre, x.does k p = true) l) :
    Always (fun pre e => A e → ∃ x ∈ pre, x.sends k p = true) l := by
  refine h.mono fun pre e h he => ?_
  obtain ⟨x, hx, hd⟩ := h he
  exact ⟨x, hx, does_sends hd⟩

/-- The plan creates and suspends the VBLK controllers of functions only. -/
theorem mem_ids_of_vblk {src : Source} {cmd : Cmd} (h : cmd ∈ fixedCmds src)
    (hq : cmd.is .dst (Rpc.createsVblk c) = true ∨ cmd.is .src (Rpc.suspendsVblk c) = true) :
    c ∈ src.ids "VBLK" := by
  obtain ⟨a, ha, hc⟩ := List.mem_filterMap.mp h
  have hv : cmd.rpc.isVblk = true := by
    rcases hq with hq | hq
    · exact isVblk_of_createsVblk hq
    · have hp := is_rpc hq
      cases hr : cmd.rpc <;> simp_all [Rpc.suspendsVblk, Rpc.isVblk]
  rcases mem_plan_cases ha with ⟨i, hi, hact⟩ | ⟨i, hi, hact⟩
  · have hic : i = c := by
      cases hact with
      | missing => simp at hc
      | create => simp at hc
      | hand ctrl cmd' _ hcmd =>
        obtain rfl := Option.some.inj hc
        simp only [handVblkOver, List.mem_cons, List.not_mem_nil, or_false] at hcmd
        rcases hcmd with rfl | rfl | rfl
        · rw [Cmd.is, Cmd.is, suspendVblkCtrlCmd_rpc] at hq
          simp [Rpc.createsVblk, Rpc.suspendsVblk] at hq
        · simpa [Cmd.is, Rpc.suspendsVblk, cleanupVblkControllerCmd] using hq
        · simpa [Cmd.is, Rpc.createsVblk, restoreVblkControllerCmd] using hq
      | release ctrl params =>
        obtain rfl := Option.some.inj hc
        simp [Cmd.is, Rpc.suspendsVblk, destroyVblkCtrlCmd] at hq
      | destroy ctrl params =>
        obtain rfl := Option.some.inj hc
        simp [Cmd.is, Rpc.suspendsVblk, destroyVblkCtrlCmd] at hq
    rw [← hic]
    exact hi
  · simp [hact.isVblk hc] at hv

/-- The NVMe path keeps the handover order in every run. -/
theorem nvme_handoverOrder : HandoverOrder (Rpc.quietsNvme c) (Rpc.suspendsNvme c)
    (Rpc.createsNvme c) (finalState (run w answers)).log := by
  constructor
  · refine run_follows (fun r h => kind_controller (c := c) (by simp [h]))
      (fun r h => kind_controller (c := c) ?_) (suspendsNvme_follows w.src c)
    simp [((Bool.and_eq_true _ _).mp h).1]
  · exact always_sends_of_does (run_follows (fun r h => kind_controller (c := c) (by simp [h]))
      (fun r h => kind_controller (c := c) (by simp [h])) (createsNvme_follows w.src c))

/-- The VBLK path sends the live update suspend before the creation, as far as it gets. -/
theorem vblk_suspended_first : Always (fun pre e => e.sends .dst (Rpc.createsVblk c) = true →
    ∃ x ∈ pre, x.does .src (Rpc.suspendsVblk c) = true) (finalState (run w answers)).log :=
  run_follows (fun r h => kind_controller (c := c) (by simp [h]))
    (fun r h => kind_controller (c := c) (by simp [h])) (createsVblk_follows w.src c).2

/-- The NVMe path keeps the handover order in every run. The VBLK path keeps it exactly where there
is no controller to hand over: as soon as a run has handed one over, the live update suspend was
sent before its passive controller was created. -/
theorem handover_order (w : World) (answers : ℕ → Bool) (c : String) :
    HandoverOrder (Rpc.quietsNvme c) (Rpc.suspendsNvme c) (Rpc.createsNvme c)
      (finalState (run w answers)).log ∧
    (c ∉ w.src.ids "VBLK" → HandoverOrder (Rpc.quietsVblk c) (Rpc.suspendsVblk c)
      (Rpc.createsVblk c) (finalState (run w answers)).log) ∧
    (Returned (run w answers) → (HandoverOrder (Rpc.quietsVblk c) (Rpc.suspendsVblk c)
      (Rpc.createsVblk c) (finalState (run w answers)).log ↔ c ∉ w.src.ids "VBLK")) := by
  have hidle (hc : c ∉ w.src.ids "VBLK") : HandoverOrder (Rpc.quietsVblk c) (Rpc.suspendsVblk c)
      (Rpc.createsVblk c) (finalState (run w answers)).log := by
    constructor
    · refine run_follows (fun r h => kind_controller (c := c) (by simp [h]))
        (fun r h => kind_controller (c := c) ?_) ?_
      · simp [((Bool.and_eq_true _ _).mp h).1]
      · rintro pre cmd post hl hq
        exact absurd (mem_ids_of_vblk (hl ▸ by simp) (.inr hq)) hc
    · exact always_sends_of_does (run_follows (fun r h => kind_controller (c := c) (by simp [h]))
        (fun r h => kind_controller (c := c) (by simp [h])) (createsVblk_follows w.src c).1)
  refine ⟨nvme_handoverOrder, hidle, fun hr => ⟨fun ho hc => ?_, hidle⟩⟩
  obtain ⟨ctrl, hctrl⟩ := vblk_listed hr hc
  -- Each of the two commands would have to come before the other one.
  have hlistener : Always (Follows (Event.sends .src (Rpc.suspendsVblk c))
      (Event.sends .dst (Rpc.createsVblk c))) (finalState (run w answers)).log := by
    refine (always_sends_of_does ho.listener).mono fun pre e h he => ?_
    obtain ⟨x, hx, hs⟩ := h he
    obtain ⟨r, hr', hp⟩ := (Option.any_eq_true _ _).mp hs
    exact ⟨x, hx, (Option.any_eq_true _ _).mpr ⟨r, hr', ((Bool.and_eq_true _ _).mp hp).1⟩⟩
  have hfirst : Always (Follows (Event.sends .dst (Rpc.createsVblk c))
      (Event.sends .src (Rpc.suspendsVblk c))) (finalState (run w answers)).log :=
    always_sends_of_does vblk_suspended_first
  have hmem : restoreVblkControllerCmd c ctrl ∈ fixedCmds w.src := by
    obtain ⟨isVf, hsub⟩ := vblk_block_subset hc
    refine List.mem_filterMap.mpr ⟨_, hsub (.send (restoreVblkControllerCmd c ctrl)) ?_, rfl⟩
    simp [vblkCtrlPlan, hctrl, look, handVblkOver]
  rw [← (run_returned_controllers hr).2] at hmem
  obtain ⟨e, he, hcmd⟩ := List.mem_filterMap.mp hmem
  have hsend := (not_of_follows_each_other hlistener hfirst e he).2
  rw [sends_eq (fun r h => kind_controller (c := c) (by simp [h])), hcmd] at hsend
  simp [Cmd.is, Rpc.createsVblk, restoreVblkControllerCmd] at hsend

/-- One VBLK function on a Null disk. -/
def Source.oneVblk : Source :=
  { Source.idle with
    bdevs := [.small "n0" "Null disk" .empty]
    functions := [⟨⟨none, some "v0"⟩, "VBLK", []⟩]
    vblkCtrls := [.on "v0" "n0"] }

theorem oneVblk_not_handoverOrder : ¬HandoverOrder (Rpc.quietsVblk "v0") (Rpc.suspendsVblk "v0")
    (Rpc.createsVblk "v0") (finalState (run ⟨.oneVblk, .fresh⟩ fun _ => true)).log := by
  intro h
  have hlistener := h.listener
  revert hlistener
  decide +kernel

end Runs

end DcPerf.LiveUpdate
