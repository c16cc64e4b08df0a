import DcPerf.Library.Abortable
import DcPerf.LiveUpdate.Topology

/-!
# `main` carries out its plan

The loops of `main` are the loop over the plan of its manager. Every method is first shown to carry
out its own part of the plan; the dictionaries that the plan reads are never written to.
-/

namespace DcPerf.LiveUpdate

open DcPerf.Library

/-- Carry out a list of actions. -/
def performAll (self : Manager) (actions : List Action) : Live Unit :=
  actions.forM (perform self)

@[simp] theorem performAll_nil (self : Manager) : performAll self [] = pure () := rfl

@[simp] theorem performAll_cons (self : Manager) (a : Action) (l : List Action) :
    performAll self (a :: l) = perform self a >>= fun _ => performAll self l := rfl

@[simp] theorem performAll_append (self : Manager) (l l' : List Action) :
    performAll self (l ++ l') = performAll self l >>= fun _ => performAll self l' :=
  forM_append _ _ _

/-- A lookup in the plan is a lookup in the run. -/
theorem performAll_look {α : Type} (self : Manager) (o : Option α) (k : α → List Action) :
    performAll self (look o k) = item o >>= fun a => performAll self (k a) := by
  cases o with
  | none => rfl
  | some a => rfl

/-- A loop whose body carries out a part of the plan carries out the parts in turn. -/
theorem performAll_flatMap {α : Type} (self : Manager) {f : α → Live Unit} {k : α → List Action}
    (h : ∀ x, f x = performAll self (k x)) (xs : List α) :
    xs.forM f = performAll self (xs.flatMap k) := by
  rw [performAll, forM_flatMap]
  congr 1
  funext x
  exact h x

theorem performAll_ite (self : Manager) (c : Prop) [Decidable c] (l : List Action) :
    performAll self (if c then l else []) = if c then performAll self l else pure () := by
  split <;> rfl

theorem performAll_send (self : Manager) (cmds : List Cmd) :
    performAll self (cmds.map .send) = cmds.forM sendRpc := by
  induction cmds with
  | nil => rfl
  | cons c cmds ih => rw [List.map_cons, performAll_cons, ih]; rfl

theorem performAll_toList {α : Type} (self : Manager) (o : Option α) (k : α → List Action) :
    performAll self (o.toList.flatMap k) =
      match o with
      | some a => performAll self (k a)
      | none => pure () := by
  cases o with
  | none => rfl
  | some a => simp

@[simp] theorem item_some {α : Type} (a : α) : item (some a) = pure a := rfl

@[simp] theorem item_none_bind {α β : Type} (f : α → Live β) :
    (item none >>= f) = throw .keyError := rfl

/-! ## VBLK -/

theorem destroyVblkCtrl_eq (self : Manager) (f : Func) (ctrlId : String) (params : Option String)
    (hf : f.ctrlId = some ctrlId) :
    destroyVblkCtrl self f params = performAll self (destroyVblkPlan self ctrlId params) := by
  rw [destroyVblkPlan, performAll_look, destroyVblkCtrl, hf, item_some, pure_bind]
  cases hc : self.vblkCtrlDict.lookup ctrlId with
  | none => rfl
  | some ctrl =>
    by_cases hb : ctrl.bdev = "none"
    · simp [hb, perform]
    · simp [hb, perform]

theorem liveUpdateVblkFunc_eq (self : Manager) (f : Func) :
    liveUpdateVblkFunc self f = performAll self (vblkFuncPlan self f) := by
  rw [vblkFuncPlan, performAll_toList, liveUpdateVblkFunc]
  cases hf : f.ctrlId with
  | none => rfl
  | some ctrlId =>
    simp only [vblkCtrlPlan, performAll_look]
    cases hc : self.vblkCtrlDict.lookup ctrlId with
    | none => rfl
    | some ctrl =>
      simp only [item_some, pure_bind, performAll_append, performAll_ite, performAll_send,
        suspendVblkCtrl, cleanupRestoreVblkController, sendSuspendRestore, hf, hc,
        destroyVblkCtrl_eq self f ctrlId _ hf]
      by_cases hb : ctrl.bdev = "none"
      · simp [hb, handVblkOver]
      · simp [hb, handVblkOver, perform]

theorem updateVblkPf_eq (self : Manager) (pf : PhysFunc) :
    updateVblkPf self pf = performAll self (vblkPfPlan self pf) := by
  rw [vblkPfPlan, performAll_append, performAll_append, performAll_toList, updateVblkPf,
    performAll_flatMap self (liveUpdateVblkFunc_eq self), liveUpdateVblkFunc_eq, bind_assoc]
  cases hc : pf.ctrlId with
  | none => rfl
  | some ctrlId => simp [destroyVblkCtrl_eq self pf.toFunc ctrlId none hc]

/-! ## NVMe -/

theorem cleanupNvmeController_eq (self : Manager) (ctrlId : String) :
    cleanupNvmeController self ctrlId = performAll self (cleanupNvmePlan self ctrlId) := by
  rw [cleanupNvmePlan, performAll_look, cleanupNvmeController]
  congr 1
  funext ctrl
  rw [performAll_append, List.map_eq_flatMap,
    ← performAll_flatMap self (f := fun ns : CtrlNs => do
      detachNvmeNs ctrlId ns.nsid
      destroyBdev ns.bdev) (fun ns => by simp [perform, detachNvmeNs])]
  simp [perform]

theorem liveUpdateNvmeFunc_eq (self : Manager) (f : Func) :
    liveUpdateNvmeFunc self f = performAll self (nvmeFuncPlan self f) := by
  rw [nvmeFuncPlan, performAll_toList, liveUpdateNvmeFunc]
  cases hf : f.ctrlId with
  | none => rfl
  | some ctrlId =>
    simp only [nvmeCtrlPlan, performAll_look]
    congr 1
    funext ctrl
    have hns := performAll_flatMap self (f := fun ns => do
          createBdev ns.bdev
          ensureNvmeNamespace ctrl ns)
        (k := fun ns => [.create ns.bdev, .ns ctrl ns]) (fun ns => by simp [perform])
        ctrl.namespaces
    have hattach : (ctrl.namespaces.forM fun ns => sendRpc (attachNvmeNsCmd ctrl ns)) =
        (ctrl.namespaces.map (attachNvmeNsCmd ctrl)).forM sendRpc := by
      rw [List.map_eq_flatMap, forM_flatMap]
      simp only [forM_singleton]
    simp only [performAll_append, performAll_ite, performAll_send, performAll_cons, performAll_nil,
      handNvmeOver, forM_append, forM_cons, forM_nil, suspendNvmeCtrl,
      createPassiveNvmeController, cleanupNvmeController_eq, hns, hattach, perform, bind_assoc,
      pure_bind]

theorem updateNvmePf_eq (self : Manager) (pf : PhysFunc) :
    updateNvmePf self pf = performAll self (nvmePfPlan self pf) := by
  rw [nvmePfPlan, performAll_append, performAll_append, performAll_toList, updateNvmePf,
    performAll_flatMap self (liveUpdateNvmeFunc_eq self), liveUpdateNvmeFunc_eq, bind_assoc]
  cases hc : pf.ctrlId with
  | none => rfl
  | some ctrlId => simp [cleanupNvmeController_eq]

/-- After its constructor, `main` carries out the plan. -/
theorem main_eq : main = checkServiceRunning >>= fun _ => init >>= fun manager =>
    performAll manager (plan manager) := by
  simp only [main, plan, vblkPlan, nvmePlan, performAll_append,
    performAll_flatMap _ (updateVblkPf_eq _), performAll_flatMap _ (updateNvmePf_eq _)]

end DcPerf.LiveUpdate
