import DcPerf.LiveUpdate.Proofs.Outcomes

/-!
# The blocks of the plan

The plan is put together from four kinds of blocks: the handover and the removal of a VBLK or an
NVMe controller. What holds of the blocks holds of the plan.
-/

namespace DcPerf.LiveUpdate

open DcPerf.Library

variable {self : Manager} {P : List Action → Action → Prop}

/-- A lookup that fails plans no commands. -/
theorem always_look {α : Type} {o : Option α} {k : α → List Action} (hm : P [] .missing)
    (h : ∀ a, o = some a → Always P (k a)) : Always P (look o k) := by
  cases o with
  | none => exact always_snoc.mpr ⟨always_nil, hm⟩
  | some a => exact h a rfl

theorem mem_toList_flatMap {α β : Type} {o : Option α} {k : α → List β} {b : β} :
    b ∈ o.toList.flatMap k ↔ ∃ a, o = some a ∧ b ∈ k a := by
  cases o with
  | none => simp
  | some a => simp

theorem always_toList {α : Type} {o : Option α} {k : α → List Action}
    (h : ∀ a, o = some a → Always P (k a)) : Always P (o.toList.flatMap k) := by
  cases o with
  | none => simp
  | some a => simpa using h a rfl

/-- What the blocks of the physical functions have, the plan has. -/
theorem always_plan_pf (hP : Stable P) (hv : ∀ pf ∈ self.vblkFunctions, Always P (vblkPfPlan self pf))
    (hn : ∀ pf ∈ self.nvmeFunctions, Always P (nvmePfPlan self pf)) : Always P (plan self) :=
  (Always.flatMap hP hv).append hP (Always.flatMap hP hn)

/-- What the blocks of the controllers have, the plan has. -/
theorem always_plan (hP : Stable P)
    (hvblk : ∀ isVf c, Always P (vblkCtrlPlan self isVf c))
    (hvdel : ∀ c params, Always P (destroyVblkPlan self c params))
    (hnvme : ∀ isVf c, Always P (nvmeCtrlPlan self isVf c))
    (hndel : ∀ c, Always P (cleanupNvmePlan self c)) : Always P (plan self) := by
  refine always_plan_pf hP (fun pf _ => ?_) fun pf _ => ?_
  · refine Always.append hP (Always.append hP ?_ (Always.flatMap hP fun f _ => ?_)) ?_
    · exact always_toList fun c _ => hvblk _ c
    · exact always_toList fun c _ => hvblk _ c
    · exact always_toList fun c _ => hvdel c _
  · refine Always.append hP (Always.append hP ?_ (Always.flatMap hP fun f _ => ?_)) ?_
    · exact always_toList fun c _ => hnvme _ c
    · exact always_toList fun c _ => hnvme _ c
    · exact always_toList fun c _ => hndel c

/-! ## The actions of the plan -/

/-- The actions for the VBLK controller `c`. -/
inductive VblkAction (self : Manager) (c : String) : Action → Prop where
  | missing (h : self.vblkCtrlDict.lookup c = none) : VblkAction self c .missing
  | create (ctrl : VblkCtrl) (h : self.vblkCtrlDict.lookup c = some ctrl)
    (hb : ctrl.bdev ≠ "none") : VblkAction self c (.create ctrl.bdev)
  | hand (ctrl : VblkCtrl) (cmd : Cmd) (h : self.vblkCtrlDict.lookup c = some ctrl)
    (hcmd : cmd ∈ handVblkOver c ctrl) : VblkAction self c (.send cmd)
  | release (ctrl : VblkCtrl) (params : Option String) (h : self.vblkCtrlDict.lookup c = some ctrl)
    (hb : ctrl.bdev ≠ "none") (hp : params ∈ [none, some "force"]) :
    VblkAction self c (.release (destroyVblkCtrlCmd c params) ctrl.bdev)
  | destroy (ctrl : VblkCtrl) (params : Option String) (h : self.vblkCtrlDict.lookup c = some ctrl)
    (hb : ctrl.bdev = "none") (hp : params ∈ [none, some "force"]) :
    VblkAction self c (.send (destroyVblkCtrlCmd c params))

/-- The actions for the NVMe controller `c`. -/
inductive NvmeAction (self : Manager) (c : String) : Action → Prop where
  | missing (h : self.nvmeCtrlDict.lookup c = none) : NvmeAction self c .missing
  | subsys (ctrl : NvmeCtrl) (h : self.nvmeCtrlDict.lookup c = some ctrl) :
    NvmeAction self c (.subsys ctrl.nqn)
  | create (ctrl : NvmeCtrl) (n : CtrlNs) (h : self.nvmeCtrlDict.lookup c = some ctrl)
    (hn : n ∈ ctrl.namespaces) : NvmeAction self c (.create n.bdev)
  | ns (ctrl : NvmeCtrl) (n : CtrlNs) (h : self.nvmeCtrlDict.lookup c = some ctrl)
    (hn : n ∈ ctrl.namespaces) : NvmeAction self c (.ns ctrl n)
  | hand (ctrl : NvmeCtrl) (cmd : Cmd) (h : self.nvmeCtrlDict.lookup c = some ctrl)
    (hcmd : cmd ∈ handNvmeOver ctrl) : NvmeAction self c (.send cmd)
  | release (ctrl : NvmeCtrl) (n : CtrlNs) (h : self.nvmeCtrlDict.lookup c = some ctrl)
    (hn : n ∈ ctrl.namespaces) : NvmeAction self c (.release (detachNvmeNsCmd c n.nsid) n.bdev)
  | destroy (ctrl : NvmeCtrl) (h : self.nvmeCtrlDict.lookup c = some ctrl) :
    NvmeAction self c (.send (destroyNvmeControllerCmd c))

/-- The actions that remove the VBLK controller `c` from the source. -/
inductive VblkRemoval (self : Manager) (c : String) (params : Option String) : Action → Prop where
  | missing (h : self.vblkCtrlDict.lookup c = none) : VblkRemoval self c params .missing
  | release (ctrl : VblkCtrl) (h : self.vblkCtrlDict.lookup c = some ctrl)
    (hb : ctrl.bdev ≠ "none") :
    VblkRemoval self c params (.release (destroyVblkCtrlCmd c params) ctrl.bdev)
  | destroy (ctrl : VblkCtrl) (h : self.vblkCtrlDict.lookup c = some ctrl)
    (hb : ctrl.bdev = "none") : VblkRemoval self c params (.send (destroyVblkCtrlCmd c params))

/-- The actions that remove the NVMe controller `c` from the source. -/
inductive NvmeRemoval (self : Manager) (c : String) : Action → Prop where
  | missing (h : self.nvmeCtrlDict.lookup c = none) : NvmeRemoval self c .missing
  | release (ctrl : NvmeCtrl) (n : CtrlNs) (h : self.nvmeCtrlDict.lookup c = some ctrl)
    (hn : n ∈ ctrl.namespaces) : NvmeRemoval self c (.release (detachNvmeNsCmd c n.nsid) n.bdev)
  | destroy (ctrl : NvmeCtrl) (h : self.nvmeCtrlDict.lookup c = some ctrl) :
    NvmeRemoval self c (.send (destroyNvmeControllerCmd c))

theorem VblkRemoval.action {c : String} {params : Option String} {a : Action}
    (h : VblkRemoval self c params a) (hp : params ∈ [none, some "force"]) :
    VblkAction self c a := by
  cases h with
  | missing h => exact .missing h
  | release ctrl h hb => exact .release ctrl params h hb hp
  | destroy ctrl h hb => exact .destroy ctrl params h hb hp

theorem NvmeRemoval.action {c : String} {a : Action} (h : NvmeRemoval self c a) :
    NvmeAction self c a := by
  cases h with
  | missing h => exact .missing h
  | release ctrl n h hn => exact .release ctrl n h hn
  | destroy ctrl h => exact .destroy ctrl h

theorem mem_destroyVblkPlan {c : String} {params : Option String} {a : Action}
    (h : a ∈ destroyVblkPlan self c params) : VblkRemoval self c params a := by
  unfold destroyVblkPlan at h
  cases hc : self.vblkCtrlDict.lookup c with
  | none =>
    rw [hc] at h
    rw [List.mem_singleton.mp h]
    exact .missing hc
  | some ctrl =>
    rw [hc] at h
    by_cases hb : ctrl.bdev = "none"
    · obtain rfl : a = .send (destroyVblkCtrlCmd c params) := by simpa [look, hb] using h
      exact .destroy ctrl hc hb
    · obtain rfl : a = .release (destroyVblkCtrlCmd c params) ctrl.bdev := by
        simpa [look, hb] using h
      exact .release ctrl hc hb

theorem mem_vblkCtrlPlan {isVf : Bool} {c : String} {a : Action}
    (h : a ∈ vblkCtrlPlan self isVf c) : VblkAction self c a := by
  unfold vblkCtrlPlan at h
  cases hc : self.vblkCtrlDict.lookup c with
  | none =>
    rw [hc] at h
    rw [List.mem_singleton.mp h]
    exact .missing hc
  | some ctrl =>
    rw [hc] at h
    rcases List.mem_append.mp h with h | h
    · rcases List.mem_append.mp h with h | h
      · split at h
        · rw [List.mem_singleton.mp h]
          exact .create ctrl hc ‹_›
        · simp at h
      · obtain ⟨cmd, hcmd, rfl⟩ := List.mem_map.mp h
        exact .hand ctrl cmd hc hcmd
    · split at h
      · exact (mem_destroyVblkPlan h).action (by simp)
      · simp at h

theorem mem_cleanupNvmePlan {c : String} {a : Action} (h : a ∈ cleanupNvmePlan self c) :
    NvmeRemoval self c a := by
  unfold cleanupNvmePlan at h
  cases hc : self.nvmeCtrlDict.lookup c with
  | none =>
    rw [hc] at h
    rw [List.mem_singleton.mp h]
    exact .missing hc
  | some ctrl =>
    rw [hc] at h
    rcases List.mem_append.mp h with h | h
    · obtain ⟨n, hn, rfl⟩ := List.mem_map.mp h
      exact .release ctrl n hc hn
    · rw [List.mem_singleton.mp h]
      exact .destroy ctrl hc

theorem mem_nvmeCtrlPlan {isVf : Bool} {c : String} {a : Action}
    (h : a ∈ nvmeCtrlPlan self isVf c) : NvmeAction self c a := by
  unfold nvmeCtrlPlan at h
  cases hc : self.nvmeCtrlDict.lookup c with
  | none =>
    rw [hc] at h
    rw [List.mem_singleton.mp h]
    exact .missing hc
  | some ctrl =>
    rw [hc] at h
    rcases List.mem_append.mp h with h | h
    · rcases List.mem_append.mp h with h | h
      · rcases List.mem_append.mp h with h | h
        · rw [List.mem_singleton.mp h]
          exact .subsys ctrl hc
        · obtain ⟨n, hn, h⟩ := List.mem_flatMap.mp h
          rcases List.mem_cons.mp h with rfl | h
          · exact .create ctrl n hc hn
          · rw [List.mem_singleton.mp h]
            exact .ns ctrl n hc hn
      · obtain ⟨cmd, hcmd, rfl⟩ := List.mem_map.mp h
        exact .hand ctrl cmd hc hcmd
    · split at h
      · exact (mem_cleanupNvmePlan h).action
      · simp at h

theorem mem_pf_cases {pf : PhysFunc} {k : Func → List Action} {d : String → List Action}
    {Q : String → Action → Prop} {a : Action}
    (hk : ∀ (f : Func) a, a ∈ k f → ∃ c, f.ctrlId = some c ∧ Q c a)
    (hd : ∀ c a, a ∈ d c → Q c a)
    (h : a ∈ k pf.toFunc ++ pf.vfs.flatMap k ++ pf.ctrlId.toList.flatMap d) :
    ∃ c ∈ pf.ids, Q c a := by
  rcases List.mem_append.mp h with h | h
  · rcases List.mem_append.mp h with h | h
    · obtain ⟨c, hc, hQ⟩ := hk _ _ h
      exact ⟨c, by simp [PhysFunc.ids, hc], hQ⟩
    · obtain ⟨vf, hvf, h⟩ := List.mem_flatMap.mp h
      obtain ⟨c, hc, hQ⟩ := hk _ _ h
      refine ⟨c, List.mem_append_right _ (List.mem_flatMap.mpr ⟨vf, hvf, ?_⟩), hQ⟩
      simp [hc]
  · obtain ⟨c, hc, h⟩ := mem_toList_flatMap.mp h
    exact ⟨c, by simp [PhysFunc.ids, hc], hd c a h⟩

theorem mem_vblkPlan {a : Action} (h : a ∈ vblkPlan self) :
    ∃ c ∈ self.vblkFunctions.flatMap PhysFunc.ids, VblkAction self c a := by
  obtain ⟨pf, hpf, h⟩ := List.mem_flatMap.mp h
  have hcase : ∃ c ∈ pf.ids, VblkAction self c a := by
    refine mem_pf_cases (fun f a h => ?_) (fun c a h => (mem_destroyVblkPlan h).action (by simp)) h
    obtain ⟨c, hc, h⟩ := mem_toList_flatMap.mp h
    exact ⟨c, hc, mem_vblkCtrlPlan h⟩
  obtain ⟨c, hc, ha⟩ := hcase
  exact ⟨c, List.mem_flatMap.mpr ⟨pf, hpf, hc⟩, ha⟩

theorem mem_nvmePlan {a : Action} (h : a ∈ nvmePlan self) :
    ∃ c ∈ self.nvmeFunctions.flatMap PhysFunc.ids, NvmeAction self c a := by
  obtain ⟨pf, hpf, h⟩ := List.mem_flatMap.mp h
  have hcase : ∃ c ∈ pf.ids, NvmeAction self c a := by
    refine mem_pf_cases (fun f a h => ?_) (fun c a h => (mem_cleanupNvmePlan h).action) h
    obtain ⟨c, hc, h⟩ := mem_toList_flatMap.mp h
    exact ⟨c, hc, mem_nvmeCtrlPlan h⟩
  obtain ⟨c, hc, ha⟩ := hcase
  exact ⟨c, List.mem_flatMap.mpr ⟨pf, hpf, hc⟩, ha⟩

/-- Every action of the plan is one for the controller of a function. -/
theorem mem_plan_cases {a : Action} (h : a ∈ plan self) :
    (∃ c ∈ self.vblkFunctions.flatMap PhysFunc.ids, VblkAction self c a) ∨
      ∃ c ∈ self.nvmeFunctions.flatMap PhysFunc.ids, NvmeAction self c a :=
  (List.mem_append.mp h).imp mem_vblkPlan mem_nvmePlan

/-! ## The kinds of commands -/

theorem handVblkOver_kind {c : String} {ctrl : VblkCtrl} :
    ∀ cmd ∈ handVblkOver c ctrl, cmd.rpc.kind = .controller := by
  intro cmd h
  simp only [handVblkOver, List.mem_cons, List.not_mem_nil, or_false] at h
  rcases h with rfl | rfl | rfl <;> rfl

theorem handNvmeOver_kind {ctrl : NvmeCtrl} :
    ∀ cmd ∈ handNvmeOver ctrl, cmd.rpc.kind = .controller := by
  intro cmd h
  simp only [handNvmeOver, List.mem_append, List.mem_cons, List.not_mem_nil, or_false,
    List.mem_map] at h
  rcases h with ((rfl | rfl) | ⟨n, -, rfl⟩) | rfl <;> rfl

/-- The commands that a plan fixes: those that hand a controller over, and those that remove it. -/
inductive ControllerCmd : Cmd → Prop where
  | handVblk (c : String) (ctrl : VblkCtrl) (cmd : Cmd) (h : cmd ∈ handVblkOver c ctrl) :
    ControllerCmd cmd
  | destroyVblk (c : String) (params : Option String) (hp : params ∈ [none, some "force"]) :
    ControllerCmd (destroyVblkCtrlCmd c params)
  | handNvme (ctrl : NvmeCtrl) (cmd : Cmd) (h : cmd ∈ handNvmeOver ctrl) : ControllerCmd cmd
  | detach (c : String) (n : CtrlNs) : ControllerCmd (detachNvmeNsCmd c n.nsid)
  | destroyNvme (c : String) : ControllerCmd (destroyNvmeControllerCmd c)

theorem fixed_controllerCmd {a : Action} (h : a ∈ plan self) {c : Cmd} (hc : a.fixed = some c) :
    ControllerCmd c := by
  rcases mem_plan_cases h with ⟨i, -, h⟩ | ⟨i, -, h⟩
  · cases h with
    | missing => cases hc
    | create => cases hc
    | hand ctrl cmd _ hcmd =>
      rw [← Option.some.inj hc]
      exact .handVblk i ctrl cmd hcmd
    | release ctrl params _ _ hp =>
      rw [← Option.some.inj hc]
      exact .destroyVblk i params hp
    | destroy ctrl params _ _ hp =>
      rw [← Option.some.inj hc]
      exact .destroyVblk i params hp
  · cases h with
    | missing => cases hc
    | subsys => cases hc
    | create => cases hc
    | ns => cases hc
    | hand ctrl cmd _ hcmd =>
      rw [← Option.some.inj hc]
      exact .handNvme ctrl cmd hcmd
    | release ctrl n =>
      rw [← Option.some.inj hc]
      exact .detach i n
    | destroy ctrl =>
      rw [← Option.some.inj hc]
      exact .destroyNvme i

/-- The commands that the plan fixes are about controllers. -/
theorem fixed_kind {a : Action} (h : a ∈ plan self) {c : Cmd} (hc : a.fixed = some c) :
    c.rpc.kind = .controller := by
  cases fixed_controllerCmd h hc with
  | handVblk i ctrl cmd hcmd => exact handVblkOver_kind c hcmd
  | destroyVblk => rfl
  | handNvme ctrl cmd hcmd => exact handNvmeOver_kind c hcmd
  | detach => rfl
  | destroyNvme => rfl

/-- Which action a command comes from, by its kind. -/
inductive Action.SendsKind (a : Action) (c : Cmd) : Prop where
  | create (b : String) (ha : a = .create b) (hc : IsCreateBdevCmd c) (hk : c.rpc.kind = .bdevCreate)
  | delete (c' : Cmd) (b : String) (ha : a = .release c' b) (hc : IsDestroyBdevCmd c)
    (hk : c.rpc.kind = .bdevDelete)
  | subsys (nqn : String) (ha : a = .subsys nqn) (hk : c.rpc.kind = .subsys)
  | ns (ctrl : NvmeCtrl) (n : CtrlNs) (ha : a = .ns ctrl n) (hk : c.rpc.kind = .ns)
  | fixed (ha : a.fixed = some c) (hk : c.rpc.kind = .controller)

theorem IsCreateBdevCmd.kind {c : Cmd} (h : IsCreateBdevCmd c) :
    c.rpc.kind = .bdevCreate ∧ c.sock = .dst := by
  cases h <;> exact ⟨rfl, rfl⟩

theorem IsDestroyBdevCmd.kind {c : Cmd} (h : IsDestroyBdevCmd c) :
    c.rpc.kind = .bdevDelete ∧ c.sock = .src := by
  cases h <;> exact ⟨rfl, rfl⟩

theorem sendsKind {a : Action} (hp : a ∈ plan self) {c : Cmd} (h : a.Sends c) :
    a.SendsKind c := by
  cases a with
  | send c' =>
    obtain rfl : c = c' := h
    exact .fixed rfl (fixed_kind hp rfl)
  | create b => exact .create b rfl h h.kind.1
  | release c' b =>
    rcases h with rfl | h
    · exact .fixed rfl (fixed_kind hp rfl)
    · exact .delete c' b rfl h h.kind.1
  | subsys nqn =>
    obtain ⟨subsys, rfl⟩ := h
    exact .subsys nqn rfl rfl
  | ns ctrl n =>
    obtain rfl : c = createNvmeNamespaceCmd ctrl n := h
    exact .ns ctrl n rfl rfl
  | missing => exact h.elim

end DcPerf.LiveUpdate
