import DcPerf.LiveUpdate.Proofs.Completion
import DcPerf.LiveUpdate.Proofs.Controllers
import DcPerf.LiveUpdate.Proofs.Replay

/-!
# The handover of a controller

In which order, and how often, a run suspends, creates and destroys the controllers of the
functions.
-/

namespace DcPerf.LiveUpdate

open DcPerf.Library

/-! ## Blocks of physical functions -/

/-- The plan of a physical function, made of a block for each controller and a last block for its
own controller. -/
def pfBlocks (block : Bool → String → List Action) (final : String → List Action) (pf : PhysFunc) :
    List Action :=
  pf.ctrlId.toList.flatMap (block pf.vfIndex.isSome) ++
    pf.vfs.flatMap (fun f => f.ctrlId.toList.flatMap (block f.vfIndex.isSome)) ++
    pf.ctrlId.toList.flatMap final

theorem vblkPlan_eq (self : Manager) : vblkPlan self = self.vblkFunctions.flatMap
    (pfBlocks (vblkCtrlPlan self) fun c => destroyVblkPlan self c none) := rfl

theorem nvmePlan_eq (self : Manager) : nvmePlan self = self.nvmeFunctions.flatMap
    (pfBlocks (nvmeCtrlPlan self) (cleanupNvmePlan self)) := rfl

/-- How often a list of actions has a fixed command with `q`. -/
def countFixed (q : Cmd → Bool) (l : List Action) : ℕ := (l.filterMap Action.fixed).countP q

@[simp] theorem countFixed_nil (q : Cmd → Bool) : countFixed q [] = 0 := rfl

@[simp] theorem countFixed_append (q : Cmd → Bool) (l l' : List Action) :
    countFixed q (l ++ l') = countFixed q l + countFixed q l' := by
  simp [countFixed]

theorem countFixed_flatMap {α : Type} {q : Cmd → Bool} {n : ℕ} {c : String}
    {f : α → List Action} {g : α → List String} {xs : List α}
    (h : ∀ x ∈ xs, countFixed q (f x) = n * (g x).count c) :
    countFixed q (xs.flatMap f) = n * (xs.flatMap g).count c := by
  induction xs with
  | nil => simp
  | cons x xs ih =>
    have hx := h x List.mem_cons_self
    have hrest := ih fun y hy => h y (List.mem_cons_of_mem x hy)
    rw [List.flatMap_cons, List.flatMap_cons, countFixed_append, List.count_append, hx, hrest,
      Nat.mul_add]

theorem countFixed_eq_zero {q : Cmd → Bool} {l : List Action}
    (h : ∀ a ∈ l, ∀ c, a.fixed = some c → q c = false) : countFixed q l = 0 := by
  refine List.countP_eq_zero.mpr fun c hc => ?_
  obtain ⟨a, ha, hac⟩ := List.mem_filterMap.mp hc
  simp [h a ha c hac]

/-- One controller, one block that counts it: the blocks count how often the functions have it. -/
theorem countFixed_pfBlocks {q : Cmd → Bool} {n : ℕ} {c : String}
    {block : Bool → String → List Action} {final : String → List Action} {pf : PhysFunc}
    (hvf : ∀ vf ∈ pf.vfs, ∀ i, countFixed q (block vf.vfIndex.isSome i) = if i = c then n else 0)
    (hpf : ∀ i, countFixed q (block pf.vfIndex.isSome i) + countFixed q (final i) =
      if i = c then n else 0) :
    countFixed q (pfBlocks block final pf) = n * pf.ids.count c := by
  have hone (i : String) : (if i = c then n else 0) = n * [i].count c := by
    by_cases hi : i = c <;> simp [hi]
  have hvfs : countFixed q (pf.vfs.flatMap fun f => f.ctrlId.toList.flatMap (block f.vfIndex.isSome))
      = n * (pf.vfs.flatMap fun vf => vf.ctrlId.toList).count c := by
    refine countFixed_flatMap fun vf hmem => ?_
    cases hi : vf.ctrlId with
    | none => simp
    | some i => simpa using (hvf vf hmem i).trans (hone i)
  have hself : countFixed q (pf.ctrlId.toList.flatMap (block pf.vfIndex.isSome)) +
      countFixed q (pf.ctrlId.toList.flatMap final) = n * pf.ctrlId.toList.count c := by
    cases hi : pf.ctrlId with
    | none => simp
    | some i => simpa using (hpf i).trans (hone i)
  rw [pfBlocks, countFixed_append, countFixed_append, hvfs, PhysFunc.ids, List.count_append,
    Nat.mul_add, ← hself]
  omega

/-- What the blocks of the functions have, and the last block after them, the plan has. -/
theorem always_pfBlocks {P : List Action → Action → Prop} (hP : Stable P)
    {block : Bool → String → List Action} {final : String → List Action} (pf : PhysFunc)
    (hblock : ∀ isVf c, Always P (block isVf c))
    (hfinal : ∀ isVf c l, Always (fun pre => P (block isVf c ++ l ++ pre)) (final c)) :
    Always P (pfBlocks block final pf) := by
  have hfunc (f : Func) : Always P (f.ctrlId.toList.flatMap (block f.vfIndex.isSome)) :=
    always_toList fun c _ => hblock _ c
  refine always_append ((hfunc _).append hP (Always.flatMap hP fun f _ => hfunc f)) ?_
  cases hc : pf.ctrlId with
  | none => simp
  | some c => simpa using hfinal pf.vfIndex.isSome c _

/-- Every controller of a function has its block. -/
theorem block_subset_pfBlocks (block : Bool → String → List Action)
    (final : String → List Action) {pf : PhysFunc} {c : String} (h : c ∈ pf.ids) :
    ∃ isVf, ∀ a ∈ block isVf c, a ∈ pfBlocks block final pf := by
  rcases List.mem_append.mp h with h | h
  · refine ⟨pf.vfIndex.isSome, fun a ha => ?_⟩
    refine List.mem_append_left _ (List.mem_append_left _ (List.mem_flatMap.mpr ⟨c, h, ha⟩))
  · obtain ⟨vf, hvf, hc⟩ := List.mem_flatMap.mp h
    refine ⟨vf.vfIndex.isSome, fun a ha => List.mem_append_left _ (List.mem_append_right _ ?_)⟩
    exact List.mem_flatMap.mpr ⟨vf, hvf, List.mem_flatMap.mpr ⟨c, hc, ha⟩⟩

theorem vblk_block_subset {src : Source} {c : String} (h : c ∈ src.ids "VBLK") :
    ∃ isVf, ∀ a ∈ vblkCtrlPlan (managerOf src) isVf c, a ∈ planOf src := by
  obtain ⟨pf, hpf, hc⟩ := List.mem_flatMap.mp h
  obtain ⟨isVf, hsub⟩ := block_subset_pfBlocks (vblkCtrlPlan (managerOf src))
    (fun c => destroyVblkPlan (managerOf src) c none) hc
  exact ⟨isVf, fun a ha => List.mem_append_left _ (List.mem_flatMap.mpr ⟨pf, hpf, hsub a ha⟩)⟩

theorem nvme_block_subset {src : Source} {c : String} (h : c ∈ src.ids "NVME") :
    ∃ isVf, ∀ a ∈ nvmeCtrlPlan (managerOf src) isVf c, a ∈ planOf src := by
  obtain ⟨pf, hpf, hc⟩ := List.mem_flatMap.mp h
  obtain ⟨isVf, hsub⟩ := block_subset_pfBlocks (nvmeCtrlPlan (managerOf src))
    (cleanupNvmePlan (managerOf src)) hc
  exact ⟨isVf, fun a ha => List.mem_append_right _ (List.mem_flatMap.mpr ⟨pf, hpf, hsub a ha⟩)⟩

/-! ## Commands after commands -/

/-- Before the actions that fix a command with `q` come ones that fix a command with `q'`. -/
def After (q q' : Cmd → Bool) : List Action → Action → Prop :=
  Follows (fun a => a.fixed.any q) fun a => a.fixed.any q'

theorem always_after_iff {q q' : Cmd → Bool} {l : List Action} :
    Always (After q q') l ↔ Always (Follows q q') (l.filterMap Action.fixed) := by
  rw [always_filterMap]
  constructor
  · intro h pre a post hl c hc hq
    obtain ⟨x, hx, hqx⟩ := h pre a post hl (by simp [hc, hq])
    obtain ⟨c', hc', hq'⟩ := (Option.any_eq_true _ _).mp hqx
    exact ⟨c', List.mem_filterMap.mpr ⟨x, hx, hc'⟩, hq'⟩
  · intro h pre a post hl hq
    obtain ⟨c, hc, hqc⟩ := (Option.any_eq_true _ _).mp hq
    obtain ⟨c', hc', hq'⟩ := h pre a post hl c hc hqc
    obtain ⟨x, hx, hxc⟩ := List.mem_filterMap.mp hc'
    exact ⟨x, hx, by simp [hxc, hq']⟩

/-- Actions after a list that has what they wait for. -/
theorem always_after_of_exists {q q' : Cmd → Bool} {l l' : List Action}
    (h : (∃ x ∈ l'.filterMap Action.fixed, q x = true) →
      ∃ x ∈ l.filterMap Action.fixed, q' x = true) :
    Always (fun pre => After q q' (l ++ pre)) l' := by
  rintro pre a post rfl hq
  obtain ⟨c, hc, hqc⟩ := (Option.any_eq_true _ _).mp hq
  obtain ⟨c', hc', hq'⟩ := h ⟨c, List.mem_filterMap.mpr ⟨a, by simp, hc⟩, hqc⟩
  obtain ⟨x, hx, hxc⟩ := List.mem_filterMap.mp hc'
  exact ⟨x, List.mem_append_left _ hx, by simp [hxc, hq']⟩

/-- Actions that fix no command with `q` need nothing before them. -/
theorem always_after_of_not {q q' : Cmd → Bool} {l : List Action}
    (h : ∀ a ∈ l, ∀ c, a.fixed = some c → q c = false) : Always (After q q') l := by
  rintro pre a post rfl hq
  obtain ⟨c, hc, hqc⟩ := (Option.any_eq_true _ _).mp hq
  simp [h a (by simp) c hc] at hqc

@[simp] theorem fixed_send (c : Cmd) : (Action.send c).fixed = some c := rfl
@[simp] theorem fixed_release (c : Cmd) (b : String) : (Action.release c b).fixed = some c := rfl
@[simp] theorem fixed_create (b : String) : (Action.create b).fixed = none := rfl
@[simp] theorem fixed_subsys (nqn : String) : (Action.subsys nqn).fixed = none := rfl
@[simp] theorem fixed_ns (ctrl : NvmeCtrl) (n : CtrlNs) : (Action.ns ctrl n).fixed = none := rfl
@[simp] theorem fixed_missing : Action.missing.fixed = none := rfl

theorem filterMap_fixed_send (cmds : List Cmd) :
    (cmds.map Action.send).filterMap Action.fixed = cmds := by
  induction cmds with
  | nil => rfl
  | cons c cmds ih => rw [List.map_cons, List.filterMap_cons_some (fixed_send c), ih]

/-! ## The fixed commands of the blocks -/

section Blocks

variable {src : Source} {c i : String} {isVf : Bool}

theorem vblkCtrlPlan_fixed (self : Manager) (isVf : Bool) (i : String) :
    (vblkCtrlPlan self isVf i).filterMap Action.fixed =
      (self.vblkCtrlDict.lookup i).elim [] fun ctrl => handVblkOver i ctrl ++
        if isVf then [destroyVblkCtrlCmd i (some "force")] else [] := by
  unfold vblkCtrlPlan destroyVblkPlan
  cases self.vblkCtrlDict.lookup i with
  | none => rfl
  | some ctrl =>
    by_cases hb : ctrl.bdev = "none" <;> cases isVf <;>
      simp [look, hb, filterMap_fixed_send, List.filterMap_append, List.filterMap_cons,
        -List.filterMap_map]

theorem destroyVblkPlan_fixed (self : Manager) (i : String) (params : Option String) :
    (destroyVblkPlan self i params).filterMap Action.fixed =
      (self.vblkCtrlDict.lookup i).elim [] fun _ => [destroyVblkCtrlCmd i params] := by
  unfold destroyVblkPlan
  cases self.vblkCtrlDict.lookup i with
  | none => rfl
  | some ctrl => by_cases hb : ctrl.bdev = "none" <;> simp [look, hb]

theorem cleanupNvmePlan_fixed (self : Manager) (i : String) :
    (cleanupNvmePlan self i).filterMap Action.fixed =
      (self.nvmeCtrlDict.lookup i).elim [] fun ctrl =>
        (ctrl.namespaces.map fun ns => detachNvmeNsCmd i ns.nsid) ++
          [destroyNvmeControllerCmd i] := by
  unfold cleanupNvmePlan
  cases self.nvmeCtrlDict.lookup i with
  | none => rfl
  | some ctrl =>
    have hmap (l : List CtrlNs) : (l.map fun ns => Action.release (detachNvmeNsCmd i ns.nsid)
        ns.bdev).filterMap Action.fixed = l.map fun ns => detachNvmeNsCmd i ns.nsid := by
      induction l with
      | nil => rfl
      | cons ns l ih => rw [List.map_cons, List.filterMap_cons_some (fixed_release _ _), ih]; rfl
    simp only [look, List.filterMap_append, hmap, Option.elim_some]
    rfl

theorem nvmeCtrlPlan_fixed (self : Manager) (isVf : Bool) (i : String) :
    (nvmeCtrlPlan self isVf i).filterMap Action.fixed =
      (self.nvmeCtrlDict.lookup i).elim [] fun ctrl => handNvmeOver ctrl ++
        if isVf then (cleanupNvmePlan self i).filterMap Action.fixed else [] := by
  unfold nvmeCtrlPlan
  cases self.nvmeCtrlDict.lookup i with
  | none => rfl
  | some ctrl =>
    have hns : (ctrl.namespaces.flatMap fun ns => [Action.create ns.bdev, Action.ns ctrl ns]
        ).filterMap Action.fixed = [] := by
      refine List.filterMap_eq_nil_iff.mpr fun a ha => ?_
      obtain ⟨ns, -, ha⟩ := List.mem_flatMap.mp ha
      rcases List.mem_cons.mp ha with rfl | ha
      · rfl
      · rw [List.mem_singleton.mp ha]
        rfl
    simp only [look, List.filterMap_append, hns, filterMap_fixed_send, Option.elim_some]
    cases isVf <;> simp

/-- A controller is listed under its own name. -/
theorem ctrlId_of_lookup {ctrl : NvmeCtrl}
    (h : (managerOf src).nvmeCtrlDict.lookup i = some ctrl) : ctrl.ctrlId = i := by
  obtain ⟨x, -, hx, rfl⟩ := Dict.exists_of_lookup_ofList h
  exact hx

/-- Whether a controller is listed, as a number. -/
def listed {α : Type} (d : Dict String α) (c : String) : ℕ := if (d.lookup c).isSome then 1 else 0

theorem listed_le_one {α : Type} (d : Dict String α) (c : String) : listed d c ≤ 1 := by
  unfold listed
  split <;> omega

theorem countP_single {q : Cmd → Bool} {α : Type} {d : Dict String α} {f : α → List Cmd}
    (h : ∀ a, d.lookup i = some a → (f a).countP q = if i = c then 1 else 0) :
    ((d.lookup i).elim [] f).countP q = if i = c then listed d c else 0 := by
  by_cases hi : i = c
  · subst hi
    cases ha : d.lookup i with
    | none => simp [listed, ha]
    | some a => simp [listed, ha, h a ha]
  · cases ha : d.lookup i with
    | none => simp [hi]
    | some a => simp [hi, h a ha]

theorem countFixed_vblk_create (self : Manager) (isVf : Bool) (i c : String) :
    countFixed (Cmd.is .dst (Rpc.createsVblk c)) (vblkCtrlPlan self isVf i) =
      if i = c then listed self.vblkCtrlDict c else 0 := by
  rw [countFixed, vblkCtrlPlan_fixed]
  refine countP_single fun ctrl _ => ?_
  cases isVf <;> by_cases hi : i = c <;>
    simp [handVblkOver, Cmd.is, Rpc.createsVblk, suspendVblkCtrlCmd, cleanupVblkControllerCmd,
      restoreVblkControllerCmd, destroyVblkCtrlCmd, hi]

theorem countFixed_vblk_destroy (self : Manager) (isVf : Bool) (i c : String) :
    countFixed (Cmd.is .src (Rpc.destroysVblk c)) (vblkCtrlPlan self isVf i) =
      if i = c ∧ isVf then listed self.vblkCtrlDict c else 0 := by
  rw [countFixed, vblkCtrlPlan_fixed]
  cases isVf with
  | false =>
    have hz : ∀ o : Option VblkCtrl, (o.elim [] fun ctrl => handVblkOver i ctrl ++
        if false = true then [destroyVblkCtrlCmd i (some "force")] else []).countP
        (Cmd.is .src (Rpc.destroysVblk c)) = 0 := by
      rintro (- | ctrl)
      · rfl
      · simp [handVblkOver, Cmd.is, Rpc.destroysVblk, suspendVblkCtrlCmd, cleanupVblkControllerCmd,
          restoreVblkControllerCmd]
    simpa using hz _
  | true =>
    simp only [and_true]
    refine countP_single fun ctrl _ => ?_
    by_cases hi : i = c <;>
      simp [handVblkOver, Cmd.is, Rpc.destroysVblk, suspendVblkCtrlCmd, cleanupVblkControllerCmd,
        restoreVblkControllerCmd, destroyVblkCtrlCmd, hi]

theorem countFixed_vblk_final (self : Manager) (i c : String) :
    countFixed (Cmd.is .src (Rpc.destroysVblk c)) (destroyVblkPlan self i none) =
      if i = c then listed self.vblkCtrlDict c else 0 := by
  rw [countFixed, destroyVblkPlan_fixed]
  refine countP_single fun ctrl _ => ?_
  by_cases hi : i = c <;> simp [Cmd.is, Rpc.destroysVblk, destroyVblkCtrlCmd, hi]

theorem countP_map_eq_zero {α : Type} {q : Cmd → Bool} {f : α → Cmd} (h : ∀ a, q (f a) = false)
    (l : List α) : (l.map f).countP q = 0 := by
  rw [List.countP_map]
  exact List.countP_eq_zero.mpr fun a _ => by simp [h]

theorem countFixed_nvme_final (self : Manager) (i c : String) :
    countFixed (Cmd.is .src (Rpc.destroysNvme c)) (cleanupNvmePlan self i) =
      if i = c then listed self.nvmeCtrlDict c else 0 := by
  rw [countFixed, cleanupNvmePlan_fixed]
  refine countP_single fun ctrl _ => ?_
  rw [List.countP_append, countP_map_eq_zero fun _ => rfl]
  by_cases hi : i = c <;> simp [Cmd.is, Rpc.destroysNvme, destroyNvmeControllerCmd, hi]

theorem countFixed_nvme_create (src : Source) (isVf : Bool) (i c : String) :
    countFixed (Cmd.is .dst (Rpc.createsNvme c)) (nvmeCtrlPlan (managerOf src) isVf i) =
      if i = c then listed (managerOf src).nvmeCtrlDict c else 0 := by
  rw [countFixed, nvmeCtrlPlan_fixed]
  refine countP_single fun ctrl hctrl => ?_
  have hid := ctrlId_of_lookup hctrl
  have hcln : (if isVf then (cleanupNvmePlan (managerOf src) i).filterMap Action.fixed
      else []).countP (Cmd.is .dst (Rpc.createsNvme c)) = 0 := by
    cases isVf with
    | false => rfl
    | true =>
      rw [cleanupNvmePlan_fixed, hctrl]
      simp [List.countP_append, countP_map_eq_zero (q := Cmd.is .dst (Rpc.createsNvme c))
        (f := fun ns : CtrlNs => detachNvmeNsCmd i ns.nsid) fun _ => rfl, Cmd.is,
        destroyNvmeControllerCmd]
  rw [List.countP_append, hcln, handNvmeOver, List.countP_append, List.countP_append,
    countP_map_eq_zero fun _ => rfl]
  by_cases hi : i = c <;>
    simp [Cmd.is, Rpc.createsNvme, suspendNvmeCtrlCmd, createPassiveNvmeControllerCmd, hid, hi]

theorem countFixed_nvme_destroy (self : Manager) (isVf : Bool) (i c : String) :
    countFixed (Cmd.is .src (Rpc.destroysNvme c)) (nvmeCtrlPlan self isVf i) =
      if i = c ∧ isVf then listed self.nvmeCtrlDict c else 0 := by
  have hhand (ctrl : NvmeCtrl) :
      (handNvmeOver ctrl).countP (Cmd.is .src (Rpc.destroysNvme c)) = 0 := by
    rw [handNvmeOver, List.countP_append, List.countP_append, countP_map_eq_zero fun _ => rfl]
    simp [Cmd.is, Rpc.destroysNvme, suspendNvmeCtrlCmd, createPassiveNvmeControllerCmd]
  have hfinal := countFixed_nvme_final self i c
  rw [countFixed] at hfinal
  rw [countFixed, nvmeCtrlPlan_fixed]
  cases hl : self.nvmeCtrlDict.lookup i with
  | none =>
    rw [cleanupNvmePlan_fixed, hl] at hfinal
    cases isVf <;> simp_all
  | some ctrl => cases isVf <;> simp [List.countP_append, hhand, hfinal]

end Blocks

/-! ## How often the plan creates and destroys a controller -/

section Counts

variable {src : Source} {c : String}

/-- The RPC is one of a VBLK controller. -/
def Rpc.isVblk : Rpc → Bool
  | virtioBlkControllerSuspend .. | virtioBlkControllerCreate .. | virtioBlkControllerDestroy .. =>
    true
  | _ => false

theorem VblkAction.isVblk {self : Manager} {i : String} {a : Action} (h : VblkAction self i a)
    {cmd : Cmd} (hc : a.fixed = some cmd) : cmd.rpc.isVblk = true := by
  cases h with
  | missing => simp at hc
  | create => simp at hc
  | hand ctrl cmd' _ hcmd =>
    obtain rfl := Option.some.inj hc
    simp only [handVblkOver, List.mem_cons, List.not_mem_nil, or_false] at hcmd
    rcases hcmd with rfl | rfl | rfl <;> rfl
  | release => rw [← Option.some.inj hc]; rfl
  | destroy => rw [← Option.some.inj hc]; rfl

theorem NvmeAction.isVblk {self : Manager} {i : String} {a : Action} (h : NvmeAction self i a)
    {cmd : Cmd} (hc : a.fixed = some cmd) : cmd.rpc.isVblk = false := by
  cases h with
  | missing => simp at hc
  | subsys => simp at hc
  | create => simp at hc
  | ns => simp at hc
  | hand ctrl cmd' _ hcmd =>
    obtain rfl := Option.some.inj hc
    simp only [handNvmeOver, List.mem_append, List.mem_cons, List.not_mem_nil, or_false,
      List.mem_map] at hcmd
    rcases hcmd with ((rfl | rfl) | ⟨n, -, rfl⟩) | rfl <;> rfl
  | release => rw [← Option.some.inj hc]; rfl
  | destroy => rw [← Option.some.inj hc]; rfl

/-- The VBLK part of the plan has the commands of VBLK controllers. -/
theorem countP_vblk {q : Cmd → Bool} (hq : ∀ cmd, q cmd = true → cmd.rpc.isVblk = true) :
    (fixedCmds src).countP q = countFixed q (vblkPlan (managerOf src)) := by
  have hz : countFixed q (nvmePlan (managerOf src)) = 0 := by
    refine countFixed_eq_zero fun a ha cmd hc => ?_
    obtain ⟨i, -, hact⟩ := mem_nvmePlan ha
    by_contra hne
    have hv := hq cmd (by simpa using hne)
    simp [hact.isVblk hc] at hv
  show countFixed q (vblkPlan (managerOf src) ++ nvmePlan (managerOf src)) = _
  rw [countFixed_append, hz, Nat.add_zero]

/-- The NVMe part of the plan has the other ones. -/
theorem countP_nvme {q : Cmd → Bool} (hq : ∀ cmd, q cmd = true → cmd.rpc.isVblk = false) :
    (fixedCmds src).countP q = countFixed q (nvmePlan (managerOf src)) := by
  have hz : countFixed q (vblkPlan (managerOf src)) = 0 := by
    refine countFixed_eq_zero fun a ha cmd hc => ?_
    obtain ⟨i, -, hact⟩ := mem_vblkPlan ha
    by_contra hne
    have hv := hq cmd (by simpa using hne)
    simp [hact.isVblk hc] at hv
  show countFixed q (vblkPlan (managerOf src) ++ nvmePlan (managerOf src)) = _
  rw [countFixed_append, hz, Nat.zero_add]

theorem is_rpc {k : Sock} {p : Rpc → Bool} {cmd : Cmd} (h : cmd.is k p = true) :
    p cmd.rpc = true := ((Bool.and_eq_true _ _).mp h).2

theorem count_vblk_create : (fixedCmds src).countP (Cmd.is .dst (Rpc.createsVblk c)) =
    listed (managerOf src).vblkCtrlDict c * (src.ids "VBLK").count c := by
  have hz (i : String) : countFixed (Cmd.is .dst (Rpc.createsVblk c))
      (destroyVblkPlan (managerOf src) i none) = 0 := by
    rw [countFixed, destroyVblkPlan_fixed]
    cases (managerOf src).vblkCtrlDict.lookup i <;> rfl
  rw [countP_vblk fun cmd h => ?_, vblkPlan_eq]
  · refine countFixed_flatMap fun pf _ => countFixed_pfBlocks (fun vf _ i => ?_) fun i => ?_
    · exact countFixed_vblk_create _ _ i c
    · rw [countFixed_vblk_create, hz, Nat.add_zero]
  · have hp := is_rpc h
    cases hr : cmd.rpc <;> simp_all [Rpc.createsVblk, Rpc.isVblk]

theorem count_vblk_destroy (hnum : src.WellNumbered "VBLK") :
    (fixedCmds src).countP (Cmd.is .src (Rpc.destroysVblk c)) =
      listed (managerOf src).vblkCtrlDict c * (src.ids "VBLK").count c := by
  rw [countP_vblk fun cmd h => ?_, vblkPlan_eq]
  · refine countFixed_flatMap fun pf hpf => countFixed_pfBlocks (fun vf hvf i => ?_) fun i => ?_
    · rw [(hnum pf hpf).2 vf hvf]
      simpa using countFixed_vblk_destroy (managerOf src) true i c
    · rw [(hnum pf hpf).1]
      simpa [countFixed_vblk_final] using countFixed_vblk_destroy (managerOf src) false i c
  · have hp := is_rpc h
    cases hr : cmd.rpc <;> simp_all [Rpc.destroysVblk, Rpc.isVblk]

theorem count_nvme_create : (fixedCmds src).countP (Cmd.is .dst (Rpc.createsNvme c)) =
    listed (managerOf src).nvmeCtrlDict c * (src.ids "NVME").count c := by
  have hz (i : String) : countFixed (Cmd.is .dst (Rpc.createsNvme c))
      (cleanupNvmePlan (managerOf src) i) = 0 := by
    rw [countFixed, cleanupNvmePlan_fixed]
    cases (managerOf src).nvmeCtrlDict.lookup i with
    | none => rfl
    | some ctrl =>
      rw [Option.elim_some, List.countP_append, countP_map_eq_zero fun _ => rfl]
      rfl
  rw [countP_nvme fun cmd h => ?_, nvmePlan_eq]
  · refine countFixed_flatMap fun pf _ => countFixed_pfBlocks (fun vf _ i => ?_) fun i => ?_
    · exact countFixed_nvme_create src _ i c
    · rw [countFixed_nvme_create, hz, Nat.add_zero]
  · have hp := is_rpc h
    cases hr : cmd.rpc <;> simp_all [Rpc.createsNvme, Rpc.isVblk]

theorem count_nvme_destroy (hnum : src.WellNumbered "NVME") :
    (fixedCmds src).countP (Cmd.is .src (Rpc.destroysNvme c)) =
      listed (managerOf src).nvmeCtrlDict c * (src.ids "NVME").count c := by
  rw [countP_nvme fun cmd h => ?_, nvmePlan_eq]
  · refine countFixed_flatMap fun pf hpf => countFixed_pfBlocks (fun vf hvf i => ?_) fun i => ?_
    · rw [(hnum pf hpf).2 vf hvf]
      simpa using countFixed_nvme_destroy (managerOf src) true i c
    · rw [(hnum pf hpf).1]
      simpa [countFixed_nvme_final] using countFixed_nvme_destroy (managerOf src) false i c
  · have hp := is_rpc h
    cases hr : cmd.rpc <;> simp_all [Rpc.destroysNvme, Rpc.isVblk]

end Counts

end DcPerf.LiveUpdate
