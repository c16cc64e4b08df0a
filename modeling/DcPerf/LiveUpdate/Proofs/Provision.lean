import DcPerf.LiveUpdate.Proofs.CreationRuns
import DcPerf.LiveUpdate.Proofs.Release
import DcPerf.LiveUpdate.Target

/-!
# The subsystems and namespaces of the destination

At every point of a run the destination holds, of the subsystems and namespaces that the run has
asked for so far, those that come first with their nqn or uuid. An nsid is therefore attached from
the right subsystem only if its namespace comes first.
-/

namespace DcPerf.LiveUpdate

open DcPerf.Library

/-! ## The NVMe part of the plan -/

/-- The namespace that an action creates, unless there is one with its uuid. -/
def Action.ns? : Action → Option Namespace
  | .ns ctrl n => some (n.within ctrl.nqn)
  | _ => none

/-- The subsystem that an action creates, unless there is one with its nqn. -/
def Action.subsys? (self : Manager) : Action → Option Subsys
  | .subsys nqn => self.nvmeSubsysDict.lookup nqn
  | _ => none

section Plan

variable {src : Source} {β : Type} {f : Action → Option β} {g : NvmeCtrl → List β}

/-- What is picked out of the handovers of the NVMe controllers is picked out of the plan. -/
theorem filterMap_plan (hvblk : ∀ a ∈ vblkPlan (managerOf src), f a = none)
    (hmissing : f .missing = none)
    (hhand : ∀ ctrl, ([Action.subsys ctrl.nqn] ++
      (ctrl.namespaces.flatMap fun n => [Action.create n.bdev, Action.ns ctrl n]) ++
      (handNvmeOver ctrl).map Action.send).filterMap f = g ctrl)
    (hclean : ∀ c, ∀ a ∈ cleanupNvmePlan (managerOf src) c, f a = none) :
    (planOf src).filterMap f = src.migrated.flatMap g := by
  have hblock (isVf : Bool) (c : String) : (nvmeCtrlPlan (managerOf src) isVf c).filterMap f =
      ((src.nvmeCtrl? c).toList).flatMap g := by
    rw [nvmeCtrlPlan, Source.nvmeCtrl?]
    cases (managerOf src).nvmeCtrlDict.lookup c with
    | none => exact List.filterMap_eq_nil_iff.mpr (by simpa [look] using hmissing)
    | some ctrl =>
      have hlast : (if isVf then cleanupNvmePlan (managerOf src) c else []).filterMap f = [] := by
        cases isVf with
        | false => rfl
        | true => exact List.filterMap_eq_nil_iff.mpr (hclean c)
      rw [look, List.filterMap_append, hhand, hlast]
      simp
  have hfunc (h : Func) : (h.ctrlId.toList.flatMap
      (nvmeCtrlPlan (managerOf src) h.vfIndex.isSome)).filterMap f =
      h.ctrlId.toList.flatMap fun c => (src.nvmeCtrl? c).toList.flatMap g := by
    rw [List.filterMap_flatMap]
    simp only [hblock]
  have hpf (pf : PhysFunc) : (pfBlocks (nvmeCtrlPlan (managerOf src))
      (cleanupNvmePlan (managerOf src)) pf).filterMap f =
      pf.ids.flatMap fun c => (src.nvmeCtrl? c).toList.flatMap g := by
    have hlast : (pf.ctrlId.toList.flatMap (cleanupNvmePlan (managerOf src))).filterMap f = [] := by
      refine List.filterMap_eq_nil_iff.mpr fun a ha => ?_
      obtain ⟨c, -, ha⟩ := mem_toList_flatMap.mp ha
      exact hclean c a ha
    rw [pfBlocks, List.filterMap_append, List.filterMap_append, hfunc pf.toFunc, hlast,
      List.filterMap_flatMap, PhysFunc.ids, List.flatMap_append, List.append_nil]
    simp only [hfunc, List.flatMap_assoc]
  have hnvme : (nvmePlan (managerOf src)).filterMap f = src.migrated.flatMap g := by
    rw [nvmePlan_eq, List.filterMap_flatMap, Source.migrated, Source.ids, List.flatMap_assoc,
      List.flatMap_assoc]
    simp only [hpf]
    rfl
  show (vblkPlan (managerOf src) ++ nvmePlan (managerOf src)).filterMap f = _
  rw [List.filterMap_append, List.filterMap_eq_nil_iff.mpr hvblk, hnvme, List.nil_append]

/-- The namespaces that the plan asks for are those of the migrated controllers. -/
theorem plan_ns (src : Source) : (planOf src).filterMap Action.ns? = src.attached := by
  have hattached : src.attached = src.migrated.flatMap fun ctrl =>
      ctrl.namespaces.map (CtrlNs.within · ctrl.nqn) := by
    rw [Source.attached, Source.migrated, List.flatMap_assoc]
  rw [hattached]
  refine filterMap_plan (fun a ha => ?_) rfl (fun ctrl => ?_) fun c a ha => ?_
  · obtain ⟨i, -, hact⟩ := mem_vblkPlan ha
    cases hact <;> rfl
  · have hns (l : List CtrlNs) : (l.flatMap fun n => [Action.create n.bdev, Action.ns ctrl n]
        ).filterMap Action.ns? = l.map (CtrlNs.within · ctrl.nqn) := by
      induction l with
      | nil => rfl
      | cons n l ih =>
        rw [List.flatMap_cons, List.filterMap_append, ih]
        rfl
    have hhand : ((handNvmeOver ctrl).map Action.send).filterMap Action.ns? = [] := by
      refine List.filterMap_eq_nil_iff.mpr fun a ha => ?_
      obtain ⟨c, -, rfl⟩ := List.mem_map.mp ha
      rfl
    rw [List.filterMap_append, List.filterMap_append, hns, hhand, List.append_nil]
    rfl
  · cases mem_cleanupNvmePlan ha <;> rfl

/-- The subsystems that the plan asks for are those of the migrated controllers. -/
theorem plan_subsys (src : Source) :
    (planOf src).filterMap (Action.subsys? (managerOf src)) = src.migrated.flatMap fun ctrl =>
      ((managerOf src).nvmeSubsysDict.lookup ctrl.nqn).toList := by
  refine filterMap_plan (fun a ha => ?_) rfl (fun ctrl => ?_) fun c a ha => ?_
  · obtain ⟨i, -, hact⟩ := mem_vblkPlan ha
    cases hact <;> rfl
  · have hns : (ctrl.namespaces.flatMap fun n => [Action.create n.bdev, Action.ns ctrl n]
        ).filterMap (Action.subsys? (managerOf src)) = [] := by
      refine List.filterMap_eq_nil_iff.mpr fun a ha => ?_
      obtain ⟨n, -, ha⟩ := List.mem_flatMap.mp ha
      rcases List.mem_cons.mp ha with rfl | ha
      · rfl
      · rw [List.mem_singleton.mp ha]
        rfl
    have hhand : ((handNvmeOver ctrl).map Action.send).filterMap
        (Action.subsys? (managerOf src)) = [] := by
      refine List.filterMap_eq_nil_iff.mpr fun a ha => ?_
      obtain ⟨c, -, rfl⟩ := List.mem_map.mp ha
      rfl
    rw [List.filterMap_append, List.filterMap_append, hns, hhand]
    cases hl : (managerOf src).nvmeSubsysDict.lookup ctrl.nqn <;> simp [Action.subsys?, hl]
  · cases mem_cleanupNvmePlan ha <;> rfl

end Plan

/-! ## The objects that the destination holds -/

/-- The destination holds the subsystems and namespaces that the actions `done` asked for, as far as
they came first. -/
structure Provisioned (w : World) (done : List Action) (s : Session) : Prop where
  namespaces : s.world.dst.namespaces =
    addAll Namespace.uuid w.dst.namespaces (done.filterMap Action.ns?)
  subsystems : s.world.dst.subsystems =
    addAll Subsys.nqn w.dst.subsystems (done.filterMap (Action.subsys? (managerOf w.src)))
  /-- What the history marks exists. -/
  hist : ∀ nqn k, s.mem.nvmeSubsysHist.lookup nqn = some k → k ≠ 0 →
    nqn ∈ s.world.dst.subsystems.map Subsys.nqn
  /-- What was asked for exists. -/
  asked : ∀ nqn, .subsys nqn ∈ done → nqn ∈ s.world.dst.subsystems.map Subsys.nqn

section Runs

variable {w : World} {answers : ℕ → Bool} {s s' : Session} {done rest : List Action} {a : Action}
  {l : List Event}

theorem exec_namespaces (d : Destination) {r : Rpc} (h : r.kind ≠ .ns) :
    (d.exec r).namespaces = d.namespaces := by
  cases r <;> first | rfl | exact absurd rfl h

theorem exec_subsystems (d : Destination) {r : Rpc} (h : r.kind ≠ .subsys) :
    (d.exec r).subsystems = d.subsystems := by
  cases r <;> first | rfl | exact absurd rfl h

/-- Commands of other kinds leave a part of the destination as it is. -/
theorem replay_keeps {γ : Type} (w : World) (v : Destination → γ) {K : Kind → Prop}
    (hv : ∀ d r, K r.kind → v (d.exec r) = v d)
    (hl : ∀ e ∈ l, ∀ c ∈ e.cmd?, K c.rpc.kind) : v (w.replay l).dst = v w.dst := by
  induction l using List.reverseRecOn with
  | nil => rfl
  | append_singleton l e ih =>
    have hprev := ih fun x hx => hl x (List.mem_append_left _ hx)
    rw [World.replay_append, World.replay_singleton, after_dst]
    cases e with
    | asked k sc me ok => cases ok <;> simpa [Event.ok, Event.rpcTo] using hprev
    | sent c ok =>
      have hk := hl (.sent c ok) (by simp) c rfl
      cases ok with
      | false => simpa [Event.ok] using hprev
      | true => by_cases hs : c.sock = .dst <;> simp [Event.ok, Event.rpcTo, hs, hv _ _ hk, hprev]

theorem provisioned_start (h : Started w answers s) : Provisioned w [] s := by
  refine ⟨by rw [h.world]; rfl, by rw [h.world]; rfl, fun nqn k hk hne => ?_, by simp⟩
  rw [h.mem] at hk
  obtain ⟨x, -, -, hx⟩ := Dict.exists_of_lookup_ofList hk
  exact absurd hx.symm hne

/-- An action that asks for no subsystem and no namespace, and changes none. -/
theorem Provisioned.keep (h : Provisioned w done s) (hns : a.ns? = none)
    (hsub : a.subsys? (managerOf w.src) = none)
    (hn : s'.world.dst.namespaces = s.world.dst.namespaces)
    (hs : s'.world.dst.subsystems = s.world.dst.subsystems)
    (hne : ∀ nqn, a ≠ .subsys nqn) (hh : s'.mem.nvmeSubsysHist = s.mem.nvmeSubsysHist) :
    Provisioned w (done ++ [a]) s' := by
  refine ⟨?_, ?_, ?_, fun nqn hmem => ?_⟩
  · rw [filterMap_snoc, hns, Option.toList_none, List.append_nil, hn, h.namespaces]
  · rw [filterMap_snoc, hsub, Option.toList_none, List.append_nil, hs, h.subsystems]
  · rw [hh, hs]
    exact h.hist
  · rw [hs]
    rcases List.mem_append.mp hmem with hmem | hmem
    · exact h.asked nqn hmem
    · exact absurd (List.mem_singleton.mp hmem).symm (hne nqn)

/-- The history may mark a subsystem that exists now. -/
theorem Provisioned.hist_set {nqn nqn' : String} {m : Memory} {k : ℕ} {subs : List Subsys}
    (h : Provisioned w done s) (hm : m.nvmeSubsysHist = s.mem.nvmeSubsysHist.set nqn 1)
    (hsub : ∀ sub ∈ s.world.dst.subsystems, sub ∈ subs) (hin : nqn ∈ subs.map Subsys.nqn)
    (hk : m.nvmeSubsysHist.lookup nqn' = some k) (hne : k ≠ 0) : nqn' ∈ subs.map Subsys.nqn := by
  rw [hm, Dict.lookup_set] at hk
  split at hk
  · rename_i heq
    rw [heq]
    exact hin
  · obtain ⟨sub, hmem, hn⟩ := List.mem_map.mp (h.hist nqn' k hk hne)
    exact List.mem_map.mpr ⟨sub, hsub sub hmem, hn⟩

theorem Provisioned.asked_snoc {nqn nqn' : String} {subs : List Subsys} (h : Provisioned w done s)
    (hsub : ∀ sub ∈ s.world.dst.subsystems, sub ∈ subs) (hin : nqn ∈ subs.map Subsys.nqn)
    (hmem : .subsys nqn' ∈ done ++ [Action.subsys nqn]) : nqn' ∈ subs.map Subsys.nqn := by
  rcases List.mem_append.mp hmem with hmem | hmem
  · obtain ⟨sub, hmem, hn⟩ := List.mem_map.mp (h.asked nqn' hmem)
    exact List.mem_map.mpr ⟨sub, hsub sub hmem, hn⟩
  · rw [Action.subsys.inj (List.mem_singleton.mp hmem)]
    exact hin

/-- The step for a subsystem adds it, unless it is there. -/
theorem Provisioned.subsys {nqn : String} (h : Provisioned w done s)
    (he : SubsysEnsured (managerOf w.src) nqn s s') :
    Provisioned w (done ++ [Action.subsys nqn]) s' := by
  have hnqn {sub : Subsys} (hs : (managerOf w.src).nvmeSubsysDict.lookup nqn = some sub) :
      sub.nqn = nqn := by
    obtain ⟨x, -, hx, rfl⟩ := Dict.exists_of_lookup_ofList hs
    exact hx
  have hlist : (done ++ [Action.subsys nqn]).filterMap Action.ns? = done.filterMap Action.ns? := by
    rw [filterMap_snoc]
    exact List.append_nil _
  have hsubs (sub : Subsys) (hs : (managerOf w.src).nvmeSubsysDict.lookup nqn = some sub) :
      addAll Subsys.nqn w.dst.subsystems
        ((done ++ [Action.subsys nqn]).filterMap (Action.subsys? (managerOf w.src))) =
      addNew Subsys.nqn s.world.dst.subsystems sub := by
    rw [filterMap_snoc, Action.subsys?, hs, Option.toList_some, addAll_snoc, h.subsystems]
  cases he with
  | skip hk =>
    obtain ⟨k, hk, hne⟩ := hk
    refine ⟨by rw [hlist, h.namespaces], ?_, h.hist,
      fun _ => h.asked_snoc (fun _ h => h) (h.hist nqn k hk hne)⟩
    cases hs : (managerOf w.src).nvmeSubsysDict.lookup nqn with
    | none =>
      rw [filterMap_snoc, Action.subsys?, hs, Option.toList_none, List.append_nil, h.subsystems]
    | some sub =>
      rw [hsubs sub hs, addNew_of_mem]
      rw [hnqn hs]
      exact h.hist nqn k hk hne
  | found sub hs _ hd =>
    refine ⟨by rw [hlist]; exact h.namespaces, ?_, fun nqn' k hk hne => ?_,
      fun _ => h.asked_snoc (fun _ h => h) (hnqn hs ▸ hd)⟩
    · rw [hsubs sub hs, addNew_of_mem hd]
      rfl
    · exact h.hist_set rfl (fun _ h => h) (hnqn hs ▸ hd) hk hne
  | create sub hs _ hd =>
    have hin : nqn ∈ (s.world.dst.subsystems ++ [sub]).map Subsys.nqn := by
      rw [List.map_append, List.map_singleton, hnqn hs]
      simp
    refine ⟨by rw [hlist]; exact h.namespaces, ?_, fun nqn' k hk hne => ?_,
      fun _ => h.asked_snoc (fun _ h => List.mem_append_left _ h) hin⟩
    · rw [hsubs sub hs, addNew_of_not_mem hd]
      rfl
    · exact h.hist_set rfl (fun _ h => List.mem_append_left _ h) hin hk hne

/-- The step for a namespace adds it, unless there is one with its uuid. -/
theorem Provisioned.ns {ctrl : NvmeCtrl} {n : CtrlNs} (h : Provisioned w done s)
    (he : NsEnsured ctrl n s s') : Provisioned w (done ++ [Action.ns ctrl n]) s' := by
  have hsubs : (done ++ [Action.ns ctrl n]).filterMap (Action.subsys? (managerOf w.src)) =
      done.filterMap (Action.subsys? (managerOf w.src)) := by
    rw [filterMap_snoc]
    exact List.append_nil _
  have hlist : addAll Namespace.uuid w.dst.namespaces
      ((done ++ [Action.ns ctrl n]).filterMap Action.ns?) =
      addNew Namespace.uuid s.world.dst.namespaces (n.within ctrl.nqn) := by
    rw [filterMap_snoc, Action.ns?, Option.toList_some, addAll_snoc, h.namespaces]
  have hasked (nqn : String) (hmem : .subsys nqn ∈ done ++ [Action.ns ctrl n]) :
      nqn ∈ s.world.dst.subsystems.map Subsys.nqn := by
    rcases List.mem_append.mp hmem with hmem | hmem
    · exact h.asked nqn hmem
    · cases List.mem_singleton.mp hmem
  cases he with
  | found hd =>
    obtain ⟨m, hm, hu⟩ := hd
    refine ⟨?_, by rw [hsubs]; exact h.subsystems, h.hist, hasked⟩
    rw [hlist, addNew_of_mem (List.mem_map.mpr ⟨m, hm, hu⟩)]
    rfl
  | create hd =>
    refine ⟨?_, by rw [hsubs]; exact h.subsystems, h.hist, hasked⟩
    rw [hlist, addNew_of_not_mem]
    · rfl
    · intro hmem
      obtain ⟨m, hm, hu⟩ := List.mem_map.mp hmem
      exact hd m hm hu

/-- Every action adds what it asks for. -/
theorem perform_provisioned (ha : a ∈ plan (managerOf w.src)) (h : Provisioned w done s) :
    wp (perform (managerOf w.src) a) (fun _ => Provisioned w (done ++ [a])) (fun _ _ => True) s := by
  have hother (hk : ∀ c, a.Sends c → c.rpc.kind ≠ .subsys ∧ c.rpc.kind ≠ .ns)
      (hns : a.ns? = none) (hsub : a.subsys? (managerOf w.src) = none)
      (hne : ∀ nqn, a ≠ .subsys nqn) :
      wp (perform (managerOf w.src) a) (fun _ => Provisioned w (done ++ [a]))
        (fun _ _ => True) s := by
    refine wp_mono (wp_and (perform_grows (managerOf w.src) a s)
      (perform_hist (managerOf w.src) hne s)) ?_ fun _ _ _ => trivial
    rintro _ s' ⟨⟨-, l, -, -, hP, hw⟩, hh⟩
    refine h.keep hns hsub ?_ ?_ hne hh
    · rw [hw]
      exact replay_keeps s.world Destination.namespaces (K := (· ≠ .ns))
        (fun d r hr => exec_namespaces d hr) fun e he c hc => (hk c (hP e he c hc)).2
    · rw [hw]
      exact replay_keeps s.world Destination.subsystems (K := (· ≠ .subsys))
        (fun d r hr => exec_subsystems d hr) fun e he c hc => (hk c (hP e he c hc)).1
  cases a with
  | send c => exact hother (fun c' hc => by simp [fixed_kind ha rfl, show c' = c from hc]) rfl rfl (by simp)
  | create b => exact hother (fun c hc => by simp [IsCreateBdevCmd.kind hc]) rfl rfl (by simp)
  | release c b =>
    refine hother (fun c' hc => ?_) rfl rfl (by simp)
    rcases hc with rfl | hc
    · simp [fixed_kind ha rfl]
    · simp [hc.kind]
  | subsys nqn =>
    exact wp_mono (wp_ensureNvmeSubsys (managerOf w.src) nqn s) (fun _ _ he => h.subsys he)
      fun _ _ _ => trivial
  | ns ctrl n =>
    exact wp_mono (wp_ensureNvmeNamespace ctrl n s) (fun _ _ he => h.ns he) fun _ _ _ => trivial
  | missing => exact hother (fun _ hc => hc.elim) rfl rfl (by simp)

end Runs

/-! ## Attaching namespaces -/

/-- An event that attaches an nsid to a controller does so where the destination holds the namespace
that the nsid stands for on the source, if and only if that namespace is exposed. -/
def AttachesExposed (w : World) (pre : List Event) (e : Event) : Prop :=
  ∀ c i, e.sends .dst (Rpc.attachesNs c i) = true → ∀ ctrl, w.src.nvmeCtrl? c = some ctrl →
    ∀ n ∈ ctrl.namespaces, n.nsid = i →
      (n.within ctrl.nqn ∈ (w.replay pre).dst.namespaces ↔ w.Exposes (n.within ctrl.nqn))

section Attach

variable {w : World} {answers : ℕ → Bool} {s : Session} {done rest : List Action} {a : Action}

theorem not_attachesNs_of_removes {r : Rpc} {u : User} (h : r.removes = some u) {c : String}
    {i : ℕ} : r.attachesNs c i = false := by
  cases r <;> first | rfl | cases h

theorem not_attachesNs_of_isVblk {r : Rpc} (h : r.isVblk = true) {c : String} {i : ℕ} :
    r.attachesNs c i = false := by
  cases r <;> first | rfl | cases h

theorem removeNvme_not_attaches {self : Manager} {c c' : String} {i : ℕ} {cmd : Cmd}
    (ha : a ∈ cleanupNvmePlan self c) (hc : a.fixed = some cmd) :
    cmd.rpc.attachesNs c' i = false := by
  cases mem_cleanupNvmePlan ha with
  | missing => cases hc
  | release => rw [← Option.some.inj hc]; rfl
  | destroy => rw [← Option.some.inj hc]; rfl

/-- After the actions `pre`, a command of the action attaches a namespace to a controller only if the
namespaces of the controller were asked for. -/
def NsAsked (src : Source) (pre : List Action) (a : Action) : Prop :=
  ∀ cmd c i, a.fixed = some cmd → cmd.rpc.attachesNs c i = true →
    ∀ ctrl, src.nvmeCtrl? c = some ctrl → ∀ n ∈ ctrl.namespaces, .ns ctrl n ∈ pre

theorem stable_nsAsked (src : Source) : Stable (NsAsked src) := by
  intro l pre a h cmd c i hc hi ctrl hctrl n hn
  exact List.mem_append_right l (h cmd c i hc hi ctrl hctrl n hn)

/-- Actions that attach no namespace. -/
theorem always_nsAsked {src : Source} {l : List Action}
    (h : ∀ a ∈ l, ∀ cmd, a.fixed = some cmd → ∀ c i, cmd.rpc.attachesNs c i = false) :
    Always (NsAsked src) l := by
  rintro pre a post rfl cmd c i hc hi
  simp [h a (by simp) cmd hc c i] at hi

/-- A handover attaches namespaces to its own controller only. -/
theorem attaches_handNvmeOver {ctrl : NvmeCtrl} {cmd : Cmd} (hcmd : cmd ∈ handNvmeOver ctrl)
    {c : String} {i : ℕ} (hi : cmd.rpc.attachesNs c i = true) : ctrl.ctrlId = c := by
  simp only [handNvmeOver, List.mem_append, List.mem_cons, List.not_mem_nil, or_false,
    List.mem_map] at hcmd
  rcases hcmd with ((rfl | rfl) | ⟨m, -, rfl⟩) | rfl
  · simp [suspendNvmeCtrlCmd, Rpc.attachesNs] at hi
  · simp [createPassiveNvmeControllerCmd, Rpc.attachesNs] at hi
  · have hattach : ctrl.ctrlId = c ∧ m.nsid = i := by
      simpa [attachNvmeNsCmd, Rpc.attachesNs] using hi
    exact hattach.1
  · simp [suspendNvmeCtrlCmd, Rpc.attachesNs] at hi

theorem nsAsked_nvmeCtrlPlan (src : Source) (isVf : Bool) (c : String) :
    Always (NsAsked src) (nvmeCtrlPlan (managerOf src) isVf c) := by
  refine always_look (fun cmd c i hc => by cases hc) fun ctrl hctrl => ?_
  refine Always.append (stable_nsAsked src)
    (always_append (always_nsAsked fun a ha cmd hc => ?_) ?_) ?_
  · rcases List.mem_append.mp ha with ha | ha
    · rw [List.mem_singleton.mp ha] at hc
      cases hc
    · obtain ⟨n, -, ha⟩ := List.mem_flatMap.mp ha
      rcases List.mem_cons.mp ha with rfl | ha
      · cases hc
      · rw [List.mem_singleton.mp ha] at hc
        cases hc
  · intro pre a post hl cmd c' i hc hi ctrl' hctrl' n hn
    obtain ⟨cmd', hcmd, rfl⟩ := List.mem_map.mp (hl ▸ List.mem_append_right pre List.mem_cons_self)
    obtain rfl : cmd' = cmd := Option.some.inj hc
    have hid : c = c' := (ctrlId_of_lookup hctrl).symm.trans (attaches_handNvmeOver hcmd hi)
    obtain rfl : ctrl = ctrl' := by
      rw [← hid] at hctrl'
      exact Option.some.inj (hctrl.symm.trans hctrl')
    refine List.mem_append_left _ (List.mem_append_right _ (List.mem_flatMap.mpr ⟨n, hn, ?_⟩))
    simp
  · cases isVf with
    | false => exact always_nil
    | true => exact always_nsAsked fun a ha cmd hc c' i => removeNvme_not_attaches ha hc

/-- In the plan, a controller's namespaces are asked for before one of them is attached. -/
theorem ns_before_attach (src : Source) : Always (NsAsked src) (planOf src) := by
  have hvblk {c : String} {a : Action} (ha : VblkAction (managerOf src) c a) (cmd : Cmd)
      (hc : a.fixed = some cmd) (c' : String) (i : ℕ) : cmd.rpc.attachesNs c' i = false :=
    not_attachesNs_of_isVblk (ha.isVblk hc)
  refine always_plan (stable_nsAsked src)
    (fun isVf c => always_nsAsked fun a ha => hvblk (mem_vblkCtrlPlan ha))
    (fun c params => always_nsAsked fun a ha cmd hc c' i => ?_) (nsAsked_nvmeCtrlPlan src)
    fun c => always_nsAsked fun a ha cmd hc c' i => removeNvme_not_attaches ha hc
  cases mem_destroyVblkPlan ha with
  | missing => cases hc
  | release => rw [← Option.some.inj hc]; rfl
  | destroy => rw [← Option.some.inj hc]; rfl

/-- Once a namespace has been asked for, the destination holds it if and only if it is exposed. -/
theorem Provisioned.exposed (h : Provisioned w done s) (hp : planOf w.src = done ++ rest)
    {ctrl : NvmeCtrl} {n : CtrlNs} (hn : .ns ctrl n ∈ done) :
    n.within ctrl.nqn ∈ s.world.dst.namespaces ↔ w.Exposes (n.within ctrl.nqn) := by
  have hmem : n.within ctrl.nqn ∈ done.filterMap Action.ns? :=
    List.mem_filterMap.mpr ⟨_, hn, rfl⟩
  have hattached : w.src.attached = done.filterMap Action.ns? ++ rest.filterMap Action.ns? := by
    rw [← plan_ns, hp, List.filterMap_append]
  rw [h.namespaces, mem_addAll, World.Exposes, hattached, ← List.append_assoc,
    firstWith_append (List.mem_map.mpr ⟨_, List.mem_append_right _ hmem, rfl⟩)]

theorem attachesExposed_of_not {pre : List Event} {e : Event}
    (h : ∀ cmd ∈ e.cmd?, ∀ c i, cmd.rpc.attachesNs c i = false) : AttachesExposed w pre e := by
  intro c i he
  obtain ⟨cmd, hcmd, -, hi⟩ := sends_iff.mp he
  simp [h cmd hcmd c i] at hi

theorem perform_attachesExposed (hp : planOf w.src = done ++ a :: rest) (hs : Steady w answers s)
    (hprov : Provisioned w done s) (h : Always (AttachesExposed w) s.log) :
    wp (perform (managerOf w.src) a) (fun _ s' => Always (AttachesExposed w) s'.log)
      (fun _ s' => Always (AttachesExposed w) s'.log) s := by
  have ha : a ∈ plan (managerOf w.src) := by
    show a ∈ planOf w.src
    simp [hp]
  have hplan := ns_before_attach w.src done a rest hp
  by_cases hsend : ∃ c, a = .send c
  · obtain ⟨c, rfl⟩ := hsend
    have hevent (ok : Bool) : AttachesExposed w s.log (.sent c ok) := by
      intro i n he ctrl hctrl m hm _
      obtain ⟨c', hc', -, hi⟩ := sends_iff.mp he
      obtain rfl : c = c' := Option.some.inj hc'
      rw [← hs.world]
      exact hprov.exposed hp (hplan c i n rfl hi ctrl hctrl m hm)
    exact wp_sendRpc.mpr ⟨fun _ => always_snoc.mpr ⟨h, hevent true⟩,
      fun _ => always_snoc.mpr ⟨h, hevent false⟩⟩
  · refine perform_always _ h fun pre e he => attachesExposed_of_not fun cmd hcmd c i => ?_
    cases a with
    | send c => exact absurd ⟨c, rfl⟩ hsend
    | create b => cases he cmd hcmd <;> rfl
    | release c' b =>
      rcases he cmd hcmd with rfl | hd
      · obtain ⟨u, hu, -⟩ := removal_release ha
        exact not_attachesNs_of_removes hu
      · cases hd <;> rfl
    | subsys nqn =>
      obtain ⟨sub, rfl⟩ := he cmd hcmd
      rfl
    | ns ctrl n =>
      rw [show cmd = createNvmeNamespaceCmd ctrl n from he cmd hcmd]
      rfl
    | missing => exact (he cmd hcmd).elim

/-- Whenever a namespace is attached, the destination holds the one that its nsid stands for on the
source, in the subsystem of the controller, if and only if that namespace is exposed. -/
theorem attached_from_subsystem (w : World) (answers : ℕ → Bool) :
    Always (fun pre e => ∀ c i, e.sends .dst (Rpc.attachesNs c i) = true →
      ∀ ctrl, w.src.nvmeCtrl? c = some ctrl → ∀ n ∈ ctrl.namespaces, n.nsid = i →
        (n.within ctrl.nqn ∈ (w.replay pre).dst.namespaces ↔ w.Exposes (n.within ctrl.nqn)))
      (finalState (run w answers)).log := by
  have hquiet (s : Session) (hs : Quiet w s) : Always (AttachesExposed w) s.log := by
    rintro pre e post hl
    refine attachesExposed_of_not fun cmd hcmd => ?_
    simp [hs.asked e (by simp [hl])] at hcmd
  have hmain := wp_main w answers
    (I := fun done s => Provisioned w done s ∧ Always (AttachesExposed w) s.log)
    (J := fun s => Always (AttachesExposed w) s.log)
    (fun s hs => ⟨provisioned_start hs, hquiet s hs.toQuiet⟩) (fun _ s hs => hquiet s hs)
    fun done a rest hp s hs h => ?_
  · exact run_final (wp_mono hmain (fun _ _ h => h.2.2) fun _ _ h => h.2)
  · have ha : a ∈ plan (managerOf w.src) := by
      show a ∈ planOf w.src
      simp [hp]
    refine wp_mono (wp_and (perform_provisioned ha h.1) (perform_attachesExposed hp hs h.1 h.2)) ?_ ?_
    · exact fun _ _ h => h
    · exact fun _ _ h => h.2

/-- Two NVMe functions in subsystems of their own, each with a namespace of the same uuid on one
Null disk. -/
def Source.twins : Source :=
  { Source.idle with
    bdevs := [.small "n0" "Null disk" .empty]
    functions := [⟨⟨none, some "e0"⟩, "NVME", []⟩, ⟨⟨none, some "e1"⟩, "NVME", []⟩]
    nvmeCtrls := [⟨"e0", "nqn0", 1, 2, 3, [⟨1, "n0", "u"⟩]⟩, ⟨"e1", "nqn1", 2, 2, 3, [⟨1, "n0", "u"⟩]⟩]
    subsystems := [⟨"nqn0", "mn", "sn", 8, 8⟩, ⟨"nqn1", "mn", "sn", 8, 8⟩]
    namespaces := [⟨"nqn0", 1, "n0", "u"⟩, ⟨"nqn1", 1, "n0", "u"⟩] }

/-- The second controller is attached a namespace that its subsystem does not have. -/
theorem twins_attached_elsewhere :
    ¬Always (fun pre e => e.sends .dst (Rpc.attachesNs "e1" 1) = true →
      ⟨"nqn1", 1, "n0", "u"⟩ ∈ ((World.mk .twins .fresh).replay pre).dst.namespaces)
      (finalState (run ⟨.twins, .fresh⟩ fun _ => true)).log := by
  decide +kernel

end Attach

end DcPerf.LiveUpdate
