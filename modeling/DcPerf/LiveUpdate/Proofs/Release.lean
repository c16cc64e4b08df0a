import DcPerf.LiveUpdate.Proofs.Handover

/-!
# The release of the source

Which users a run has taken off the source when it deletes a bdev or detaches an NVMe-oF controller,
and that the users of a bdev outlive it only if the manager counts too few of them.
-/

namespace DcPerf.LiveUpdate

open DcPerf.Library

/-! ## The order of removal -/

/-- The user that an action takes off the source, with the bdev that it is taken off. -/
def Action.removal (a : Action) : Option (User × Option String) :=
  a.fixed.bind fun c => c.rpc.removes.map fun u => (u, a.drops)

section Order

variable {src : Source} {c b : String}

theorem removal_eq_none {a : Action} (h : ∀ c, a.fixed = some c → c.rpc.removes = none) :
    a.removal = none := by
  cases hf : a.fixed with
  | none => simp [Action.removal, hf]
  | some c => simp [Action.removal, hf, h c hf]

theorem filterMap_removal_eq_nil {l : List Action}
    (h : ∀ a ∈ l, ∀ c, a.fixed = some c → c.rpc.removes = none) :
    l.filterMap Action.removal = [] :=
  List.filterMap_eq_nil_iff.mpr fun a ha => removal_eq_none (h a ha)

theorem destroyVblkPlan_removal (src : Source) (c : String) (params : Option String) :
    (destroyVblkPlan (managerOf src) c params).filterMap Action.removal = src.vblkRemoval c := by
  unfold destroyVblkPlan Source.vblkRemoval Source.vblkCtrl?
  cases (managerOf src).vblkCtrlDict.lookup c with
  | none => rfl
  | some ctrl => by_cases hb : ctrl.bdev = "none" <;> simp [look, hb] <;> rfl

theorem vblkCtrlPlan_removal (src : Source) (isVf : Bool) (c : String) :
    (vblkCtrlPlan (managerOf src) isVf c).filterMap Action.removal =
      if isVf then src.vblkRemoval c else [] := by
  have hdel := destroyVblkPlan_removal src c (some "force")
  unfold vblkCtrlPlan
  cases hl : (managerOf src).vblkCtrlDict.lookup c with
  | none =>
    have hnil : src.vblkRemoval c = [] := by
      rw [Source.vblkRemoval, Source.vblkCtrl?, hl]
      rfl
    simp [look, hnil, Action.removal]
  | some ctrl =>
    have hcreate : (if ctrl.bdev ≠ "none" then [Action.create ctrl.bdev] else []).filterMap
        Action.removal = [] := by
      refine filterMap_removal_eq_nil fun a ha c hc => ?_
      split at ha
      · rw [List.mem_singleton.mp ha] at hc
        simp at hc
      · simp at ha
    have hhand : ((handVblkOver c ctrl).map Action.send).filterMap Action.removal = [] := by
      refine filterMap_removal_eq_nil fun a ha cmd hcmd => ?_
      obtain ⟨cmd', hmem, rfl⟩ := List.mem_map.mp ha
      obtain rfl : cmd' = cmd := Option.some.inj hcmd
      simp only [handVblkOver, List.mem_cons, List.not_mem_nil, or_false] at hmem
      rcases hmem with rfl | rfl | rfl <;> rfl
    simp only [look, List.filterMap_append, hcreate, hhand, List.nil_append]
    cases isVf with
    | false => rfl
    | true => simpa using hdel

theorem cleanupNvmePlan_removal (src : Source) (c : String) :
    (cleanupNvmePlan (managerOf src) c).filterMap Action.removal = src.nvmeRemoval c := by
  unfold cleanupNvmePlan Source.nvmeRemoval Source.nvmeCtrl?
  cases (managerOf src).nvmeCtrlDict.lookup c with
  | none => rfl
  | some ctrl =>
    have hmap (l : List CtrlNs) : (l.map fun n => Action.release (detachNvmeNsCmd c n.nsid)
        n.bdev).filterMap Action.removal = l.map fun n => (.ns c n.nsid, some n.bdev) := by
      induction l with
      | nil => rfl
      | cons n l ih =>
        have hn : (Action.release (detachNvmeNsCmd c n.nsid) n.bdev).removal =
            some (.ns c n.nsid, some n.bdev) := rfl
        rw [List.map_cons, List.filterMap_cons_some hn, ih, List.map_cons]
    have hdestroy : [Action.send (destroyNvmeControllerCmd c)].filterMap Action.removal = [] := rfl
    simp [look, List.filterMap_append, hmap, hdestroy, -List.filterMap_map]

theorem nvmeCtrlPlan_removal (src : Source) (isVf : Bool) (c : String) :
    (nvmeCtrlPlan (managerOf src) isVf c).filterMap Action.removal =
      if isVf then src.nvmeRemoval c else [] := by
  have hdel := cleanupNvmePlan_removal src c
  unfold nvmeCtrlPlan
  cases hl : (managerOf src).nvmeCtrlDict.lookup c with
  | none =>
    have hnil : src.nvmeRemoval c = [] := by
      rw [Source.nvmeRemoval, Source.nvmeCtrl?, hl]
      rfl
    simp [look, hnil, Action.removal]
  | some ctrl =>
    have hprepare : ([Action.subsys ctrl.nqn] ++ ctrl.namespaces.flatMap fun n =>
        [Action.create n.bdev, Action.ns ctrl n]).filterMap Action.removal = [] := by
      refine filterMap_removal_eq_nil fun a ha cmd hcmd => ?_
      rcases List.mem_append.mp ha with ha | ha
      · rw [List.mem_singleton.mp ha] at hcmd
        simp at hcmd
      · obtain ⟨n, -, ha⟩ := List.mem_flatMap.mp ha
        rcases List.mem_cons.mp ha with rfl | ha
        · simp at hcmd
        · rw [List.mem_singleton.mp ha] at hcmd
          simp at hcmd
    have hhand : ((handNvmeOver ctrl).map Action.send).filterMap Action.removal = [] := by
      refine filterMap_removal_eq_nil fun a ha cmd hcmd => ?_
      obtain ⟨cmd', hmem, rfl⟩ := List.mem_map.mp ha
      obtain rfl : cmd' = cmd := Option.some.inj hcmd
      simp only [handNvmeOver, List.mem_append, List.mem_cons, List.not_mem_nil, or_false,
        List.mem_map] at hmem
      rcases hmem with ((rfl | rfl) | ⟨n, -, rfl⟩) | rfl <;> rfl
    rw [look, List.filterMap_append, List.filterMap_append, hprepare, hhand]
    cases isVf with
    | false => rfl
    | true => simpa using hdel

theorem pfBlocks_removal {block : Bool → String → List Action} {final : String → List Action}
    {r : String → List (User × Option String)}
    (hblock : ∀ isVf c, (block isVf c).filterMap Action.removal = if isVf then r c else [])
    (hfinal : ∀ c, (final c).filterMap Action.removal = r c) (pf : PhysFunc) :
    (pfBlocks block final pf).filterMap Action.removal = pf.removed.flatMap r := by
  have hfunc (f : Func) : (f.ctrlId.toList.flatMap (block f.vfIndex.isSome)).filterMap
      Action.removal = f.early.flatMap r := by
    rw [List.filterMap_flatMap, Func.early]
    cases f.ctrlId with
    | none => simp
    | some c => cases hv : f.vfIndex.isSome <;> simp [hblock]
  have hown : (pf.ctrlId.toList.flatMap final).filterMap Action.removal =
      pf.ctrlId.toList.flatMap r := by
    rw [List.filterMap_flatMap]
    simp only [hfinal]
  rw [pfBlocks, List.filterMap_append, List.filterMap_append, hfunc pf.toFunc, hown,
    List.filterMap_flatMap, PhysFunc.removed, List.flatMap_append, List.flatMap_append,
    List.flatMap_assoc]
  simp only [hfunc]

/-- The plan takes the users off the source in the order of removal. -/
theorem plan_removals (src : Source) : (planOf src).filterMap Action.removal = src.removals := by
  have hv (pf : PhysFunc) := pfBlocks_removal (vblkCtrlPlan_removal src)
    (fun c => destroyVblkPlan_removal src c none) pf
  have hn (pf : PhysFunc) := pfBlocks_removal (nvmeCtrlPlan_removal src)
    (cleanupNvmePlan_removal src) pf
  rw [planOf, plan, List.filterMap_append, vblkPlan_eq, nvmePlan_eq, List.filterMap_flatMap,
    List.filterMap_flatMap, Source.removals, Source.removed, Source.removed, List.flatMap_assoc,
    List.flatMap_assoc]
  simp only [hv, hn]
  rfl

end Order

/-! ## The point of a deletion -/

/-- What has happened in a run before it sends the deletion `cmd`: the actions `done` are over, a
user of the bdev `b` has been taken off, and the counts call for the deletion. -/
structure DeletionPoint (src : Source) (pre : List Event) (cmd : Cmd) (done : List Action)
    (c : Cmd) (b : String) : Prop where
  plan : ∃ rest, planOf src = done ++ .release c b :: rest
  deletion : cmd ∈ deletions src (dropped done) b
  sent : pre.filterMap Event.controllerCmd? = (done ++ [Action.release c b]).filterMap Action.fixed

section Deletion

variable {w : World} {answers : ℕ → Bool} {pre post : List Event} {e : Event} {cmd : Cmd}

theorem deletion_point (hlog : (finalState (run w answers)).log = pre ++ e :: post)
    (hc : e.cmd? = some cmd) (hk : cmd.rpc.kind = .bdevDelete) :
    ∃ done c b, DeletionPoint w.src pre cmd done c b := by
  have hcmd : e.removalCmd? = some cmd := by simp [Event.removalCmd?, hc, hk]
  obtain ⟨done, a, rest, x, y, hplan, hremoval, hpre⟩ :=
    filterMap_split (run_removals w answers).2 hlog hcmd
  have ha : a ∈ LiveUpdate.plan (managerOf w.src) := by
    show a ∈ planOf w.src
    simp [hplan]
  have hdone : ∀ x ∈ done, x ∈ LiveUpdate.plan (managerOf w.src) := by
    intro x hx
    show x ∈ planOf w.src
    simp [hplan, hx]
  have hne (c : Cmd) (hf : a.fixed = some c) : c ≠ cmd := by
    rintro rfl
    have hctrl := fixed_kind ha hf
    simp [hk] at hctrl
  have hmem : cmd ∈ a.drops.toList.flatMap (deletions w.src (dropped done)) := by
    have hall : cmd ∈ removalCmds w.src done a := by simp [hremoval]
    rcases List.mem_append.mp hall with h | h
    · exact absurd rfl (hne cmd (Option.mem_toList.mp h))
    · exact h
  obtain ⟨b, hb, hdel⟩ := List.mem_flatMap.mp hmem
  obtain ⟨c, rfl⟩ := drops_eq_some.mp (Option.mem_toList.mp hb)
  refine ⟨done, c, b, ⟨rest, hplan⟩, hdel, ?_⟩
  -- The deletion comes after the command of the action, so what precedes it begins with that.
  obtain ⟨x', rfl⟩ : ∃ x', x = c :: x' := by
    cases x with
    | nil =>
      have hfirst : c = cmd := by
        have hcons : [c] ++ _ = [] ++ cmd :: y := hremoval
        exact (List.cons.inj hcons).1
      exact absurd hfirst (hne c rfl)
    | cons z x =>
      have hcons : [c] ++ _ = (z :: x) ++ cmd :: y := hremoval
      exact ⟨x, by rw [(List.cons.inj hcons).1]⟩
  have hrest : x'.filter (fun c => c.rpc.kind = .controller) = [] := by
    have htail : _ = x' ++ cmd :: y := (List.cons.inj hremoval).2
    refine List.filter_eq_nil_iff.mpr fun c' hc' => ?_
    have hmem' : c' ∈ (Action.release c b).drops.toList.flatMap
        (deletions w.src (dropped done)) := by
      have hx : c' ∈ x' ++ cmd :: y := List.mem_append_left _ hc'
      rw [← htail] at hx
      simpa using hx
    obtain ⟨b'', -, hd⟩ := List.mem_flatMap.mp hmem'
    simp [(deletions_kind c' hd).kind.1]
  have hckind := fixed_kind ha (c := c) rfl
  rw [filterMap_controllerCmd, hpre, List.filter_append, filter_walk_removalCmds hdone,
    List.filter_cons_of_pos (by simpa using hckind), hrest, List.filterMap_append]
  rfl

/-- What the deletion of a bdev, or the detach of an NVMe-oF controller, says about the counts. -/
theorem mem_deletions {src : Source} {l : List String} {b : String} (h : cmd ∈ deletions src l b) :
    src.pool.Frees l b ∧
      ((∃ g, cmd = bdevNvmeDetachControllerCmd g ∧ src.pool.FreesGroup l b g) ∨
        ∃ info, info.name = b ∧ destroyDiskCmd info = some cmd) := by
  unfold deletions at h
  split at h
  · rename_i hf
    obtain ⟨⟨info, base⟩, he, h⟩ := List.mem_flatMap.mp h
    have hentry : src.entry b = some (info, base) := Option.mem_toList.mp he
    refine ⟨hf, ?_⟩
    split at h
    · obtain ⟨g, hg, rfl⟩ := List.mem_map.mp h
      exact .inl ⟨g, rfl, by simpa using (List.mem_filter.mp hg).2⟩
    · exact .inr ⟨info, (entry_spec hentry).name, Option.mem_toList.mp h⟩
  · simp at h

theorem destroyDiskCmd_name {info : Bdev} {b : String} (h : destroyDiskCmd info = some cmd)
    (hd : cmd.rpc.deletesDisk b = true) : info.name = b := by
  unfold destroyDiskCmd at h
  split at h
  · rw [← Option.some.inj h] at hd
    simpa [bdevNullDeleteCmd, Rpc.deletesDisk] using hd
  · split at h
    · rw [← Option.some.inj h] at hd
      simpa [bdevMallocDeleteCmd, Rpc.deletesDisk] using hd
    · simp at h

end Deletion

/-! ## The users that were removed -/

section Removed

variable {src : Source} {w : World} {answers : ℕ → Bool} {done : List Action} {b : String}

/-- A command that takes a user off is one for the source. -/
theorem fixed_removes {a : Action} (ha : a ∈ plan (managerOf src)) {c : Cmd}
    (hc : a.fixed = some c) {u : User} (hu : c.rpc.removes = some u) : c.sock = .src := by
  rcases mem_plan_cases ha with ⟨i, -, ha⟩ | ⟨i, -, ha⟩
  · cases ha with
    | missing => simp at hc
    | create => simp at hc
    | hand ctrl cmd _ hcmd =>
      obtain rfl : cmd = c := Option.some.inj hc
      simp only [handVblkOver, List.mem_cons, List.not_mem_nil, or_false] at hcmd
      rcases hcmd with rfl | rfl | rfl
      · rfl
      · rfl
      · simp [restoreVblkControllerCmd, Rpc.removes] at hu
    | release => rw [← Option.some.inj hc]; rfl
    | destroy => rw [← Option.some.inj hc]; rfl
  · cases ha with
    | missing => simp at hc
    | subsys => simp at hc
    | create => simp at hc
    | ns => simp at hc
    | hand ctrl cmd _ hcmd =>
      obtain rfl : cmd = c := Option.some.inj hc
      simp only [handNvmeOver, List.mem_append, List.mem_cons, List.not_mem_nil, or_false,
        List.mem_map] at hcmd
      rcases hcmd with ((rfl | rfl) | ⟨n, -, rfl⟩) | rfl
      · rfl
      · simp [createPassiveNvmeControllerCmd, Rpc.removes] at hu
      · simp [attachNvmeNsCmd, Rpc.removes] at hu
      · rfl
    | release => rw [← Option.some.inj hc]; rfl
    | destroy => rw [← Option.some.inj hc]; rfl

/-- The command before `destroy_bdev` takes a user off the bdev. -/
theorem removal_release {c : Cmd} (ha : Action.release c b ∈ plan (managerOf src)) :
    ∃ u, c.rpc.removes = some u ∧ (Action.release c b).removal = some (u, some b) := by
  have hsome : ∃ u, c.rpc.removes = some u := by
    rcases mem_plan_cases ha with ⟨i, -, ha⟩ | ⟨i, -, ha⟩
    · cases ha with
      | release ctrl params => exact ⟨.vblk i, rfl⟩
    · cases ha with
      | release ctrl n => exact ⟨.ns i n.nsid, rfl⟩
  obtain ⟨u, hu⟩ := hsome
  exact ⟨u, hu, by simp [Action.removal, hu, Action.drops]⟩

/-- An action that takes a user off a bdev says which one. -/
theorem removal_bind {a : Action} (ha : a ∈ plan (managerOf src)) :
    a.removal.bind Prod.snd = a.drops := by
  cases a with
  | release c b =>
    obtain ⟨u, -, hu⟩ := removal_release ha
    rw [hu]
    rfl
  | send c => cases h : c.rpc.removes <;> simp [Action.removal, h, Action.drops]
  | create b => rfl
  | subsys nqn => rfl
  | ns ctrl n => rfl
  | missing => rfl

theorem dropped_eq (h : ∀ a ∈ done, a ∈ plan (managerOf src)) :
    dropped done = (done.filterMap Action.removal).filterMap Prod.snd := by
  rw [List.filterMap_filterMap]
  exact List.filterMap_congr fun a ha => (removal_bind (h a ha)).symm

theorem count_filterMap_snd (l : List (User × Option String)) (b : String) :
    (l.filterMap Prod.snd).count b = ((l.filter fun x => x.2 = some b).map Prod.fst).length := by
  rw [List.length_map, ← List.countP_eq_length_filter, List.count, List.countP_filterMap]
  refine List.countP_congr fun x _ => ?_
  cases x.2 <;> simp

/-- The users that the plan takes off a bdev are counted by its releases. -/
theorem count_dropped (src : Source) (b : String) :
    (dropped (planOf src)).count b = (src.removalsOf b).length := by
  have hplan : ∀ a ∈ planOf src, a ∈ plan (managerOf src) := fun _ ha => ha
  rw [dropped_eq hplan, plan_removals, count_filterMap_snd]
  rfl

/-- All users of a bdev that is covered are taken off once it is drained. -/
theorem removed_of_covered {rest : List Action} (hp : planOf src = done ++ rest)
    (hcov : src.Covered b) (hd : src.pool.Drained (dropped done) b) {x : User × String}
    (hx : x ∈ src.users) (hb : x.2 = b) : ∃ a ∈ done, ∃ y, a.removal = some (x.1, y) := by
  obtain ⟨hpos, hcount⟩ := hd
  have hdone : ∀ a ∈ done, a ∈ plan (managerOf src) := by
    intro a ha
    show a ∈ planOf src
    simp [hp, ha]
  let taken := ((done.filterMap Action.removal).filter fun x => x.2 = some b).map Prod.fst
  have hprefix : taken <+: src.removalsOf b := by
    have hremovals : done.filterMap Action.removal <+: src.removals := by
      rw [← plan_removals, hp, List.filterMap_append]
      exact List.prefix_append _ _
    exact (hremovals.filter _).map _
  have hlength : src.usersOf b ≤ taken.length := by
    rw [← count_filterMap_snd, ← dropped_eq hdone]
    exact hcount
  have hmem := hcov hpos (hlength.trans hprefix.length_le) x hx hb
  have htake : x.1 ∈ taken := by
    rw [List.prefix_iff_eq_take.mp hprefix]
    exact (List.take_sublist_take_left hlength).subset hmem
  obtain ⟨y, hy, hyx⟩ := List.mem_map.mp htake
  obtain ⟨a, ha, hay⟩ := List.mem_filterMap.mp (List.mem_of_mem_filter hy)
  exact ⟨a, ha, y.2, by rw [hay, ← hyx]⟩

/-- When a deletion is sent, a drained bdev that is covered has no user left. -/
theorem not_uses_of_drained {pre post : List Event} {e : Event} {cmd c : Cmd} {b' : String}
    (hlog : (finalState (run w answers)).log = pre ++ e :: post)
    (hpoint : DeletionPoint w.src pre cmd done c b') (hcov : w.src.Covered b)
    (hd : w.src.pool.Drained (dropped (done ++ [.release c b'])) b) :
    ¬(w.replay pre).src.Uses b := by
  intro huse
  obtain ⟨x, hx, hxb⟩ := List.mem_map.mp huse
  obtain ⟨hx, hno⟩ := mem_src_users hx
  obtain ⟨rest, hplan⟩ := hpoint.plan
  have hsplit : planOf w.src = (done ++ [.release c b']) ++ rest := by simp [hplan]
  obtain ⟨a, ha, y, hrem⟩ := removed_of_covered hsplit hcov hd hx hxb
  have hmem : a ∈ plan (managerOf w.src) := by
    show a ∈ planOf w.src
    rw [hsplit]
    exact List.mem_append_left _ ha
  obtain ⟨c', hc', hu⟩ := Option.bind_eq_some_iff.mp hrem
  obtain ⟨u, hu, huy⟩ := Option.map_eq_some_iff.mp hu
  obtain rfl : u = x.1 := (Prod.mk.inj huy).1
  -- The command that took the user off is in the log, and it has succeeded.
  have hsent : c' ∈ pre.filterMap Event.controllerCmd? := by
    rw [hpoint.sent]
    exact List.mem_filterMap.mpr ⟨a, ha, hc'⟩
  obtain ⟨ev, hev, hevc⟩ := List.mem_filterMap.mp hsent
  have hok := (run_removals w answers).1.ok pre e post hlog ev hev
  have hsock := fixed_removes hmem hc' hu
  refine hno ev hev ?_
  rw [Event.does, hok, Bool.true_and]
  exact sends_iff.mpr ⟨c', (controllerCmd_eq_some hevc).1, hsock, by simp [hu]⟩

end Removed

/-! ## Backing devices -/

/-- In every run, when a bdev is deleted or an NVMe-oF controller is detached on the source, no
controller that is still there uses the bdev, or any bdev of that NVMe-oF controller, if the manager
counts their users right. -/
theorem backing_outlives_users (w : World) (answers : ℕ → Bool) :
    Always (fun pre e =>
      (∀ b, e.sends .src (Rpc.deletesDisk b) = true → w.src.Covered b →
        ¬(w.replay pre).src.Uses b) ∧
      ∀ g, e.sends .src (Rpc.detaches g) = true →
        (∀ b, w.src.baseOf b = some g → w.src.Covered b) →
        ∀ b, w.src.baseOf b = some g → ¬(w.replay pre).src.Uses b)
      (finalState (run w answers)).log := by
  intro pre e post hlog
  constructor
  · intro b hdel hcov
    obtain ⟨cmd, hcmd, -, hd⟩ := sends_iff.mp hdel
    have hk : cmd.rpc.kind = .bdevDelete := by
      cases hr : cmd.rpc <;> simp_all [Rpc.deletesDisk, Rpc.kind]
    obtain ⟨done, c, b', hpoint⟩ := deletion_point hlog hcmd hk
    obtain ⟨hf, ⟨g, rfl, -⟩ | ⟨info, hname, hdisk⟩⟩ := mem_deletions hpoint.deletion
    · simp [bdevNvmeDetachControllerCmd, Rpc.deletesDisk] at hd
    · have hbb : b' = b := hname.symm.trans (destroyDiskCmd_name hdisk hd)
      subst hbb
      refine not_uses_of_drained hlog hpoint hcov ?_
      rw [dropped_snoc]
      exact Pool.drained_snoc_iff.mpr (.inr ⟨rfl, hf⟩)
  · intro g hdet hcov b hb
    obtain ⟨cmd, hcmd, -, hd⟩ := sends_iff.mp hdet
    have hk : cmd.rpc.kind = .bdevDelete := by
      cases hr : cmd.rpc <;> simp_all [Rpc.detaches, Rpc.kind]
    obtain ⟨done, c, b', hpoint⟩ := deletion_point hlog hcmd hk
    obtain ⟨hf, ⟨g', rfl, hgroup⟩ | ⟨info, hname, hdisk⟩⟩ := mem_deletions hpoint.deletion
    · obtain rfl : g' = g := by simpa [bdevNvmeDetachControllerCmd, Rpc.detaches] using hd
      refine not_uses_of_drained hlog hpoint (hcov b hb) ?_
      have hmember : b ∈ w.src.pool.members g' := Pool.mem_members.mpr hb
      rw [dropped_snoc]
      exact Pool.drained_of_freesGroup hgroup hmember
    · have hnot : cmd.rpc.detaches g = false := by
        unfold destroyDiskCmd at hdisk
        split at hdisk
        · rw [← Option.some.inj hdisk]
          rfl
        · split at hdisk
          · rw [← Option.some.inj hdisk]
            rfl
          · simp at hdisk
      simp [hnot] at hd

/-- An NVMe physical function and a virtual function with one namespace on a Null disk. -/
def Source.sharedNs : Source :=
  { Source.idle with
    bdevs := [.small "n0" "Null disk" .empty]
    functions := [⟨⟨none, some "e0"⟩, "NVME", [⟨some 0, some "e1"⟩]⟩]
    nvmeCtrls := [⟨"e0", "nqn", 1, 2, 3, [⟨1, "n0", "u1"⟩]⟩, ⟨"e1", "nqn", 2, 2, 3, [⟨1, "n0", "u1"⟩]⟩]
    subsystems := [⟨"nqn", "mn", "sn", 8, 8⟩]
    namespaces := [⟨"nqn", 1, "n0", "u1"⟩] }

/-- The bdev is deleted with the virtual function, while the physical function still uses it. -/
theorem sharedNs_deleted_in_use :
    ¬Always (fun pre e => e.sends .src (Rpc.deletesDisk "n0") = true →
      ¬((World.mk .sharedNs .fresh).replay pre).src.Uses "n0")
      (finalState (run ⟨.sharedNs, .fresh⟩ fun _ => true)).log := by
  decide +kernel

end DcPerf.LiveUpdate
