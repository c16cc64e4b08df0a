import DcPerf.LiveUpdate.Proofs.HandoverRuns
import DcPerf.LiveUpdate.Proofs.Provision

/-!
# What a run leaves on the destination

A run that returns leaves on an empty destination the NVMe configuration of the source: every
controller with its namespaces, every namespace in its subsystem, and nothing else.
-/

namespace DcPerf.LiveUpdate

open DcPerf.Library

/-! ## The controllers -/

/-- The RPC creates an NVMe controller or attaches a namespace to it. -/
def Rpc.isPassive : Rpc → Bool
  | nvmeControllerCreate .. | nvmeControllerAttachNs .. => true
  | _ => false

/-- What an RPC does to the NVMe controllers of the destination. -/
def passiveExec (l : List PassiveCtrl) : Rpc → List PassiveCtrl
  | .nvmeControllerCreate vhcaId ctrl nqn mdts numQueues =>
    l ++ [⟨ctrl, nqn, vhcaId, mdts, numQueues, []⟩]
  | .nvmeControllerAttachNs c n =>
    l.map fun k => if k.ctrlId = c then { k with attached := k.attached ++ [n] } else k
  | _ => l

/-- The RPC of a command that creates or fills an NVMe controller of the destination. -/
def Cmd.passive? (c : Cmd) : Option Rpc := if c.is .dst Rpc.isPassive then some c.rpc else none

/-- The RPCs that create the NVMe controller and attach its namespaces. -/
def NvmeCtrl.handed (k : NvmeCtrl) : List Rpc :=
  .nvmeControllerCreate k.vhcaId k.ctrlId k.nqn k.mdts k.numQueues ::
    k.namespaces.map fun n => .nvmeControllerAttachNs k.ctrlId n.nsid

section Controllers

variable {src : Source} {w : World} {l : List Event} {ks : List PassiveCtrl} {k : NvmeCtrl}

theorem exec_nvmeCtrls (d : Destination) (r : Rpc) :
    (d.exec r).nvmeCtrls = passiveExec d.nvmeCtrls r := by
  cases r <;> rfl

theorem passiveExec_of_not {r : Rpc} (h : r.isPassive = false) (ks : List PassiveCtrl) :
    passiveExec ks r = ks := by
  cases r <;> first | rfl | cases h

theorem kind_isPassive {r : Rpc} (h : r.isPassive = true) : r.kind = .controller := by
  cases r <;> first | rfl | cases h

theorem filterMap_passive (l : List Event) :
    (l.filterMap Event.controllerCmd?).filterMap Cmd.passive? =
      l.filterMap fun e => e.cmd?.bind Cmd.passive? := by
  rw [List.filterMap_filterMap]
  refine List.filterMap_congr fun e _ => ?_
  cases hc : e.cmd? with
  | none => simp [Event.controllerCmd?, hc]
  | some c =>
    by_cases hk : c.rpc.kind = .controller
    · simp [Event.controllerCmd?, hc, hk, Option.filter]
    · have hp : c.rpc.isPassive = false := by
        by_contra hp
        exact hk (kind_isPassive (by simpa using hp))
      simp [Event.controllerCmd?, hc, hk, Option.filter, Cmd.passive?, Cmd.is, hp]

/-- The NVMe controllers of the destination come from the commands about controllers. -/
theorem replay_nvmeCtrls (hok : ∀ e ∈ l, e.ok = true) : (w.replay l).dst.nvmeCtrls =
    ((l.filterMap Event.controllerCmd?).filterMap Cmd.passive?).foldl passiveExec
      w.dst.nvmeCtrls := by
  rw [filterMap_passive]
  induction l using List.reverseRecOn with
  | nil => rfl
  | append_singleton l e ih =>
    have hprev := ih fun x hx => hok x (List.mem_append_left _ hx)
    rw [World.replay_append, World.replay_singleton, after_dst, if_pos (hok e (by simp)),
      filterMap_snoc, List.foldl_append, ← hprev]
    cases e with
    | asked => rfl
    | sent c ok =>
      by_cases hs : c.sock = .dst
      · rw [Event.rpcTo, if_pos hs, Option.elim_some, exec_nvmeCtrls]
        by_cases hp : c.rpc.isPassive = true
        · simp [Event.cmd?, Cmd.passive?, Cmd.is, hs, hp]
        · have hp' : c.rpc.isPassive = false := by simpa using hp
          simp [Event.cmd?, Cmd.passive?, Cmd.is, hp', passiveExec_of_not hp']
      · simp [Event.rpcTo, Event.cmd?, Cmd.passive?, Cmd.is, hs]

theorem attach_namespaces {c : PassiveCtrl} (hnew : k.ctrlId ∉ ks.map PassiveCtrl.ctrlId)
    (hc : c.ctrlId = k.ctrlId) (ns : List CtrlNs) :
    (ns.map fun n => Rpc.nvmeControllerAttachNs k.ctrlId n.nsid).foldl passiveExec (ks ++ [c]) =
      ks ++ [{ c with attached := c.attached ++ ns.map CtrlNs.nsid }] := by
  induction ns using List.reverseRecOn with
  | nil => simp
  | append_singleton ns n ih =>
    have hold : ks.map (fun x => if x.ctrlId = k.ctrlId then
        { x with attached := x.attached ++ [n.nsid] } else x) = ks := by
      refine (List.map_congr_left fun x hx => if_neg fun hx' => ?_).trans (List.map_id ks)
      exact hnew (List.mem_map.mpr ⟨x, hx, hx'⟩)
    rw [List.map_append, List.foldl_append, ih]
    simp [passiveExec, hold, hc]

/-- A controller that is not there yet is handed over as it is. -/
theorem foldl_handed (hnew : k.ctrlId ∉ ks.map PassiveCtrl.ctrlId) :
    k.handed.foldl passiveExec ks = ks ++ [k.passive] := by
  rw [NvmeCtrl.handed, List.foldl_cons, passiveExec, attach_namespaces hnew rfl]
  rfl

/-- Controllers with distinct names are handed over one after the other. -/
theorem foldl_flatMap_handed (l : List NvmeCtrl)
    (hn : (ks.map PassiveCtrl.ctrlId ++ l.map NvmeCtrl.ctrlId).Nodup) :
    (l.flatMap NvmeCtrl.handed).foldl passiveExec ks = ks ++ l.map NvmeCtrl.passive := by
  induction l generalizing ks with
  | nil => simp
  | cons k l ih =>
    have hnew : k.ctrlId ∉ ks.map PassiveCtrl.ctrlId := by
      intro hk
      exact (List.nodup_append.mp hn).2.2 _ hk _ (by simp) rfl
    have hnext : ((ks ++ [k.passive]).map PassiveCtrl.ctrlId ++ l.map NvmeCtrl.ctrlId).Nodup := by
      simpa [NvmeCtrl.passive] using hn
    rw [List.flatMap_cons, List.foldl_append, foldl_handed hnew, ih hnext]
    simp

/-- The plan hands over the NVMe controllers of the functions. -/
theorem fixedCmds_passive (src : Source) :
    (fixedCmds src).filterMap Cmd.passive? = src.migrated.flatMap NvmeCtrl.handed := by
  rw [fixedCmds, List.filterMap_filterMap]
  refine filterMap_plan (fun a ha => ?_) rfl (fun ctrl => ?_) fun c a ha => ?_
  · obtain ⟨i, -, hact⟩ := mem_vblkPlan ha
    cases hf : a.fixed with
    | none => rfl
    | some c =>
      have hp : c.rpc.isPassive = false := by
        have hv := hact.isVblk hf
        cases hr : c.rpc <;> first | rfl | (rw [hr] at hv; cases hv)
      simp [Cmd.passive?, Cmd.is, hp]
  · have hprepare : ([Action.subsys ctrl.nqn] ++ ctrl.namespaces.flatMap fun n =>
        [Action.create n.bdev, Action.ns ctrl n]).filterMap
        (fun a => a.fixed.bind Cmd.passive?) = [] := by
      refine List.filterMap_eq_nil_iff.mpr fun a ha => ?_
      rcases List.mem_append.mp ha with ha | ha
      · rw [List.mem_singleton.mp ha]
        rfl
      · obtain ⟨n, -, ha⟩ := List.mem_flatMap.mp ha
        rcases List.mem_cons.mp ha with rfl | ha
        · rfl
        · rw [List.mem_singleton.mp ha]
          rfl
    have hattach (ns : List CtrlNs) : (ns.map (attachNvmeNsCmd ctrl)).filterMap Cmd.passive? =
        ns.map fun n => .nvmeControllerAttachNs ctrl.ctrlId n.nsid := by
      induction ns with
      | nil => rfl
      | cons n ns ih =>
        rw [List.map_cons, List.map_cons, ← ih]
        rfl
    rw [List.filterMap_append, hprepare, List.nil_append, ← List.filterMap_filterMap,
      filterMap_fixed_send, handNvmeOver, List.filterMap_append, List.filterMap_append, hattach]
    simp [Cmd.passive?, Cmd.is, suspendNvmeCtrlCmd, createPassiveNvmeControllerCmd, Rpc.isPassive,
      NvmeCtrl.handed]
  · cases mem_cleanupNvmePlan ha <;> rfl

/-- The controllers of the functions are listed under the names that the functions have. -/
theorem migrated_ids (cs : List String) :
    ((cs.flatMap fun c => (src.nvmeCtrl? c).toList).map NvmeCtrl.ctrlId).Sublist cs ∧
      ((∀ c ∈ cs, (src.nvmeCtrl? c).isSome = true) →
        (cs.flatMap fun c => (src.nvmeCtrl? c).toList).map NvmeCtrl.ctrlId = cs) := by
  induction cs with
  | nil => simp
  | cons c cs ih =>
    obtain ⟨hsub, heq⟩ := ih
    rw [List.flatMap_cons, List.map_append]
    cases hc : src.nvmeCtrl? c with
    | none =>
      refine ⟨hsub.cons c, fun h => ?_⟩
      have hsome := h c List.mem_cons_self
      simp [hc] at hsome
    | some ctrl =>
      have hid : [ctrl].map NvmeCtrl.ctrlId = [c] := by
        rw [List.map_singleton, ctrlId_of_lookup hc]
      rw [Option.toList_some, hid]
      refine ⟨hsub.cons_cons c, fun h => ?_⟩
      rw [heq fun x hx => h x (List.mem_cons_of_mem c hx)]
      rfl

end Controllers

/-! ## Runs that return -/

section Runs

variable {w : World} {answers : ℕ → Bool}

theorem run_provisioned (hr : Returned (run w answers)) :
    Provisioned w (planOf w.src) (finalState (run w answers)) := by
  have hmain := wp_main w answers (I := Provisioned w) (J := fun _ => True)
    (fun s hs => provisioned_start hs) (fun _ _ _ => trivial) fun done a rest hp s _ h => ?_
  · exact (run_returned hmain hr).2
  · have ha : a ∈ planOf w.src := by simp [hp]
    exact perform_provisioned ha h

/-- The NVMe controllers that a run which returns adds to those of the destination. -/
theorem run_nvmeCtrls (hr : Returned (run w answers)) (hids : (w.src.ids "NVME").Nodup)
    (hd : w.dst.nvmeCtrls = []) : (finalState (run w answers)).world.dst.nvmeCtrls =
      w.src.migrated.map NvmeCtrl.passive := by
  obtain ⟨hs, hl⟩ := run_returned_controllers hr
  have hnodup : (w.src.migrated.map NvmeCtrl.ctrlId).Nodup := (migrated_ids _).1.nodup hids
  rw [hs.world, replay_nvmeCtrls hs.ok, hl, fixedCmds_passive, hd,
    foldl_flatMap_handed _ (by simpa using hnodup), List.nil_append]

/-- An attached nsid resolves to the namespace of the source. -/
theorem run_resolves (hr : Returned (run w answers)) (hs : w.src.NvmeSound)
    (hd : w.dst.namespaces = []) {m : Namespace} (hm : m ∈ w.src.attached) :
    (finalState (run w answers)).world.dst.resolve m.nqn m.nsid = [m] := by
  have hfinal := (run_provisioned hr).namespaces
  rw [hd, plan_ns] at hfinal
  have huuid : ∀ m' ∈ w.src.attached, m'.uuid = m.uuid → m' = m := fun m' hm' hu =>
    List.inj_on_of_nodup_map hs.uuids (hs.listed m' hm') (hs.listed m hm) hu
  have hnsid : ∀ m' ∈ w.src.attached, m'.nqn = m.nqn → m'.nsid = m.nsid → m' = m :=
    fun m' hm' hq hi => List.inj_on_of_nodup_map hs.nsids (hs.listed m' hm') (hs.listed m hm)
      (Prod.ext hq hi)
  rw [Destination.resolve, hfinal]
  refine filter_eq_singleton (List.Nodup.of_map _ (nodup_addAll List.nodup_nil))
    (mem_addAll.mpr (.inr (firstWith_eq_self hm huuid))) (by simp) fun m' hm' hp => ?_
  obtain ⟨hq, hi⟩ : m'.nqn = m.nqn ∧ m'.nsid = m.nsid := by simpa using hp
  exact hnsid m' ((addAll_subset hm').resolve_left (by simp)) hq hi

/-- The subsystems on the destination are those of the migrated controllers. -/
theorem run_subsystems (hr : Returned (run w answers)) (hd : w.dst.subsystems = []) :
    (∀ ctrl ∈ w.src.migrated, ∃ s ∈ w.src.subsystems, s.nqn = ctrl.nqn ∧
      ((finalState (run w answers)).world.dst.subsystems.filter fun t => t.nqn = ctrl.nqn) = [s]) ∧
    ∀ s ∈ (finalState (run w answers)).world.dst.subsystems,
      s ∈ w.src.subsystems ∧ ∃ ctrl ∈ w.src.migrated, ctrl.nqn = s.nqn := by
  have hprov := run_provisioned hr
  have hfinal := hprov.subsystems
  rw [hd, plan_subsys] at hfinal
  have hfrom : ∀ s ∈ (finalState (run w answers)).world.dst.subsystems,
      s ∈ w.src.subsystems ∧ ∃ ctrl ∈ w.src.migrated, ctrl.nqn = s.nqn := by
    intro s hs
    rw [hfinal] at hs
    have hs := (addAll_subset hs).resolve_left (by simp)
    obtain ⟨ctrl, hctrl, hs⟩ := List.mem_flatMap.mp hs
    obtain ⟨x, hx, hn, rfl⟩ := Dict.exists_of_lookup_ofList (Option.mem_toList.mp hs)
    exact ⟨hx, ctrl, hctrl, hn.symm⟩
  refine ⟨fun ctrl hctrl => ?_, hfrom⟩
  have hnodup : ((finalState (run w answers)).world.dst.subsystems.map Subsys.nqn).Nodup := by
    rw [hfinal]
    exact nodup_addAll List.nodup_nil
  have hasked : .subsys ctrl.nqn ∈ planOf w.src := by
    obtain ⟨c, hc, hl⟩ := List.mem_flatMap.mp hctrl
    have hl : (managerOf w.src).nvmeCtrlDict.lookup c = some ctrl := Option.mem_toList.mp hl
    obtain ⟨isVf, hsub⟩ := nvme_block_subset hc
    refine hsub _ ?_
    rw [nvmeCtrlPlan, hl]
    simp [look]
  obtain ⟨s, hs, hn⟩ := List.mem_map.mp (hprov.asked ctrl.nqn hasked)
  refine ⟨s, (hfrom s hs).1, hn, filter_eq_singleton hnodup.of_map hs (by simpa using hn) ?_⟩
  intro t ht htn
  have htn : t.nqn = ctrl.nqn := by simpa using htn
  exact List.inj_on_of_nodup_map hnodup ht hs (htn.trans hn.symm)

/-- A run that returns reproduces the NVMe configuration of the source on a destination that holds
none of it, and leaves no migrated controller on the source. A run returns when no RPC fails and all
names it looks up are listed. -/
theorem reproduces_nvme (w : World) (answers : ℕ → Bool) (hs : w.src.NvmeSound)
    (hd : w.dst.NvmeEmpty) :
    (Returned (run w answers) →
      Reproduces w.src (finalState (run w answers)).world.dst ∧
      ∀ c ∈ w.src.ids "NVME",
        c ∉ (finalState (run w answers)).world.src.nvmeCtrls.map NvmeCtrl.ctrlId) ∧
    (w.src.Listed → w.src.version = true → w.dst.version = true → (∀ n, answers n = true) →
      Returned (run w answers)) := by
  refine ⟨fun hr => ⟨?_, fun c hc => ?_⟩, fun hl hsv hdv ha => run_returns hl hsv hdv ha⟩
  · have hcomplete : w.src.migrated.map NvmeCtrl.ctrlId = w.src.ids "NVME" := by
      refine (migrated_ids _).2 fun c hc => ?_
      obtain ⟨ctrl, hl⟩ := nvme_listed hr hc
      rw [Source.nvmeCtrl?, hl]
      rfl
    obtain ⟨hsubsys, honly⟩ := run_subsystems hr hd.subsystems
    refine ⟨hcomplete, run_nvmeCtrls hr hs.ids hd.nvmeCtrls, fun ctrl hctrl n hn => ?_, hsubsys,
      fun m hm => ?_, honly⟩
    · have hattached : n.within ctrl.nqn ∈ w.src.attached := by
        obtain ⟨c, hc, hl⟩ := List.mem_flatMap.mp hctrl
        exact List.mem_flatMap.mpr ⟨c, hc, List.mem_flatMap.mpr ⟨ctrl, hl,
          List.mem_map.mpr ⟨n, hn, rfl⟩⟩⟩
      exact run_resolves hr hs hd.namespaces hattached
    · rw [(run_provisioned hr).namespaces, plan_ns, hd.namespaces] at hm
      exact (addAll_subset hm).resolve_left (by simp)
  · rw [(run_returned_controllers hr).1.world, mem_src_nvmeIds]
    rintro ⟨-, hnever⟩
    have hone := (nvme_complete hr hs.numbered hs.ids hc).2
    have hpos : 0 < (finalState (run w answers)).log.countP
        (Event.does .src (Rpc.destroysNvme c)) := by omega
    obtain ⟨e, he, hdoes⟩ := List.countP_pos_iff.mp hpos
    exact hnever e he hdoes

theorem reproduces_nvme_small :
    (finalState (run ⟨.small, .fresh⟩ fun _ => true)).world.dst.resolve "nqn" 2 =
      [⟨"nqn", 2, "n0", "u2"⟩] := by
  have h := reproduces_nvme ⟨.small, .fresh⟩ (fun _ => true) (by decide +kernel) ⟨rfl, rfl, rfl⟩
  have hr := h.2 (by decide +kernel) rfl rfl fun _ => rfl
  exact (h.1 hr).1.namespaces ⟨"e1", "nqn", 2, 2, 3, [⟨2, "n0", "u2"⟩]⟩ (by decide +kernel)
    ⟨2, "n0", "u2"⟩ (by decide +kernel)

/-- An NVMe function with a namespace on a disk behind PCIe. -/
def Source.pcieNs : Source :=
  { Source.pcie with
    functions := [⟨⟨none, some "e0"⟩, "NVME", []⟩]
    vblkCtrls := []
    nvmeCtrls := [⟨"e0", "nqn", 1, 2, 3, [⟨1, "d0", "u"⟩]⟩]
    subsystems := [⟨"nqn", "mn", "sn", 8, 8⟩]
    namespaces := [⟨"nqn", 1, "d0", "u"⟩] }

/-- No RPC fails and every name is listed, and yet the controller is missing on the destination: the
run ends with a `KeyError`, because the transport ID of the disk lacks a key. -/
theorem pcieNs_not_reproduced :
    (Source.pcieNs.NvmeSound ∧ (∀ m ∈ Source.pcieNs.attached,
      m.nqn ∈ Source.pcieNs.subsystems.map Subsys.nqn ∧ (Source.pcieNs.entry m.bdev).isSome = true) ∧
      Source.pcieNs.migrated.map NvmeCtrl.ctrlId = Source.pcieNs.ids "NVME") ∧
    (finalState (run ⟨.pcieNs, .fresh⟩ fun _ => true)).log.all Event.ok = true ∧
    (finalState (run ⟨.pcieNs, .fresh⟩ fun _ => true)).world.dst.nvmeCtrls ≠
      Source.pcieNs.migrated.map NvmeCtrl.passive := by
  decide +kernel

end Runs

end DcPerf.LiveUpdate
