import DcPerf.LiveUpdate.Lifespans
import DcPerf.LiveUpdate.Proofs.HandoverRuns
import Mathlib.Data.List.TakeWhile

/-!
# Physical functions outlive their virtual functions

What a run does to the controllers follows the plan up to the first name that is not listed. The plan
of a physical function begins with its own creation and ends with its own destruction, and everything
about its virtual functions lies between.
-/

namespace DcPerf.LiveUpdate

open DcPerf.Library

variable {α : Type} {f : Cmd → Option α} {l l' : List Action} {xs xs' : List α}

/-! ## What the commands of a plan are about -/

/-- What the fixed commands of the actions are about, as `f` says, are the elements of `xs`; up to a
name that is not listed they are the first of these. -/
structure Yields (f : Cmd → Option α) (l : List Action) (xs : List α) : Prop where
  whole : .missing ∉ l → (l.filterMap Action.fixed).filterMap f = xs
  upTo : ((l.takeWhile (· ≠ .missing)).filterMap Action.fixed).filterMap f <+: xs

theorem takeWhile_listed : l.takeWhile (· ≠ .missing) = l ↔ .missing ∉ l := by
  rw [List.takeWhile_eq_self_iff]
  constructor
  · intro h hm
    simpa using h _ hm
  · intro h a ha
    rw [decide_eq_true_eq]
    rintro rfl
    exact h ha

theorem yields_of_listed (h : .missing ∉ l) (hx : (l.filterMap Action.fixed).filterMap f = xs) :
    Yields f l xs := by
  refine ⟨fun _ => hx, ?_⟩
  rw [takeWhile_listed.mpr h, hx]

/-- Nothing is done when a name is not listed. -/
theorem yields_missing (f : Cmd → Option α) (xs : List α) : Yields f [.missing] xs :=
  ⟨fun h => absurd (List.mem_singleton_self _) h, by simp⟩

/-- Actions whose commands are about something else. -/
theorem yields_nil (h : ∀ a ∈ l, ∀ c, a.fixed = some c → f c = none) : Yields f l [] := by
  have hnone : ∀ l' : List Action, (∀ a ∈ l', a ∈ l) →
      (l'.filterMap Action.fixed).filterMap f = [] := by
    intro l' hl'
    refine List.filterMap_eq_nil_iff.mpr ?_
    intro c hc
    obtain ⟨a, ha, hac⟩ := List.mem_filterMap.mp hc
    exact h a (hl' a ha) c hac
  refine ⟨fun _ => hnone l fun _ ha => ha, ?_⟩
  rw [hnone _ fun _ ha => (List.takeWhile_prefix _).subset ha]

theorem Yields.append (h : Yields f l xs) (h' : Yields f l' xs') :
    Yields f (l ++ l') (xs ++ xs') := by
  constructor
  · intro hm
    rw [List.mem_append, not_or] at hm
    rw [List.filterMap_append, List.filterMap_append, h.whole hm.1, h'.whole hm.2]
  · have hprefix := List.takeWhile_prefix (l := l) (· ≠ .missing)
    rw [List.takeWhile_append]
    split
    next hlength =>
      have hself := hprefix.eq_of_length hlength
      have hm := takeWhile_listed.mp hself
      rw [List.filterMap_append, List.filterMap_append, h.whole hm]
      exact (List.prefix_append_right_inj _).mpr h'.upTo
    next => exact h.upTo.trans (List.prefix_append _ _)

theorem Yields.flatMap {β : Type} {g : β → List Action} {k : β → List α} {bs : List β}
    (h : ∀ b ∈ bs, Yields f (g b) (k b)) : Yields f (bs.flatMap g) (bs.flatMap k) := by
  induction bs with
  | nil => exact yields_nil (by simp)
  | cons b bs ih =>
    rw [List.flatMap_cons, List.flatMap_cons]
    exact (h b List.mem_cons_self).append (ih fun b' hb' => h b' (List.mem_cons_of_mem _ hb'))

/-! ## The blocks -/

section Blocks

variable {src : Source} {self : Manager} {hand removed last : String → List α}

/-- The actions after a lookup: nothing is done when it finds nothing. -/
theorem yields_lookup {β : Type} {o : Option β} {cmds : β → List Cmd}
    (hnone : o = none → l = [.missing]) (hmissing : .missing ∈ l → o = none)
    (hfixed : l.filterMap Action.fixed = o.elim [] cmds)
    (hf : ∀ b, o = some b → (cmds b).filterMap f = xs) : Yields f l xs := by
  cases o with
  | none =>
    rw [hnone rfl]
    exact yields_missing f xs
  | some b =>
    refine yields_of_listed (fun hm => absurd (hmissing hm) (by simp)) ?_
    rw [hfixed, Option.elim_some, hf b rfl]

theorem yields_vblkCtrlPlan (isVf : Bool) (i : String)
    (hhand : ∀ ctrl, (handVblkOver i ctrl).filterMap f = hand i)
    (hremoved : [destroyVblkCtrlCmd i (some "force")].filterMap f = removed i) :
    Yields f (vblkCtrlPlan self isVf i) (hand i ++ if isVf = true then removed i else []) := by
  refine yields_lookup (fun h => by simp [vblkCtrlPlan, h, look]) (fun hm => ?_)
    (vblkCtrlPlan_fixed self isVf i) fun ctrl _ => ?_
  · cases mem_vblkCtrlPlan hm with
    | missing h => exact h
  · rw [List.filterMap_append, hhand]
    cases isVf with
    | false => rfl
    | true => rw [if_pos rfl, if_pos rfl, hremoved]

theorem yields_destroyVblkPlan (i : String) (params : Option String)
    (hlast : [destroyVblkCtrlCmd i params].filterMap f = last i) :
    Yields f (destroyVblkPlan self i params) (last i) := by
  refine yields_lookup (fun h => by simp [destroyVblkPlan, h, look]) (fun hm => ?_)
    (destroyVblkPlan_fixed self i params) fun _ _ => hlast
  cases mem_destroyVblkPlan hm with
  | missing h => exact h

theorem yields_cleanupNvmePlan (i : String)
    (hlast : ∀ ctrl, (removeNvme i ctrl).filterMap f = last i) :
    Yields f (cleanupNvmePlan self i) (last i) := by
  refine yields_lookup (fun h => by simp [cleanupNvmePlan, h, look]) (fun hm => ?_)
    (cleanupNvmePlan_fixed self i) fun ctrl _ => hlast ctrl
  cases mem_cleanupNvmePlan hm with
  | missing h => exact h

theorem yields_nvmeCtrlPlan (isVf : Bool) (i : String)
    (hhand : ∀ ctrl : NvmeCtrl, ctrl.ctrlId = i → (handNvmeOver ctrl).filterMap f = hand i)
    (hremoved : ∀ ctrl, (removeNvme i ctrl).filterMap f = removed i) :
    Yields f (nvmeCtrlPlan (managerOf src) isVf i)
      (hand i ++ if isVf = true then removed i else []) := by
  refine yields_lookup (fun h => by simp [nvmeCtrlPlan, h, look]) (fun hm => ?_)
    (nvmeCtrlPlan_fixed _ isVf i) fun ctrl hctrl => ?_
  · cases mem_nvmeCtrlPlan hm with
    | missing h => exact h
  · rw [cleanupNvmePlan_fixed, hctrl, Option.elim_some, List.filterMap_append,
      hhand ctrl (ctrlId_of_lookup hctrl)]
    cases isVf with
    | false => rfl
    | true =>
      rw [if_pos rfl, if_pos rfl]
      exact congrArg _ (hremoved ctrl)

/-- The block of a physical function comes first, its last block after those of its virtual
functions. -/
theorem yields_pfBlocks {block : Bool → String → List Action} {final : String → List Action}
    {pf : PhysFunc} (hpf : pf.vfIndex = none) (hvfs : ∀ vf ∈ pf.vfs, vf.vfIndex.isSome = true)
    (hblock : ∀ isVf i, Yields f (block isVf i) (hand i ++ if isVf = true then removed i else []))
    (hfinal : ∀ i, Yields f (final i) (last i)) :
    Yields f (pfBlocks block final pf)
      (pf.ctrlId.toList.flatMap hand ++ pf.vfIds.flatMap (fun i => hand i ++ removed i) ++
        pf.ctrlId.toList.flatMap last) := by
  unfold pfBlocks PhysFunc.vfIds
  rw [List.flatMap_assoc]
  refine (Yields.append ?_ ?_).append ?_
  · refine Yields.flatMap fun i _ => ?_
    have hown := hblock pf.vfIndex.isSome i
    simpa [hpf] using hown
  · refine Yields.flatMap fun vf hvf => Yields.flatMap fun i _ => ?_
    have hvf' := hblock vf.vfIndex.isSome i
    rwa [if_pos (hvfs vf hvf)] at hvf'
  · exact Yields.flatMap fun i _ => hfinal i

end Blocks

/-! ## The plan -/

section Plan

variable {src : Source} {hand removed last : String → List α}

/-- What a physical function yields, in the order of its blocks. -/
def PhysFunc.inTurn (hand removed last : String → List α) (pf : PhysFunc) : List α :=
  pf.ctrlId.toList.flatMap hand ++ pf.vfIds.flatMap (fun i => hand i ++ removed i) ++
    pf.ctrlId.toList.flatMap last

theorem yields_planOf_vblk (hand removed last : String → List α) (hnum : src.WellNumbered "VBLK")
    (hf : ∀ c, c.rpc.isVblk = false → f c = none)
    (hhand : ∀ i ctrl, (handVblkOver i ctrl).filterMap f = hand i)
    (hremoved : ∀ i, [destroyVblkCtrlCmd i (some "force")].filterMap f = removed i)
    (hlast : ∀ i, [destroyVblkCtrlCmd i none].filterMap f = last i) :
    Yields f (planOf src)
      ((functionsOf "VBLK" src.functions).flatMap (PhysFunc.inTurn hand removed last)) := by
  have hvblk : Yields f (vblkPlan (managerOf src))
      ((functionsOf "VBLK" src.functions).flatMap (PhysFunc.inTurn hand removed last)) := by
    rw [vblkPlan_eq]
    exact Yields.flatMap fun pf hpf => yields_pfBlocks (hnum pf hpf).1 (hnum pf hpf).2
      (fun isVf i => yields_vblkCtrlPlan isVf i (hhand i) (hremoved i))
      fun i => yields_destroyVblkPlan i none (hlast i)
  have hnvme : Yields f (nvmePlan (managerOf src)) [] := by
    refine yields_nil ?_
    intro a ha c hc
    obtain ⟨i, -, hact⟩ := mem_nvmePlan ha
    exact hf c (hact.isVblk hc)
  have hplan := hvblk.append hnvme
  rwa [List.append_nil] at hplan

theorem yields_planOf_nvme (hand removed : String → List α) (hnum : src.WellNumbered "NVME")
    (hf : ∀ c, c.rpc.isVblk = true → f c = none)
    (hhand : ∀ i, ∀ ctrl : NvmeCtrl, ctrl.ctrlId = i → (handNvmeOver ctrl).filterMap f = hand i)
    (hremoved : ∀ i ctrl, (removeNvme i ctrl).filterMap f = removed i) :
    Yields f (planOf src)
      ((functionsOf "NVME" src.functions).flatMap (PhysFunc.inTurn hand removed removed)) := by
  have hvblk : Yields f (vblkPlan (managerOf src)) [] := by
    refine yields_nil ?_
    intro a ha c hc
    obtain ⟨i, -, hact⟩ := mem_vblkPlan ha
    exact hf c (hact.isVblk hc)
  have hnvme : Yields f (nvmePlan (managerOf src))
      ((functionsOf "NVME" src.functions).flatMap (PhysFunc.inTurn hand removed removed)) := by
    rw [nvmePlan_eq]
    exact Yields.flatMap fun pf hpf => yields_pfBlocks (hnum pf hpf).1 (hnum pf hpf).2
      (fun isVf i => yields_nvmeCtrlPlan isVf i (hhand i) (hremoved i))
      fun i => yields_cleanupNvmePlan i (hremoved i)
  exact hvblk.append hnvme

/-- What a command to the process `k` is about, as `g` says. -/
def Cmd.about (k : Sock) (g : Rpc → Option α) (c : Cmd) : Option α :=
  if c.sock = k then g c.rpc else none

theorem about_eq_none {k : Sock} {g : Rpc → Option α} {c : Cmd} (h : g c.rpc = none) :
    c.about k g = none := by
  simp [Cmd.about, h]

theorem filterMap_map_none {β : Type} {cmd : β → Cmd} (bs : List β) (h : ∀ b, f (cmd b) = none) :
    (bs.map cmd).filterMap f = [] := by
  rw [List.filterMap_map]
  exact List.filterMap_eq_nil_iff.mpr fun b _ => h b

/-- Of the commands that hand an NVMe controller over, those that `f` reads: it skips what suspends the
controller and what attaches its namespaces. -/
theorem filterMap_handNvmeOver {ctrl : NvmeCtrl}
    (hsuspend : ∀ mode timeout, f (suspendNvmeCtrlCmd ctrl mode timeout) = none)
    (hattach : ∀ n, f (attachNvmeNsCmd ctrl n) = none) :
    (handNvmeOver ctrl).filterMap f = (f (createPassiveNvmeControllerCmd ctrl)).toList := by
  rw [handNvmeOver, List.filterMap_append, List.filterMap_append, filterMap_map_none _ hattach]
  cases h : f (createPassiveNvmeControllerCmd ctrl) with
  | none => simp [hsuspend, h]
  | some x => simp [hsuspend, h]

theorem filterMap_removeNvme {i : String} {ctrl : NvmeCtrl}
    (hdetach : ∀ n : CtrlNs, f (detachNvmeNsCmd i n.nsid) = none) :
    (removeNvme i ctrl).filterMap f = (f (destroyNvmeControllerCmd i)).toList := by
  rw [removeNvme, List.filterMap_append, filterMap_map_none _ hdetach]
  cases h : f (destroyNvmeControllerCmd i) with
  | none => simp [h]
  | some x => simp [h]

theorem inTurn_created :
    PhysFunc.inTurn (fun i => [i]) (fun _ => []) (fun _ => []) = PhysFunc.ids := by
  funext pf
  simp [PhysFunc.inTurn, PhysFunc.ids, PhysFunc.vfIds]

theorem yields_vblkCreated (hnum : src.WellNumbered "VBLK") :
    Yields (Cmd.about .dst Rpc.createdVblk?) (planOf src) (src.ids "VBLK") := by
  unfold Source.ids
  rw [← inTurn_created]
  refine yields_planOf_vblk _ _ _ hnum ?_ ?_ (fun i => rfl) (fun i => rfl)
  · intro c hc
    apply about_eq_none
    cases hr : c.rpc <;> simp_all [Rpc.createdVblk?, Rpc.isVblk]
  · intro i ctrl
    rfl

theorem yields_vblkDestroyed (hnum : src.WellNumbered "VBLK") :
    Yields (Cmd.about .src Rpc.destroyedVblk?) (planOf src)
      ((functionsOf "VBLK" src.functions).flatMap PhysFunc.vblkDestroyed) := by
  have hturn : PhysFunc.inTurn (fun _ => []) (fun i => [(i, some "--force")])
      (fun i => [(i, none)]) = PhysFunc.vblkDestroyed := by
    funext pf
    simp [PhysFunc.inTurn, PhysFunc.vblkDestroyed, List.map_eq_flatMap]
  rw [← hturn]
  refine yields_planOf_vblk _ _ _ hnum ?_ ?_ (fun i => rfl) (fun i => rfl)
  · intro c hc
    apply about_eq_none
    cases hr : c.rpc <;> simp_all [Rpc.destroyedVblk?, Rpc.isVblk]
  · intro i ctrl
    rfl

theorem yields_nvmeCreated (hnum : src.WellNumbered "NVME") :
    Yields (Cmd.about .dst Rpc.createdNvme?) (planOf src) (src.ids "NVME") := by
  unfold Source.ids
  rw [← inTurn_created]
  refine yields_planOf_nvme _ _ hnum ?_ ?_ ?_
  · intro c hc
    apply about_eq_none
    cases hr : c.rpc <;> simp_all [Rpc.createdNvme?, Rpc.isVblk]
  · rintro i ctrl rfl
    exact filterMap_handNvmeOver (fun _ _ => rfl) fun _ => rfl
  · intro i ctrl
    exact filterMap_removeNvme fun _ => rfl

theorem yields_nvmeDestroyed (hnum : src.WellNumbered "NVME") :
    Yields (Cmd.about .src Rpc.destroyedNvme?) (planOf src)
      ((functionsOf "NVME" src.functions).flatMap PhysFunc.nvmeDestroyed) := by
  have hturn : PhysFunc.inTurn (fun _ => []) (fun i => [i]) (fun i => [i]) =
      PhysFunc.nvmeDestroyed := by
    funext pf
    simp [PhysFunc.inTurn, PhysFunc.nvmeDestroyed]
  rw [← hturn]
  refine yields_planOf_nvme _ _ hnum ?_ ?_ ?_
  · intro c hc
    apply about_eq_none
    cases hr : c.rpc <;> simp_all [Rpc.destroyedNvme?, Rpc.isVblk]
  · intro i ctrl _
    exact filterMap_handNvmeOver (fun _ _ => rfl) fun _ => rfl
  · intro i ctrl
    exact filterMap_removeNvme fun _ => rfl

end Plan

/-! ## The order of the functions -/

section Order

variable {pfs : List PhysFunc} {pf : PhysFunc} {c v : String}

/-- A controller belongs to functions as often as it is that of a physical or of a virtual function. -/
theorem count_ids (pfs : List PhysFunc) (c : String) :
    (pfs.flatMap PhysFunc.ids).count c =
      (pfs.flatMap fun pf => pf.ctrlId.toList).count c + (pfs.flatMap PhysFunc.vfIds).count c := by
  induction pfs with
  | nil => rfl
  | cons pf pfs ih =>
    simp only [List.flatMap_cons, List.count_append, ih, PhysFunc.ids, PhysFunc.vfIds]
    omega

/-- The controller of a physical function is not that of a virtual function as well. -/
theorem not_both (h : (pfs.flatMap PhysFunc.ids).count c = 1)
    (hown : c ∈ pfs.flatMap fun pf => pf.ctrlId.toList) : c ∉ pfs.flatMap PhysFunc.vfIds := by
  intro hvf
  have hpos := List.count_pos_iff.mpr hown
  have hpos' := List.count_pos_iff.mpr hvf
  rw [count_ids] at h
  omega

/-- What comes first of each physical function comes before what belongs to one function only and
comes later there. -/
theorem follows_flatMap (key : α → String) (first later : PhysFunc → List α) (hpf : pf ∈ pfs)
    (hkey : ∀ pf, (first pf ++ later pf).map key |>.Perm pf.ids)
    (hsole : (pfs.flatMap PhysFunc.ids).count c = 1) (hlater : c ∈ (later pf).map key)
    (hfirst : v ∈ (first pf).map key) :
    Always (Follows (fun x => decide (key x = c)) fun x => decide (key x = v))
      (pfs.flatMap fun pf => first pf ++ later pf) := by
  obtain ⟨before, after, rfl⟩ := List.append_of_mem hpf
  have hcount : (before.flatMap PhysFunc.ids).count c = 0 ∧ ((first pf).map key).count c = 0 := by
    have hperm := (hkey pf).count_eq c
    have hpos := List.count_pos_iff.mpr hlater
    simp only [List.flatMap_append, List.flatMap_cons, List.count_append] at hsole
    simp only [List.map_append, List.count_append] at hperm
    omega
  have hsplit : ((before ++ pf :: after).flatMap fun pf => first pf ++ later pf) =
      ((before.flatMap fun pf => first pf ++ later pf) ++ first pf) ++
        (later pf ++ after.flatMap fun pf => first pf ++ later pf) := by
    simp [List.flatMap_append]
  rw [hsplit]
  refine follows_append ?_ fun _ => ?_
  · intro x hx
    rw [decide_eq_false_iff_not]
    rintro rfl
    rcases List.mem_append.mp hx with hx | hx
    · obtain ⟨pf', hpf', hx⟩ := List.mem_flatMap.mp hx
      have hids : key x ∈ pf'.ids := (hkey pf').subset (List.mem_map_of_mem hx)
      exact List.count_eq_zero.mp hcount.1 (List.mem_flatMap.mpr ⟨pf', hpf', hids⟩)
    · exact List.count_eq_zero.mp hcount.2 (List.mem_map_of_mem hx)
  · obtain ⟨x, hx, rfl⟩ := List.mem_map.mp hfirst
    exact ⟨x, List.mem_append_right _ hx, by simp⟩

end Order

/-! ## Runs -/

section Runs

variable {w : World} {answers : ℕ → Bool} {k : Sock} {g : Rpc → Option α}

theorem filterMap_about (hg : ∀ r, r.kind ≠ .controller → g r = none) (log : List Event) :
    log.filterMap (Event.about k g) =
      (log.filterMap Event.controllerCmd?).filterMap (Cmd.about k g) := by
  rw [List.filterMap_filterMap]
  refine List.filterMap_congr ?_
  intro e _
  cases e with
  | asked => rfl
  | sent c ok =>
    by_cases hk : c.rpc.kind = .controller
    · rw [controllerCmd_sent ok hk]
      by_cases hs : c.sock = k <;> simp [Event.about, Event.rpcTo, Cmd.about, hs]
    · have hnone : (Event.sent c ok).controllerCmd? = none := by
        simp [Event.controllerCmd?, Event.cmd?, Option.filter, hk]
      rw [hnone]
      by_cases hs : c.sock = k <;> simp [Event.about, Event.rpcTo, hs, hg _ hk]

/-- What the plan yields in turn, a run does in turn. -/
theorem run_about (hg : ∀ r, r.kind ≠ .controller → g r = none)
    (hplan : Yields (Cmd.about k g) (planOf w.src) xs) :
    (finalState (run w answers)).log.filterMap (Event.about k g) <+: xs := by
  obtain ⟨-, hl⟩ := run_reached_controllers w answers
  rw [filterMap_about hg]
  exact (hl.filterMap _).trans hplan.upTo

theorem run_inTurn (hvblk : w.src.WellNumbered "VBLK") (hnvme : w.src.WellNumbered "NVME") :
    InTurn w.src (finalState (run w answers)).log := by
  refine ⟨run_about ?_ (yields_vblkCreated hvblk), run_about ?_ (yields_vblkDestroyed hvblk),
    run_about ?_ (yields_nvmeCreated hnvme), run_about ?_ (yields_nvmeDestroyed hnvme)⟩
  · intro r hr
    cases r <;> simp_all [Rpc.createdVblk?, Rpc.kind]
  · intro r hr
    cases r <;> simp_all [Rpc.destroyedVblk?, Rpc.kind]
  · intro r hr
    cases r <;> simp_all [Rpc.createdNvme?, Rpc.kind]
  · intro r hr
    cases r <;> simp_all [Rpc.destroyedNvme?, Rpc.kind]

/-- The order of what a run does is that of the events. -/
theorem run_follows_about {q q' : α → Bool} {p p' : Rpc → Bool}
    (hpre : (finalState (run w answers)).log.filterMap (Event.about k g) <+: xs)
    (h : Always (Follows q q') xs) (hp : ∀ r, p r = (g r).any q) (hp' : ∀ r, p' r = (g r).any q') :
    Always (fun pre e => e.sends k p = true → ∃ x ∈ pre, x.does k p' = true)
      (finalState (run w answers)).log := by
  have hsends : ∀ (e : Event) (p : Rpc → Bool) (q : α → Bool), (∀ r, p r = (g r).any q) →
      e.sends k p = (e.about k g).any q := by
    intro e p q hpq
    unfold Event.sends Event.about
    cases e.rpcTo k with
    | none => rfl
    | some r => exact hpq r
  have hok := (run_reached_controllers w answers).1.ok
  refine ((always_filterMap.mp (h.of_prefix hpre)).and hok).mono ?_
  rintro pre e ⟨hfollows, hok⟩ hsend
  rw [hsends e p q hp] at hsend
  obtain ⟨y, hy, hq⟩ := (Option.any_eq_true _ _).mp hsend
  obtain ⟨y', hy', hq'⟩ := hfollows y hy hq
  obtain ⟨x, hx, hxy⟩ := List.mem_filterMap.mp hy'
  refine ⟨x, hx, ?_⟩
  rw [Event.does, hok x hx, hsends x p' q' hp', hxy]
  exact hq'

/-- The controller of a physical function is created first. -/
theorem run_created_first {t : String} {creates : String → Rpc → Bool} {g : Rpc → Option String}
    (h : (finalState (run w answers)).log.filterMap (Event.about .dst g) <+: w.src.ids t)
    (hg : ∀ i r, creates i r = (g r).any fun x => decide (x = i)) {pf : PhysFunc}
    (hpf : pf ∈ functionsOf t w.src.functions) {c v : String} (hc : pf.ctrlId = some c)
    (hv : v ∈ pf.vfIds) (hsole : w.src.Sole t v) :
    Always (fun pre e => e.sends .dst (creates v) = true →
      ∃ x ∈ pre, x.does .dst (creates c) = true) (finalState (run w answers)).log := by
  have horder := follows_flatMap (c := v) (v := c) id (fun pf => pf.ctrlId.toList) PhysFunc.vfIds hpf
    (fun pf => ?_) hsole (by simpa using hv) (by simp [hc])
  · exact run_follows_about h horder (hg v) (hg c)
  · rw [List.map_id]
    exact List.Perm.refl _

/-- The controller of a physical function is destroyed last. -/
theorem run_destroyed_last {t : String} {destroys : String → Rpc → Bool} {g : Rpc → Option α}
    {vf own : String → α} (key : α → String) (hvf : ∀ i, key (vf i) = i)
    (hown : ∀ i, key (own i) = i)
    (h : (finalState (run w answers)).log.filterMap (Event.about .src g) <+:
      (functionsOf t w.src.functions).flatMap fun pf => pf.vfIds.map vf ++ pf.ctrlId.toList.map own)
    (hg : ∀ i r, destroys i r = (g r).any fun x => decide (key x = i)) {pf : PhysFunc}
    (hpf : pf ∈ functionsOf t w.src.functions) {c v : String} (hc : pf.ctrlId = some c)
    (hsole : w.src.Sole t c) (hv : v ∈ pf.vfIds) :
    Always (fun pre e => e.sends .src (destroys c) = true →
      ∃ x ∈ pre, x.does .src (destroys v) = true) (finalState (run w answers)).log := by
  have hkeyVf : key ∘ vf = id := funext hvf
  have hkeyOwn : key ∘ own = id := funext hown
  have horder := follows_flatMap (c := c) (v := v) key (fun pf => pf.vfIds.map vf)
    (fun pf => pf.ctrlId.toList.map own) hpf (fun pf => ?_) hsole (by simp [hown, hc])
    (by simpa [hkeyVf] using hv)
  · exact run_follows_about h horder (hg c) (hg v)
  · rw [List.map_append, List.map_map, List.map_map, hkeyVf, hkeyOwn, List.map_id, List.map_id]
    exact List.perm_append_comm

theorem run_vblk_outlives (h : InTurn w.src (finalState (run w answers)).log) :
    w.src.PfOutlivesVfs "VBLK" Rpc.createsVblk Rpc.destroysVblk (finalState (run w answers)).log := by
  constructor
  · intro pf hpf c hc hsole v hv
    refine run_destroyed_last Prod.fst (fun i => rfl) (fun i => rfl) h.vblkDestroyed ?_ hpf hc
      hsole hv
    intro i r
    cases r <;> rfl
  · intro pf hpf c hc v hv hsole
    refine run_created_first h.vblkCreated ?_ hpf hc hv hsole
    intro i r
    cases r <;> rfl

theorem run_nvme_outlives (h : InTurn w.src (finalState (run w answers)).log) :
    w.src.PfOutlivesVfs "NVME" Rpc.createsNvme Rpc.destroysNvme (finalState (run w answers)).log := by
  constructor
  · intro pf hpf c hc hsole v hv
    have hturn : PhysFunc.nvmeDestroyed = fun pf => pf.vfIds.map id ++ pf.ctrlId.toList.map id := by
      funext pf
      rw [List.map_id, List.map_id]
      rfl
    have hdestroyed := h.nvmeDestroyed
    rw [hturn] at hdestroyed
    refine run_destroyed_last id (fun i => rfl) (fun i => rfl) hdestroyed ?_ hpf hc hsole hv
    intro i r
    cases r <;> rfl
  · intro pf hpf c hc v hv hsole
    refine run_created_first h.nvmeCreated ?_ hpf hc hv hsole
    intro i r
    cases r <;> rfl

/-- An RPC that destroys a VBLK controller is one of those of the physical functions. -/
theorem mem_vblkDestroyed {log : List Event} {src : Source} (h : InTurn src log) {c : String}
    {flag : Option String}
    (he : ∃ e ∈ log, e.rpcTo .src = some (.virtioBlkControllerDestroy c flag)) :
    c ∈ (functionsOf "VBLK" src.functions).flatMap PhysFunc.vfIds ∧ flag = some "--force" ∨
      c ∈ ((functionsOf "VBLK" src.functions).flatMap fun pf => pf.ctrlId.toList) ∧ flag = none := by
  obtain ⟨e, he, hrpc⟩ := he
  have hmem : (c, flag) ∈ log.filterMap (Event.about .src Rpc.destroyedVblk?) :=
    List.mem_filterMap.mpr ⟨e, he, by simp [Event.about, hrpc, Rpc.destroyedVblk?]⟩
  obtain ⟨pf, hpf, hc⟩ := List.mem_flatMap.mp (h.vblkDestroyed.subset hmem)
  rcases List.mem_append.mp hc with hc | hc
  · obtain ⟨i, hi, heq⟩ := List.mem_map.mp hc
    obtain ⟨rfl, rfl⟩ := Prod.mk.inj heq
    exact .inl ⟨List.mem_flatMap.mpr ⟨pf, hpf, hi⟩, rfl⟩
  · obtain ⟨i, hi, heq⟩ := List.mem_map.mp hc
    obtain ⟨rfl, rfl⟩ := Prod.mk.inj heq
    exact .inr ⟨List.mem_flatMap.mpr ⟨pf, hpf, hi⟩, rfl⟩

theorem forcesVfs {log : List Event} {src : Source} (h : InTurn src log) : src.ForcesVfs log := by
  constructor
  · intro pf hpf v hv hsole flag he
    rcases mem_vblkDestroyed h he with ⟨-, hflag⟩ | ⟨hown, -⟩
    · exact hflag
    · exact absurd (List.mem_flatMap.mpr ⟨pf, hpf, hv⟩) (not_both hsole hown)
  · intro pf hpf c hc hsole flag he
    rcases mem_vblkDestroyed h he with ⟨hvf, -⟩ | ⟨-, hflag⟩
    · exact absurd hvf (not_both hsole (List.mem_flatMap.mpr ⟨pf, hpf, by simp [hc]⟩))
    · exact hflag

/-- Physical functions outlive their virtual functions on the source and precede them on the
destination, at every point of every run, whichever RPC fails. The controllers are created and destroyed
in the order of the functions, and VBLK controllers of virtual functions are destroyed by force. -/
theorem pf_outlives_vfs (w : World) (answers : ℕ → Bool) (hvblk : w.src.WellNumbered "VBLK")
    (hnvme : w.src.WellNumbered "NVME") :
    InTurn w.src (finalState (run w answers)).log ∧
    w.src.PfOutlivesVfs "VBLK" Rpc.createsVblk Rpc.destroysVblk (finalState (run w answers)).log ∧
    w.src.PfOutlivesVfs "NVME" Rpc.createsNvme Rpc.destroysNvme (finalState (run w answers)).log ∧
    w.src.ForcesVfs (finalState (run w answers)).log := by
  have hturn : InTurn w.src (finalState (run w answers)).log := run_inTurn hvblk hnvme
  exact ⟨hturn, run_vblk_outlives hturn, run_nvme_outlives hturn, forcesVfs hturn⟩

theorem pf_outlives_vfs_small :
    Always (fun pre e => e.sends .src (Rpc.destroysVblk "v0") = true →
        ∃ x ∈ pre, x.does .src (Rpc.destroysVblk "v1") = true)
      (finalState (run ⟨.small, .fresh⟩ fun _ => true)).log ∧
    ∃ e ∈ (finalState (run ⟨.small, .fresh⟩ fun _ => true)).log,
      e.does .src (Rpc.destroysVblk "v0") = true := by
  have h := pf_outlives_vfs ⟨.small, .fresh⟩ (fun _ => true) (by decide +kernel) (by decide +kernel)
  refine ⟨?_, by decide +kernel⟩
  exact h.2.1.destroyed ⟨⟨none, some "v0"⟩, "VBLK", [⟨some 0, some "v1"⟩]⟩ (by decide +kernel) "v0" rfl
    (by unfold Source.Sole; decide +kernel) "v1" (by decide +kernel)

end Runs

end DcPerf.LiveUpdate
