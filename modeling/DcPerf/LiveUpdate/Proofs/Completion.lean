import DcPerf.LiveUpdate.Proofs.Blocks

/-!
# Runs that return

A run returns when every RPC succeeds and every name that it looks up is listed.
-/

namespace DcPerf.LiveUpdate

open DcPerf.Library

/-- Every name that an action looks up is listed. -/
def Action.Resolved (src : Source) : Action → Prop
  | .create b | .release _ b => src.lists b = true
  | .subsys nqn => nqn ∈ src.subsystems.map Subsys.nqn
  | .missing => False
  | _ => True

variable {src : Source} {w : World} {answers : ℕ → Bool} {s : Session}

theorem lists_iff {b : String} : src.lists b = true ↔ ∃ info base, src.entry b = some (info, base) ∧
    (info.productName = "NVMe disk" → info.trid.complete = true) := by
  rw [Source.lists, Option.any_eq_true]
  constructor
  · rintro ⟨⟨info, base⟩, he, h⟩
    refine ⟨info, base, he, fun hp => ?_⟩
    simpa [hp] using h
  · rintro ⟨info, base, he, h⟩
    refine ⟨⟨info, base⟩, he, ?_⟩
    by_cases hp : info.productName = "NVMe disk"
    · simp [h hp]
    · simp [hp]

theorem resolved_of_listed (h : src.Listed) {a : Action} (ha : a ∈ planOf src) :
    a.Resolved src := by
  rcases mem_plan_cases ha with ⟨c, hc, ha⟩ | ⟨c, hc, ha⟩
  · obtain ⟨ctrl, hctrl, hb⟩ := (Option.any_eq_true _ _).mp (h.vblk c hc)
    have hlist (ctrl' : VblkCtrl) (h' : (managerOf src).vblkCtrlDict.lookup c = some ctrl')
        (hn : ctrl'.bdev ≠ "none") : src.lists ctrl'.bdev = true := by
      obtain rfl := Option.some.inj (hctrl.symm.trans h')
      simpa [hn] using hb
    cases ha with
    | missing h' => simp [Source.vblkCtrl?, h'] at hctrl
    | create ctrl' h' hn => exact hlist ctrl' h' hn
    | hand => trivial
    | release ctrl' params h' hn => exact hlist ctrl' h' hn
    | destroy => trivial
  · obtain ⟨ctrl, hctrl, hb⟩ := (Option.any_eq_true _ _).mp (h.nvme c hc)
    obtain ⟨hnqn, hns⟩ := (Bool.and_eq_true _ _).mp hb
    have hlist (ctrl' : NvmeCtrl) (h' : (managerOf src).nvmeCtrlDict.lookup c = some ctrl')
        (n : CtrlNs) (hn : n ∈ ctrl'.namespaces) : src.lists n.bdev = true := by
      obtain rfl := Option.some.inj (hctrl.symm.trans h')
      exact List.all_eq_true.mp hns n hn
    cases ha with
    | missing h' => simp [Source.nvmeCtrl?, h'] at hctrl
    | subsys ctrl' h' =>
      obtain rfl := Option.some.inj (hctrl.symm.trans h')
      have hmem : ctrl.nqn ∈ src.subsystems.map Subsys.nqn := of_decide_eq_true hnqn
      exact hmem
    | create ctrl' n h' hn => exact hlist ctrl' h' n hn
    | ns => trivial
    | hand => trivial
    | release ctrl' n h' hn => exact hlist ctrl' h' n hn
    | destroy => trivial

theorem creatable_of_lists (hs : Steady w answers s) {b : String} (h : w.src.lists b = true) :
    s.mem.Creatable b := by
  obtain ⟨info, base, he, ht⟩ := lists_iff.mp h
  refine ⟨info, base, (hs.known b).trans he, fun hp => ⟨ht hp, ?_⟩⟩
  obtain ⟨g, hg, hk⟩ := (entry_spec he).disk hp
  exact ⟨g, hg, (hs.knownBase g).trans hk⟩

theorem Memory.Creatable.destroyable {m : Memory} {b : String} (h : m.Creatable b) :
    m.Destroyable b := by
  obtain ⟨info, base, hk, hd⟩ := h
  exact ⟨info, base, hk, fun hp => (hd hp).2⟩

/-- Every listed subsystem has its entry in the history. -/
def HistKnown (src : Source) (s : Session) : Prop :=
  ∀ nqn ∈ src.subsystems.map Subsys.nqn, (s.mem.nvmeSubsysHist.lookup nqn).isSome = true

theorem exists_lookup_nqn {nqn : String} (h : nqn ∈ src.subsystems.map Subsys.nqn) :
    ∃ subsys, (managerOf src).nvmeSubsysDict.lookup nqn = some subsys := by
  obtain ⟨subsys, hs, rfl⟩ := List.mem_map.mp h
  exact Dict.exists_lookup_ofList hs

theorem histKnown_start (hs : Started w answers s) : HistKnown w.src s := by
  intro nqn h
  obtain ⟨subsys, hm, rfl⟩ := List.mem_map.mp h
  have hmem : ∃ n, (memoryOf w.src).nvmeSubsysHist.lookup subsys.nqn = some n :=
    Dict.exists_lookup_ofList hm
  obtain ⟨n, hn⟩ := hmem
  rw [hs.mem, hn]
  rfl

theorem HistKnown.set {nqn : String} (h : HistKnown src s) {m : Memory}
    (hm : m.nvmeSubsysHist = s.mem.nvmeSubsysHist.set nqn 1) :
    ∀ nqn' ∈ src.subsystems.map Subsys.nqn, (m.nvmeSubsysHist.lookup nqn').isSome = true := by
  intro nqn' hn
  rw [hm, Dict.lookup_set]
  split
  · rfl
  · exact h nqn' hn

/-- An action whose names are listed is carried out when its RPCs succeed. -/
theorem perform_resolved (hs : Steady w answers s) (hh : HistKnown w.src s) {a : Action}
    (ha : a.Resolved w.src) (hans : ∀ n, answers n = true) :
    wp (perform (managerOf w.src) a) (fun _ => HistKnown w.src) (fun _ _ => False) s := by
  have hyes (n : ℕ) : s.answers n ≠ false := by simp [hs.answers, hans]
  have hno : ¬∃ n, s.answers n = false := fun ⟨n, hn⟩ => hyes n hn
  have hkeep (h : ∀ nqn, a ≠ .subsys nqn) :
      wp (perform (managerOf w.src) a) (fun _ => HistKnown w.src) (fun _ _ => True) s := by
    refine wp_mono (perform_hist (managerOf w.src) h s) ?_ fun _ _ _ => trivial
    intro _ s' hk nqn hn
    rw [show s'.mem.nvmeSubsysHist = s.mem.nvmeSubsysHist from hk]
    exact hh nqn hn
  -- Only the abort is left to exclude where the history is kept.
  have hjoin (h : ∀ nqn, a ≠ .subsys nqn)
      (hab : wp (perform (managerOf w.src) a) (fun _ _ => True) (fun _ _ => False) s) :
      wp (perform (managerOf w.src) a) (fun _ => HistKnown w.src) (fun _ _ => False) s :=
    wp_mono (wp_and (hkeep h) hab) (fun _ _ h => h.1) fun _ _ h => h.2
  cases a with
  | send c =>
    exact hjoin (by simp) (wp_sendRpc.mpr ⟨fun _ => trivial, fun hn => hyes _ hn⟩)
  | create b =>
    refine hjoin (by simp) (wp_mono (wp_createBdev b s) (fun _ _ _ => trivial) ?_)
    rintro _ s' (hm | ⟨_, _, _, _, _, _, _, _, _, _, _, hn⟩ | ⟨_, _, _, _, _, _, hn⟩)
    · exact hm (creatable_of_lists hs ha)
    · exact hyes _ hn
    · exact hyes _ hn
  | release c b =>
    refine hjoin (by simp) (wp_bind.mpr (wp_sendRpc.mpr ⟨fun _ => ?_, fun hn => hyes _ hn⟩))
    refine wp_mono (wp_destroyBdev b (s.sent c)) (fun _ _ _ => trivial) ?_
    rintro _ s' (⟨_, hm⟩ | ⟨_, _, _, _, _, _, hn⟩ | ⟨_, _, _, _, _, _, _, hn⟩)
    · exact hm (creatable_of_lists hs ha).destroyable
    · exact hyes _ hn
    · exact hyes _ hn
  | subsys nqn =>
    refine wp_mono (wp_ensureNvmeSubsys (managerOf w.src) nqn s) ?_ ?_
    · rintro _ s' (h | h | h)
      · exact hh
      · exact hh.set rfl
      · exact hh.set rfl
    · rintro _ s' (h | hn | ⟨_, _, _, hn⟩)
      · rcases h with h | h
        · simpa [h] using hh nqn ha
        · obtain ⟨subsys, hsub⟩ := exists_lookup_nqn ha
          simp [h] at hsub
      · exact hno hn
      · exact hno hn
  | ns ctrl n =>
    refine hjoin (by simp) (wp_mono (wp_ensureNvmeNamespace ctrl n s) (fun _ _ _ => trivial) ?_)
    rintro _ s' (hn | ⟨_, hn⟩)
    · exact hno hn
    · exact hno hn
  | missing => exact ha.elim

/-- A run returns when every RPC succeeds and every name that it looks up is listed. -/
theorem run_returns (hlist : w.src.Listed) (hsrc : w.src.version = true)
    (hdst : w.dst.version = true) (hans : ∀ n, answers n = true) : Returned (run w answers) := by
  refine returned_of_wp (wp_mono (wp_main w answers (I := fun _ => HistKnown w.src) (J := fun _ => False)
    (fun s hs => histKnown_start hs) ?_ ?_) (fun _ _ h => h) fun _ _ h => h.2)
  · rintro (⟨n, hn⟩ | hv | hv)
    · simp [hans] at hn
    · simp [hsrc] at hv
    · simp [hdst] at hv
  · intro done a rest hp s hs hh
    exact perform_resolved hs hh (resolved_of_listed hlist (by simp [hp])) hans

end DcPerf.LiveUpdate
