import DcPerf.LiveUpdate.Proofs.CreationRuns
import DcPerf.LiveUpdate.Proofs.HandoverRuns
import DcPerf.LiveUpdate.Restart

/-!
# A second run

The subsystems and namespaces of the destination are looked up before they are created, so that no
run creates one again. Bdevs, NVMe-oF controllers and controllers are not: a second run creates
again whatever the first one has left there for a function that is still on the source.
-/

namespace DcPerf.LiveUpdate

open DcPerf.Library

/-! ## What a run creates -/

/-- The command creates, or attaches the NVMe-oF controller under, a bdev of the plan. -/
inductive CreatesPlanned (src : Source) : Cmd → Prop where
  | disk (b : String) (info : Bdev) (base : Option String) (c : Cmd)
    (hb : .create b ∈ planOf src) (he : src.entry b = some (info, base))
    (hc : createDiskCmd info = some c) : CreatesPlanned src c
  | attach (b : String) (info : Bdev) (g trtype adrfam traddr trsvcid subnqn : String)
    (hb : .create b ∈ planOf src) (he : src.entry b = some (info, some g)) :
    CreatesPlanned src (bdevNvmeAttachControllerCmd g trtype adrfam traddr trsvcid subnqn)

section Planned

variable {w : World} {answers : ℕ → Bool} {s : Session} {src : Source} {a : Action} {b g : String}

/-- The commands that create a bdev are those for the bdevs of the plan. -/
theorem perform_createsPlanned (ha : a ∈ plan (managerOf w.src)) (hs : Steady w answers s)
    (h : Always (fun _ e => ∀ c ∈ e.cmd?, c.rpc.kind = .bdevCreate → CreatesPlanned w.src c) s.log) :
    wp (perform (managerOf w.src) a)
      (fun _ s' => Always (fun _ e => ∀ c ∈ e.cmd?, c.rpc.kind = .bdevCreate →
        CreatesPlanned w.src c) s'.log)
      (fun _ s' => Always (fun _ e => ∀ c ∈ e.cmd?, c.rpc.kind = .bdevCreate →
        CreatesPlanned w.src c) s'.log) s := by
  have hsent {c : Cmd} (ok : Bool) (hc : CreatesPlanned w.src c) :
      Always (fun _ e => ∀ c ∈ e.cmd?, c.rpc.kind = .bdevCreate → CreatesPlanned w.src c)
        (s.log ++ [.sent c ok]) := by
    refine always_snoc.mpr ⟨h, fun c' hc' _ => ?_⟩
    rw [← Option.some.inj hc']
    exact hc
  by_cases hcreate : ∃ b, a = .create b
  · obtain ⟨b, rfl⟩ := hcreate
    have hknown := hs.known b
    refine wp_mono (wp_createBdev b s) ?_ ?_
    · intro _ s' hb
      cases hb with
      | skip => exact h
      | shared => exact h
      | attach info g trtype adrfam traddr trsvcid subnqn hk =>
        exact hsent true (.attach b info g _ _ _ _ _ ha (hknown ▸ hk))
      | disk info base c hk _ _ hc => exact hsent true (.disk b info base c ha (hknown ▸ hk) hc)
      | unsupported => exact h
    · intro _ s' hb
      cases hb with
      | missing => exact h
      | attach info g trtype adrfam traddr trsvcid subnqn hk =>
        exact hsent false (.attach b info g _ _ _ _ _ ha (hknown ▸ hk))
      | disk info base c hk _ hc => exact hsent false (.disk b info base c ha (hknown ▸ hk) hc)
  · refine perform_always _ h fun pre e he c hc hk => ?_
    rcases sendsKind ha (he c hc) with ⟨b, hb, -, -⟩ | ⟨c', b, -, -, hk'⟩ | ⟨nqn, -, hk'⟩ |
      ⟨ctrl, n, -, hk'⟩ | ⟨-, hk'⟩
    · exact absurd ⟨b, hb⟩ hcreate
    · simp [hk'] at hk
    · simp [hk'] at hk
    · simp [hk'] at hk
    · simp [hk'] at hk

theorem run_createsPlanned {e : Event} (he : e ∈ (finalState (run w answers)).log) {c : Cmd}
    (hc : e.cmd? = some c) (hk : c.rpc.kind = .bdevCreate) : CreatesPlanned w.src c := by
  have hrun := (run_always w answers (fun _ e he c hc => by simp [he] at hc)
    fun a ha s hs h => perform_createsPlanned ha hs h).2
  obtain ⟨pre, post, hl⟩ := List.append_of_mem he
  exact hrun pre e post hl c hc hk

theorem needed_of_create (h : .create b ∈ planOf src) : b ∈ src.needed := by
  rcases mem_plan_cases h with ⟨c, hc, ha⟩ | ⟨c, hc, ha⟩
  · cases ha with
    | create ctrl hl hb =>
      have hmem : ctrl ∈ (src.vblkCtrl? c).toList := Option.mem_toList.mpr hl
      refine List.mem_append_left _ (List.mem_flatMap.mpr ⟨c, hc, List.mem_filter.mpr ⟨?_, ?_⟩⟩)
      · exact List.mem_map.mpr ⟨ctrl, hmem, rfl⟩
      · exact decide_eq_true hb
  · cases ha with
    | create ctrl n hl hn =>
      have hmem : ctrl ∈ (src.nvmeCtrl? c).toList := Option.mem_toList.mpr hl
      refine List.mem_append_right _ (List.mem_map.mpr ⟨n.within ctrl.nqn, ?_, rfl⟩)
      exact List.mem_flatMap.mpr ⟨c, hc, List.mem_flatMap.mpr ⟨ctrl, hmem,
        List.mem_map.mpr ⟨n, hn, rfl⟩⟩⟩

theorem create_of_needed (h : b ∈ src.needed) : .create b ∈ planOf src := by
  rcases List.mem_append.mp h with h | h
  · obtain ⟨c, hc, h⟩ := List.mem_flatMap.mp h
    obtain ⟨h, hb⟩ := List.mem_filter.mp h
    obtain ⟨ctrl, hl, rfl⟩ := List.mem_map.mp h
    have hl : (managerOf src).vblkCtrlDict.lookup c = some ctrl := Option.mem_toList.mp hl
    have hb : ctrl.bdev ≠ "none" := by simpa using hb
    obtain ⟨isVf, hsub⟩ := vblk_block_subset hc
    refine hsub _ ?_
    simp [vblkCtrlPlan, hl, look, hb]
  · obtain ⟨m, hm, rfl⟩ := List.mem_map.mp h
    obtain ⟨c, hc, h⟩ := List.mem_flatMap.mp hm
    obtain ⟨ctrl, hl, h⟩ := List.mem_flatMap.mp h
    obtain ⟨n, hn, rfl⟩ := List.mem_map.mp h
    have hl : (managerOf src).nvmeCtrlDict.lookup c = some ctrl := Option.mem_toList.mp hl
    obtain ⟨isVf, hsub⟩ := nvme_block_subset hc
    refine hsub _ ?_
    have hmem : Action.create n.bdev ∈ ctrl.namespaces.flatMap fun n =>
        [Action.create n.bdev, Action.ns ctrl n] := List.mem_flatMap.mpr ⟨n, hn, by simp⟩
    rw [nvmeCtrlPlan, hl]
    exact List.mem_append_left _ (List.mem_append_left _ (List.mem_append_right _ hmem))

theorem CreatesPlanned.disk_needed {c : Cmd} (h : CreatesPlanned src c)
    (hc : c.rpc.createsDisk b = true) : b ∈ src.needed ∧ src.isDisk b = true := by
  cases h with
  | disk b' info base _ hb he hcmd =>
    obtain ⟨-, -, -, hname, -⟩ := disk_spec he hcmd
    obtain rfl := (hname b).mp hc
    refine ⟨needed_of_create hb, ?_⟩
    rw [Source.isDisk, he]
    rcases createDiskCmd_cases hcmd with ⟨hp, -⟩ | ⟨hp, -⟩ <;> simp [hp]
  | attach => simp [bdevNvmeAttachControllerCmd, Rpc.createsDisk] at hc

theorem CreatesPlanned.base_needed {c : Cmd} (h : CreatesPlanned src c)
    (hc : c.rpc.attaches g = true) : ∃ b ∈ src.needed, src.baseOf b = some g := by
  cases h with
  | disk b info base _ hb he hcmd =>
    obtain ⟨-, -, hno, -, -⟩ := disk_spec he hcmd
    simp [hno g] at hc
  | attach b info g' trtype adrfam traddr trsvcid subnqn hb he =>
    have hg : g' = g := by simpa [bdevNvmeAttachControllerCmd, Rpc.attaches] using hc
    refine ⟨b, needed_of_create hb, ?_⟩
    rw [Source.baseOf, he, hg]
    rfl

theorem disk_needed {e : Event} (he : e ∈ (finalState (run w answers)).log)
    (hs : e.sends .dst (Rpc.createsDisk b) = true) : b ∈ w.src.needed ∧ w.src.isDisk b = true := by
  obtain ⟨c, hc, -, hp⟩ := sends_iff.mp hs
  exact (run_createsPlanned he hc (kind_createsDisk hp)).disk_needed hp

theorem base_needed {e : Event} (he : e ∈ (finalState (run w answers)).log)
    (hs : e.sends .dst (Rpc.attaches g) = true) :
    ∃ b ∈ w.src.needed, w.src.baseOf b = some g := by
  obtain ⟨c, hc, -, hp⟩ := sends_iff.mp hs
  exact (run_createsPlanned he hc (kind_attaches hp)).base_needed hp

/-- A Null or Malloc disk lies on no NVMe-oF controller. -/
theorem baseOf_of_isDisk (h : src.isDisk b = true) : src.baseOf b = none := by
  obtain ⟨⟨info, base⟩, he, hp⟩ := (Option.any_eq_true _ _).mp h
  have hne : info.productName ≠ "NVMe disk" := by
    intro hd
    simp [hd] at hp
  have hbase : base = none := (entry_spec he).other hne
  rw [Source.baseOf, he, hbase]
  rfl

/-- A run that returns has provided every bdev that is needed. -/
theorem run_provides (hr : Returned (run w answers)) (hb : b ∈ w.src.needed)
    (hs : w.src.supports b = true) :
    ∃ e ∈ (finalState (run w answers)).log, e.sends .dst (w.src.provides b) = true := by
  have hinv := run_returned_creation hr
  obtain ⟨e, he, hd⟩ := hinv.made b (hinv.marked b (create_of_needed hb)) hs
  exact ⟨e, he, does_sends hd⟩

theorem run_creates_disk (hr : Returned (run w answers)) (hb : b ∈ w.src.needed)
    (hd : w.src.isDisk b = true) :
    ∃ e ∈ (finalState (run w answers)).log, e.sends .dst (Rpc.createsDisk b) = true := by
  have hs : w.src.supports b = true := by
    obtain ⟨⟨info, base⟩, he, hp⟩ := (Option.any_eq_true _ _).mp hd
    have hp : info.productName = "Null disk" ∨ info.productName = "Malloc disk" := by
      simpa using hp
    exact supports_of_entry he (List.mem_cons_of_mem _ (by simpa using hp))
  obtain ⟨e, he, hsend⟩ := run_provides hr hb hs
  obtain ⟨c, hc, hsock, hp⟩ := sends_iff.mp hsend
  refine ⟨e, he, sends_iff.mpr ⟨c, hc, hsock, ?_⟩⟩
  simpa [Source.provides, baseOf_of_isDisk hd] using hp

theorem run_attaches_base (hr : Returned (run w answers)) (hb : b ∈ w.src.needed)
    (hg : w.src.baseOf b = some g) :
    ∃ e ∈ (finalState (run w answers)).log, e.sends .dst (Rpc.attaches g) = true := by
  obtain ⟨e, he, hsend⟩ := run_provides hr hb (supports_of_baseOf hg)
  obtain ⟨c, hc, hsock, hp⟩ := sends_iff.mp hsend
  refine ⟨e, he, sends_iff.mpr ⟨c, hc, hsock, ?_⟩⟩
  rcases (Bool.or_eq_true _ _).mp hp with hp | hp
  · have hdisk := (disk_needed he (sends_iff.mpr ⟨c, hc, hsock, hp⟩)).2
    simp [baseOf_of_isDisk hdisk] at hg
  · simpa [hg] using hp

end Planned

/-! ## What a run finds on the destination -/

section Unheld

variable {w : World} {answers : ℕ → Bool} {s : Session} {c : String}

/-- What a run creates it does not find on the destination, if and only if it creates it at most once
and never where the destination has it from the start. -/
theorem always_unheld_iff {X : Destination → Prop} {p : Rpc → Bool}
    (hX : ∀ l, X (w.replay l).dst ↔ X w.dst ∨ ∃ e ∈ l, e.does .dst p = true) (hs : Halted w s) :
    Always (fun pre e => e.sends .dst p = true → ¬X (w.replay pre).dst) s.log ↔
      s.log.countP (Event.sends .dst p) ≤ 1 ∧ (X w.dst → ∀ e ∈ s.log, e.sends .dst p = false) := by
  refine always_new_iff (hs.ok.mono fun pre _ hok => ?_)
  rw [hX]
  refine or_congr_right ⟨?_, ?_⟩
  · rintro ⟨x, hx, hd⟩
    exact ⟨x, hx, does_sends hd⟩
  · rintro ⟨x, hx, hsend⟩
    exact ⟨x, hx, by simp [Event.does, hok x hx, hsend]⟩

/-- A run creates a controller of a kind only for the functions of that kind. -/
theorem ids_of_sends {p : Rpc → Bool} {n : ℕ} {cs : List String}
    (hp : ∀ r, p r = true → r.kind = .controller)
    (hcount : (fixedCmds w.src).countP (Cmd.is .dst p) = n * cs.count c) {e : Event}
    (he : e ∈ (finalState (run w answers)).log) (hs : e.sends .dst p = true) : c ∈ cs := by
  have hpos : 0 < (finalState (run w answers)).log.countP (Event.sends .dst p) :=
    List.countP_pos_iff.mpr ⟨e, he, hs⟩
  have hle : (finalState (run w answers)).log.countP (Event.sends .dst p) ≤
      (fixedCmds w.src).countP (Cmd.is .dst p) := run_countP_le hp
  rw [hcount] at hle
  by_contra hc
  rw [List.count_eq_zero_of_not_mem hc, Nat.mul_zero] at hle
  omega

/-- A run that returns creates the controller of every function, as often as functions have it. -/
theorem run_creates {p : Rpc → Bool} {cs : List String}
    (hp : ∀ r, p r = true → r.kind = .controller)
    (hcount : (fixedCmds w.src).countP (Cmd.is .dst p) = 1 * cs.count c)
    (hr : Returned (run w answers)) :
    (finalState (run w answers)).log.countP (Event.sends .dst p) = cs.count c := by
  obtain ⟨-, hl⟩ := run_returned_controllers hr
  rw [countP_sends hp, hl, hcount, Nat.one_mul]

/-- The controllers of a kind: no run finds one on the destination that it creates, if the functions
have distinct ones and the destination has none of them; and only then, if the run returns. -/
theorem unheld_controllers (w : World) (answers : ℕ → Bool) {p : String → Rpc → Bool}
    {X : String → Destination → Prop} {n : String → ℕ} {cs : List String} (hn : ∀ c, n c ≤ 1)
    (hp : ∀ c r, p c r = true → r.kind = .controller)
    (hcount : ∀ c, (fixedCmds w.src).countP (Cmd.is .dst (p c)) = n c * cs.count c)
    (hX : ∀ c l, X c (w.replay l).dst ↔ X c w.dst ∨ ∃ e ∈ l, e.does .dst (p c) = true) :
    (cs.Nodup → (∀ c ∈ cs, ¬X c w.dst) → ∀ c, Always (fun pre e => e.sends .dst (p c) = true →
      ¬X c (w.replay pre).dst) (finalState (run w answers)).log) ∧
    (Returned (run w answers) → (∀ c ∈ cs, n c = 1) →
      (∀ c, Always (fun pre e => e.sends .dst (p c) = true → ¬X c (w.replay pre).dst)
        (finalState (run w answers)).log) → cs.Nodup ∧ ∀ c ∈ cs, ¬X c w.dst) := by
  have hhalted := (run_controllers w answers).1
  constructor
  · intro hnodup hfree c
    refine (always_unheld_iff (hX c) hhalted).mpr ⟨?_, fun hheld e he => ?_⟩
    · refine Nat.le_trans (run_countP_le (hp c)) ?_
      rw [hcount c]
      exact Nat.mul_le_mul (hn c) (List.nodup_iff_count_le_one.mp hnodup c)
    · by_contra hs
      exact hfree c (ids_of_sends (hp c) (hcount c) he (by simpa using hs)) hheld
  · intro hr hone hall
    have hexact (c : String) (hc : c ∈ cs) : (finalState (run w answers)).log.countP
        (Event.sends .dst (p c)) = cs.count c :=
      run_creates (hp c) (by rw [hcount c, hone c hc]) hr
    refine ⟨List.nodup_iff_count_le_one.mpr fun c => ?_, fun c hc hheld => ?_⟩
    · by_cases hc : c ∈ cs
      · rw [← hexact c hc]
        exact ((always_unheld_iff (hX c) hhalted).mp (hall c)).1
      · rw [List.count_eq_zero_of_not_mem hc]
        omega
    · have hno := ((always_unheld_iff (hX c) hhalted).mp (hall c)).2 hheld
      have hzero : (finalState (run w answers)).log.countP (Event.sends .dst (p c)) = 0 :=
        List.countP_eq_zero.mpr fun e he => by simp [hno e he]
      rw [hexact c hc] at hzero
      exact absurd hc (List.count_eq_zero.mp hzero)

theorem listed_eq_one {α : Type} {d : Dict String α} {c : String} {a : α} (h : d.lookup c = some a) :
    listed d c = 1 := by
  simp [listed, h]

/-- A run creates only what the destination does not hold, if it starts from a restartable state; and
only then, if it returns. -/
theorem createsUnheld_iff (w : World) (answers : ℕ → Bool) :
    (w.Restartable → Always (CreatesUnheld w) (finalState (run w answers)).log) ∧
    (Returned (run w answers) →
      (Always (CreatesUnheld w) (finalState (run w answers)).log ↔ w.Restartable)) := by
  have hvblk := unheld_controllers w answers (p := Rpc.createsVblk)
    (X := fun c d => c ∈ d.vblkCtrls) (listed_le_one (managerOf w.src).vblkCtrlDict)
    (fun c r h => kind_controller (c := c) (by simp [h])) (fun c => count_vblk_create)
    fun c l => mem_dst_vblkCtrls w l c
  have hnvme := unheld_controllers w answers (p := Rpc.createsNvme)
    (X := fun c d => c ∈ d.nvmeCtrls.map PassiveCtrl.ctrlId)
    (listed_le_one (managerOf w.src).nvmeCtrlDict)
    (fun c r h => kind_controller (c := c) (by simp [h])) (fun c => count_nvme_create)
    fun c l => mem_dst_nvmeIds w l c
  have hhalted := (run_controllers w answers).1
  have hdisk (b : String) := always_unheld_iff (X := fun d => b ∈ d.bdevs)
    (fun l => mem_dst_bdevs w l b) hhalted
  have hbase (g : String) := always_unheld_iff (X := fun d => g ∈ d.nvmfCtrls)
    (fun l => mem_dst_nvmfCtrls w l g) hhalted
  obtain ⟨honceDisk, honceBase, -, hnew⟩ := creates_once w answers
  have hsound : w.Restartable → Always (CreatesUnheld w) (finalState (run w answers)).log := by
    intro h pre e post hl
    have he : e ∈ (finalState (run w answers)).log := by simp [hl]
    refine ⟨fun b => ?_, fun g => ?_, (hnew pre e post hl).1, (hnew pre e post hl).2, fun c => ?_,
      fun c => ?_⟩
    · refine (hdisk b).mpr ⟨honceDisk b, fun hheld x hx => ?_⟩ pre e post hl
      by_contra hs
      obtain ⟨hb, hd⟩ := disk_needed hx (by simpa using hs)
      exact h.disks b hb hd hheld
    · refine (hbase g).mpr ⟨honceBase g, fun hheld x hx => ?_⟩ pre e post hl
      by_contra hs
      obtain ⟨b, hb, hg⟩ := base_needed hx (by simpa using hs)
      exact h.bases b hb g hg hheld
    · exact hvblk.1 h.vblkIds h.vblk c pre e post hl
    · exact hnvme.1 h.nvmeIds h.nvme c pre e post hl
  refine ⟨hsound, fun hr => ⟨fun h => ?_, hsound⟩⟩
  obtain ⟨hvids, hvfree⟩ := hvblk.2 hr
    (fun c hc => (vblk_listed hr hc).elim fun _ hl => listed_eq_one hl)
    fun c => h.mono fun pre e hu => hu.vblk c
  obtain ⟨hnids, hnfree⟩ := hnvme.2 hr
    (fun c hc => (nvme_listed hr hc).elim fun _ hl => listed_eq_one hl)
    fun c => h.mono fun pre e hu => hu.nvme c
  refine ⟨hvids, hnids, hvfree, hnfree, fun b hb hd hheld => ?_, fun b hb g hg hheld => ?_⟩
  · obtain ⟨e, he, hs⟩ := run_creates_disk hr hb hd
    have hno := ((hdisk b).mp (h.mono fun pre e hu => hu.disk b)).2 hheld e he
    rw [hs] at hno
    cases hno
  · obtain ⟨e, he, hs⟩ := run_attaches_base hr hb hg
    have hno := ((hbase g).mp (h.mono fun pre e hu => hu.base g)).2 hheld e he
    rw [hs] at hno
    cases hno

/-- A second run after one that went as far as it did creates only what the destination does not hold,
if the destination has nothing that the remaining functions need; and only then, if the second run
returns. -/
theorem second_run_creates_unheld (w : World) (answers answers' : ℕ → Bool) :
    ((finalState (run w answers)).world.Restartable →
      Always (CreatesUnheld (finalState (run w answers)).world)
        (finalState (run (finalState (run w answers)).world answers')).log) ∧
    (Returned (run (finalState (run w answers)).world answers') →
      (Always (CreatesUnheld (finalState (run w answers)).world)
        (finalState (run (finalState (run w answers)).world answers')).log ↔
          (finalState (run w answers)).world.Restartable)) :=
  createsUnheld_iff _ answers'

/-- The first run fails right after it has created the only bdev, and the second one creates the bdev
again. -/
theorem oneVblk_created_again :
    (finalState (run ⟨.oneVblk, .fresh⟩ fun n => n ≠ 10)).log.getLast?.map Event.ok = some false ∧
    ¬Always (fun pre e => e.sends .dst (Rpc.createsDisk "n0") = true →
      "n0" ∉ ((finalState (run ⟨.oneVblk, .fresh⟩ fun n => n ≠ 10)).world.replay pre).dst.bdevs)
      (finalState (run (finalState (run ⟨.oneVblk, .fresh⟩ fun n => n ≠ 10)).world
        fun _ => true)).log := by
  decide +kernel

end Unheld

end DcPerf.LiveUpdate
