import DcPerf.LiveUpdate.Proofs.HandoverRuns
import DcPerf.LiveUpdate.Proofs.Release

/-!
# The source is released completely

For a source without leftovers the counts of the manager are exact: a bdev has as many users as
`main` takes off it, and an NVMe-oF controller as many bdevs as it counts. A run that returns
therefore deletes each bdev that has a user, and detaches each NVMe-oF controller all of whose bdevs
have one, exactly once, with the last user.
-/

namespace DcPerf.LiveUpdate

open DcPerf.Library

/-! ## The users are counted exactly -/

section Users

variable {src : Source}

/-- The functions give up the controllers that they have, in another order. -/
theorem removed_perm {emulationType : String} (h : src.WellNumbered emulationType) :
    (src.removed emulationType).Perm (src.ids emulationType) := by
  refine List.Perm.flatMap_left _ fun pf hpf => ?_
  obtain ⟨hself, hvfs⟩ := h pf hpf
  have hown : pf.toFunc.early = [] := by simp [Func.early, hself]
  have hrest : pf.vfs.flatMap Func.early = pf.vfs.flatMap fun vf => vf.ctrlId.toList := by
    refine List.flatMap_congr fun vf hvf => ?_
    rw [Func.early, if_pos (hvfs vf hvf)]
  rw [PhysFunc.removed, hown, hrest, List.nil_append]
  exact List.perm_append_comm

theorem countP_vblkRemoval {b : String} (hb : b ≠ "none") (ids : List String) :
    (ids.flatMap src.vblkRemoval).countP (fun x => x.2 = some b) =
      ids.countP fun c => (src.vblkCtrl? c).any fun ctrl => ctrl.bdev = b := by
  induction ids with
  | nil => rfl
  | cons c ids ih =>
    rw [List.flatMap_cons, List.countP_append, ih, List.countP_cons, Source.vblkRemoval]
    cases src.vblkCtrl? c with
    | none => simp
    | some ctrl =>
      by_cases hc : ctrl.bdev = b
      · have hne : ctrl.bdev ≠ "none" := fun h => hb (hc.symm.trans h)
        simp [hc, hb]
        omega
      · have hb' : ¬"none" = b := fun h => hb h.symm
        by_cases hn : ctrl.bdev = "none" <;> simp [hc, hn, hb']

theorem countP_nvmeRemoval (b : String) (ids : List String) :
    (ids.flatMap src.nvmeRemoval).countP (fun x => x.2 = some b) =
      (ids.flatMap fun c => (src.nvmeCtrl? c).toList.flatMap fun ctrl =>
        ctrl.namespaces.map (CtrlNs.within · ctrl.nqn)).countP fun ns => ns.bdev = b := by
  induction ids with
  | nil => rfl
  | cons c ids ih =>
    rw [List.flatMap_cons, List.flatMap_cons, List.countP_append, List.countP_append, ih,
      Source.nvmeRemoval]
    cases src.nvmeCtrl? c with
    | none => rfl
    | some ctrl =>
      have hone : (ctrl.namespaces.map fun n => (User.ns c n.nsid, some n.bdev)).countP
          (fun x => x.2 = some b) =
          (ctrl.namespaces.map (CtrlNs.within · ctrl.nqn)).countP fun ns => ns.bdev = b := by
        rw [List.countP_map, List.countP_map]
        refine List.countP_congr fun n _ => ?_
        simp [CtrlNs.within]
      simpa using hone

/-- `main` takes as many users off a bdev as the manager counts. -/
theorem Source.Tidy.removalsOf_length (h : src.Tidy) {b : String} (hb : b ≠ "none") :
    (src.removalsOf b).length = src.usersOf b := by
  have hvblk : ((src.removed "VBLK").flatMap src.vblkRemoval).countP (fun x => x.2 = some b) =
      (managerOf src).vblkCtrlDict.countValues fun ctrl => ctrl.bdev = b := by
    rw [((removed_perm h.vblkNumbered).flatMap_right _).countP_eq, countP_vblkRemoval hb]
    refine (Dict.countValues_eq _ _ h.vblkIds fun c hc => ?_).symm
    obtain ⟨ctrl, hctrl⟩ := Option.isSome_iff_exists.mp hc
    obtain ⟨k, hk, rfl, -⟩ := Dict.exists_of_lookup_ofList hctrl
    exact h.vblk k hk
  have hnvme : ((src.removed "NVME").flatMap src.nvmeRemoval).countP (fun x => x.2 = some b) =
      src.namespaces.countP fun ns => ns.bdev = b := by
    rw [((removed_perm h.nvmeNumbered).flatMap_right _).countP_eq, countP_nvmeRemoval]
    exact h.nvme.countP_eq _
  rw [Source.removalsOf, List.length_map, ← List.countP_eq_length_filter, Source.removals,
    List.countP_append, hvblk, hnvme, Source.usersOf]
  omega

end Users

/-! ## The NVMe-oF controllers know their sizes -/

section Sizes

/-- A bdev that matches one NVMe-oF controller is counted by the one that it is entered under. -/
theorem hits_of_one {bdev : Bdev} {ctrls : List NvmfCtrl}
    (h : bdev.productName = "NVMe disk" → ctrls.countP (fun c => bdev.trid = c.trid) = 1)
    (g : String) : hits ctrls g bdev =
      if (entryOf ctrls bdev).any (fun e => e.base = some g) = true then 1 else 0 := by
  unfold hits entryOf
  split
  · rename_i hp
    have hlen := h hp
    rw [List.countP_eq_length_filter] at hlen
    obtain ⟨c, hc⟩ := List.length_eq_one_iff.mp hlen
    have hbase : baseCtrl ctrls bdev = some c := by
      rw [baseCtrl, ← List.head?_filter, List.filter_reverse, hc]
      rfl
    have hcount : ctrls.countP (fun ctrl => decide (bdev.trid = ctrl.trid ∧ ctrl.name = g)) =
        [c].countP fun ctrl => ctrl.name = g := by
      rw [← hc, List.countP_filter]
      refine List.countP_congr fun ctrl _ => ?_
      simp [and_comm]
    rw [hcount, hbase]
    simp [List.countP_cons]
  · simp

/-- With distinct names and one NVMe-oF controller for each NVMe disk, the NVMe-oF controllers count
their bdevs. -/
theorem owned_eq_size {ctrls : List NvmfCtrl} {bdevs : List Bdev}
    (hn : (bdevs.map Bdev.name).Nodup) (h : ∀ x ∈ bdevs, x.productName = "NVMe disk" →
      ctrls.countP (fun c => x.trid = c.trid) = 1) (g : String) :
    ((owned (bdevInfo bdevs ctrls).1 g).card : ℤ) = sizeIn (bdevInfo bdevs ctrls).2 g := by
  have hsum := Dict.sum_eq_countP fun x hx => hits_of_one (h x hx) g
  rw [← bdevInfo_countValues hn, ← owned_card] at hsum
  rw [sizeIn_eq]
  split
  · rw [hsum]
  · rename_i hg
    simp [owned_eq_empty hg]

/-- Each NVMe-oF controller has as many bdevs as it counts. -/
theorem Source.Tidy.size_eq {src : Source} (h : src.Tidy) (g : String) :
    src.pool.size g = (src.pool.members g).card := by
  have howned := owned_eq_size h.names h.base g
  have hmembers : src.pool.members g = owned (memoryOf src).bdevDict g := by
    refine Finset.filter_congr fun b _ => ?_
    show src.baseOf b = some g ↔ _
    rw [Source.baseOf, Source.entry]
    cases (memoryOf src).bdevDict.lookup b <;> simp
  have hsize : src.pool.size g = (sizeIn (bdevInfo src.bdevs src.nvmfCtrls).2 g).toNat := rfl
  rw [hmembers, memoryOf_owned, hsize, ← howned]
  rfl

/-- Every bdev of the manager is a listed one. -/
theorem Source.Tidy.object_ne {src : Source} (h : src.Tidy) {b : String}
    (hb : b ∈ src.pool.objects) : b ≠ "none" := by
  rintro rfl
  have hlook : ((memoryOf src).bdevDict.lookup "none").isSome = true :=
    AList.lookup_isSome.mpr (AList.mem_keys.mpr (List.mem_toFinset.mp hb))
  rw [memoryOf_lookup, Option.isSome_map] at hlook
  exact h.noDummy (bdevInfo_mem hlook)

end Sizes

/-! ## How often a deletion is sent -/

section Counting

variable {src : Source} {w : World} {answers : ℕ → Bool} {b g : String}

theorem is_of_kind {q : Rpc → Bool} (hq : ∀ r, q r = true → r.kind = .bdevDelete) {c : Cmd}
    (hc : c.rpc.kind = .controller) : Cmd.is .src q c = false := by
  have hnot : q c.rpc = false := by
    by_contra h
    have hk := hq c.rpc (by simpa using h)
    simp [hc] at hk
  simp [Cmd.is, hnot]

theorem deletesDisk_kind {r : Rpc} (h : r.deletesDisk b = true) : r.kind = .bdevDelete := by
  cases r <;> simp_all [Rpc.deletesDisk, Rpc.kind]

theorem detaches_kind {r : Rpc} (h : r.detaches g = true) : r.kind = .bdevDelete := by
  cases r <;> simp_all [Rpc.detaches, Rpc.kind]

/-- The deletions of a walk are counted as they become due. -/
theorem countP_walk {q : Rpc → Bool} (hq : ∀ r, q r = true → r.kind = .bdevDelete)
    (due : List String → Bool) (h0 : due [] = false)
    (hstep : ∀ l b, (deletions src l b).countP (Cmd.is .src q) + (due l).toNat =
      (due (l ++ [b])).toNat)
    {done : List Action} (hdone : ∀ a ∈ done, a ∈ plan (managerOf src)) :
    (walk (removalCmds src) done).countP (Cmd.is .src q) = (due (dropped done)).toNat := by
  induction done using List.reverseRecOn with
  | nil => simp [dropped, h0]
  | append_singleton done a ih =>
    have hprev := ih fun x hx => hdone x (List.mem_append_left _ hx)
    have hfixed : a.fixed.toList.countP (Cmd.is .src q) = 0 := by
      refine List.countP_eq_zero.mpr fun c hc => ?_
      simp [is_of_kind hq (fixed_kind (hdone a (by simp)) (Option.mem_toList.mp hc))]
    rw [walk_snoc, List.countP_append, hprev, removalCmds, List.countP_append, hfixed, dropped_snoc]
    cases hd : a.drops with
    | none => simp
    | some b =>
      have hb := hstep (dropped done) b
      simp only [Option.toList_some, List.flatMap_singleton]
      omega

theorem countP_deletesDisk {info : Bdev} {base : Option String}
    (he : src.entry b = some (info, base))
    (hp : info.productName = "Null disk" ∨ info.productName = "Malloc disk")
    (l : List String) (b' : String) :
    (deletions src l b').countP (Cmd.is .src (Rpc.deletesDisk b)) +
        (decide (src.pool.Drained l b)).toNat = (decide (src.pool.Drained (l ++ [b']) b)).toNat := by
  have hname := (entry_spec he).name
  have hsnoc : src.pool.Drained (l ++ [b']) b ↔
      src.pool.Drained l b ∨ b = b' ∧ src.pool.Frees l b' := Pool.drained_snoc_iff
  by_cases h : b = b' ∧ src.pool.Frees l b'
  · obtain ⟨rfl, hf⟩ := h
    have hone : (deletions src l b).countP (Cmd.is .src (Rpc.deletesDisk b)) = 1 := by
      rcases hp with hp | hp
      · simp [deletions, hf, he, hp, destroyDiskCmd, Cmd.is, bdevNullDeleteCmd, Rpc.deletesDisk,
          hname]
      · simp [deletions, hf, he, hp, destroyDiskCmd, Cmd.is, bdevMallocDeleteCmd, Rpc.deletesDisk,
          hname]
    rw [hone, decide_eq_false (Pool.not_drained_of_frees hf),
      decide_eq_true (hsnoc.mpr (.inr ⟨rfl, hf⟩))]
    rfl
  · have hzero : (deletions src l b').countP (Cmd.is .src (Rpc.deletesDisk b)) = 0 := by
      refine List.countP_eq_zero.mpr fun c hc his => ?_
      have hd : c.rpc.deletesDisk b = true := ((Bool.and_eq_true _ _).mp his).2
      obtain ⟨hf, ⟨g, rfl, -⟩ | ⟨info', hname', hdisk⟩⟩ := mem_deletions hc
      · simp [bdevNvmeDetachControllerCmd, Rpc.deletesDisk] at hd
      · exact h ⟨(destroyDiskCmd_name hdisk hd).symm.trans hname', hf⟩
    have hsame : src.pool.Drained (l ++ [b']) b ↔ src.pool.Drained l b := by
      rw [hsnoc]
      constructor
      · rintro (hd | hd)
        · exact hd
        · exact absurd hd h
      · exact .inl
    rw [hzero, Nat.zero_add]
    simp only [hsame]

theorem destroyDiskCmd_not_detaches {info : Bdev} {cmd : Cmd} (h : destroyDiskCmd info = some cmd)
    (g : String) : cmd.rpc.detaches g = false := by
  unfold destroyDiskCmd at h
  split at h
  · rw [← Option.some.inj h]
    rfl
  · split at h
    · rw [← Option.some.inj h]
      rfl
    · simp at h

theorem countP_detaches (g : String) (l : List String) (b : String) :
    (deletions src l b).countP (Cmd.is .src (Rpc.detaches g)) +
        (decide (src.pool.Freed l g)).toNat = (decide (src.pool.Freed (l ++ [b]) g)).toNat := by
  have hsnoc := Pool.freed_snoc_iff (p := src.pool) (l := l) (b := b) (g := g)
  by_cases h : src.pool.FreesGroup l b g
  · have hbase : src.baseOf b = some g := h.2.1
    obtain ⟨⟨info, base⟩, he, hb⟩ := Option.bind_eq_some_iff.mp hbase
    obtain rfl : base = some g := hb
    have hp : info.productName = "NVMe disk" := by
      by_contra hp
      have hnone := (entry_spec he).other hp
      simp at hnone
    have hone : (deletions src l b).countP (Cmd.is .src (Rpc.detaches g)) = 1 := by
      simp [deletions, h.1, he, hp, h, Cmd.is, bdevNvmeDetachControllerCmd, Rpc.detaches]
    rw [hone, decide_eq_false (Pool.not_freed_of_freesGroup h), decide_eq_true (hsnoc.mpr (.inr h))]
    rfl
  · have hzero : (deletions src l b).countP (Cmd.is .src (Rpc.detaches g)) = 0 := by
      refine List.countP_eq_zero.mpr fun c hc his => ?_
      have hd : c.rpc.detaches g = true := ((Bool.and_eq_true _ _).mp his).2
      obtain ⟨hf, ⟨g', rfl, hgroup⟩ | ⟨info, hname, hdisk⟩⟩ := mem_deletions hc
      · obtain rfl : g' = g := by simpa [bdevNvmeDetachControllerCmd, Rpc.detaches] using hd
        exact h hgroup
      · simp [destroyDiskCmd_not_detaches hdisk g] at hd
    have hsame : src.pool.Freed (l ++ [b]) g ↔ src.pool.Freed l g := by
      rw [hsnoc]
      constructor
      · rintro (hd | hd)
        · exact hd
        · exact absurd hd h
      · exact .inl
    rw [hzero, Nat.zero_add]
    simp only [hsame]

/-- The deletions in the log of a run that returns are those of the walk. -/
theorem run_countP_deletions {q : Rpc → Bool} (hq : ∀ r, q r = true → r.kind = .bdevDelete)
    (hr : Returned (run w answers)) :
    (finalState (run w answers)).log.countP (Event.sends .src q) =
      (walk (removalCmds w.src) (planOf w.src)).countP (Cmd.is .src q) := by
  rw [← (run_returned_removals hr).2, List.countP_filterMap]
  refine List.countP_congr fun e _ => ?_
  rw [sends_iff]
  constructor
  · rintro ⟨c, hc, hk, hp⟩
    simp [Event.removalCmd?, hc, hq c.rpc hp, Cmd.is, hk, hp, Option.filter]
  · intro h
    cases hc : e.cmd? with
    | none => simp [Event.removalCmd?, hc] at h
    | some c =>
      refine ⟨c, rfl, ?_⟩
      by_cases hk : c.rpc.kind = .controller ∨ c.rpc.kind = .bdevDelete
      · simpa [Event.removalCmd?, hc, hk, Cmd.is, Option.filter] using h
      · simp [Event.removalCmd?, hc, hk, Option.filter] at h

end Counting

/-! ## The last user -/

/-- A deletion comes right after the removal of a user. -/
def AfterRemoval (pre : List Event) (e : Event) : Prop :=
  ∀ c ∈ e.cmd?, c.rpc.kind = .bdevDelete → (pre.getLast?.bind Event.removes).isSome = true

section Last

variable {src : Source} {w : World} {answers : ℕ → Bool} {s : Session} {done : List Action}
  {pre post : List Event} {e : Event} {c cmd : Cmd} {b : String}

theorem afterRemoval_of_kind (h : ∀ c ∈ e.cmd?, c.rpc.kind ≠ .bdevDelete) : AfterRemoval pre e :=
  fun c hc hk => absurd hk (h c hc)

theorem perform_afterRemoval {a : Action} (ha : a ∈ plan (managerOf w.src))
    (h : Always AfterRemoval s.log) :
    wp (perform (managerOf w.src) a) (fun _ s' => Always AfterRemoval s'.log)
      (fun _ s' => Always AfterRemoval s'.log) s := by
  by_cases hd : a.drops = none
  · have hk : ∀ c, a.Sends c → c.rpc.kind ≠ .bdevDelete := by
      intro c hc
      rcases sendsKind ha hc with ⟨b, -, -, hk⟩ | ⟨c', b, hb, -, -⟩ | ⟨nqn, -, hk⟩ |
        ⟨ctrl, n, -, hk⟩ | ⟨-, hk⟩
      · simp [hk]
      · simp [hb, Action.drops] at hd
      · simp [hk]
      · simp [hk]
      · simp [hk]
    exact perform_always _ h fun pre e he => afterRemoval_of_kind fun c hc => hk c (he c hc)
  · obtain ⟨b, hb⟩ := Option.ne_none_iff_exists'.mp hd
    obtain ⟨c, rfl⟩ := drops_eq_some.mp hb
    obtain ⟨u, hu, -⟩ := removal_release ha
    have hk := fixed_kind ha (c := c) rfl
    have hsent (ok : Bool) : Always AfterRemoval (s.log ++ [.sent c ok]) := by
      refine always_snoc.mpr ⟨h, afterRemoval_of_kind fun c' hc' => ?_⟩
      obtain rfl : c = c' := Option.some.inj hc'
      simp [hk]
    have hdel (c' : Cmd) (ok : Bool) :
        Always AfterRemoval (s.log ++ [.sent c true] ++ [.sent c' ok]) := by
      refine always_snoc.mpr ⟨hsent true, fun c'' _ _ => ?_⟩
      simp [Event.removes, Event.cmd?, hu]
    refine wp_bind.mpr (wp_sendRpc.mpr ⟨fun _ => ?_, fun _ => hsent false⟩)
    refine wp_mono (wp_destroyBdev b (s.sent c)) ?_ ?_
    · intro _ s' hdes
      rcases hdes.log with hl | ⟨c', -, hl⟩
      · rw [hl]
        exact hsent true
      · rw [hl]
        exact hdel c' true
    · intro _ s' hdes
      rcases hdes.log with hl | ⟨c', -, hl⟩
      · rw [hl]
        exact hsent true
      · rw [hl]
        exact hdel c' false

theorem run_afterRemoval (w : World) (answers : ℕ → Bool) :
    Always AfterRemoval (finalState (run w answers)).log := by
  refine (run_always w answers (fun pre e he c hc => ?_) fun a ha s _ h =>
    perform_afterRemoval ha h).2
  simp [he] at hc

theorem filterMap_removes (l : List Event) : l.filterMap Event.removes =
    (l.filterMap Event.controllerCmd?).filterMap fun c => c.rpc.removes := by
  rw [List.filterMap_filterMap]
  refine List.filterMap_congr fun e _ => ?_
  cases hc : e.cmd? with
  | none => simp [Event.removes, Event.controllerCmd?, hc]
  | some c =>
    by_cases hk : c.rpc.kind = .controller
    · simp [Event.removes, Event.controllerCmd?, hc, hk, Option.filter]
    · have hnone : c.rpc.removes = none := by
        cases hr : c.rpc <;> simp_all [Rpc.removes, Rpc.kind]
      simp [Event.removes, Event.controllerCmd?, hc, hk, hnone, Option.filter]

theorem filterMap_fixed_removes (l : List Action) :
    ((l.filterMap Action.fixed).filterMap fun c => c.rpc.removes) =
      (l.filterMap Action.removal).map Prod.fst := by
  rw [List.filterMap_filterMap, List.map_filterMap]
  refine List.filterMap_congr fun a _ => ?_
  cases hf : a.fixed with
  | none => simp [Action.removal, hf]
  | some c => cases hr : c.rpc.removes <;> simp [Action.removal, hf, hr]

/-- A deletion at whose point no user of the bdevs in `B` is left comes with the last of them. -/
theorem lastRemoval_of_point {B : String → Prop} {rest : List Action}
    (hlog : (finalState (run w answers)).log = pre ++ e :: post) (hc : e.cmd? = some cmd)
    (hk : cmd.rpc.kind = .bdevDelete) (hpoint : DeletionPoint w.src pre cmd done c b)
    (hplan : planOf w.src = done ++ .release c b :: rest) (hb : B b)
    (hrest : ∀ b', B b' → b' ∉ dropped rest) : w.src.LastRemoval B pre := by
  have hmem : Action.release c b ∈ plan (managerOf w.src) := by
    show Action.release c b ∈ planOf w.src
    simp [hplan]
  have hmemr : ∀ a ∈ rest, a ∈ plan (managerOf w.src) := by
    intro a ha
    show a ∈ planOf w.src
    simp [hplan, ha]
  obtain ⟨u, hu, hrem⟩ := removal_release hmem
  have hsent : pre.filterMap Event.removes = (done.filterMap Action.removal).map Prod.fst ++ [u] := by
    rw [filterMap_removes, hpoint.sent, filterMap_fixed_removes, List.filterMap_append,
      List.map_append, List.filterMap_cons_some hrem]
    rfl
  refine ⟨done.filterMap Action.removal, u, b, rest.filterMap Action.removal, ?_, hb, ?_, hsent, ?_⟩
  · rw [← plan_removals, hplan, List.filterMap_append, List.filterMap_cons_some hrem]
  · intro x hx b' hxb hB
    refine hrest b' hB ?_
    rw [dropped_eq hmemr]
    exact List.mem_filterMap.mpr ⟨x, hx, hxb⟩
  · have hlast := run_afterRemoval w answers pre e post hlog cmd hc hk
    obtain ⟨u', hu'⟩ := Option.isSome_iff_exists.mp hlast
    obtain ⟨x, hx, hxu⟩ := Option.bind_eq_some_iff.mp hu'
    obtain ⟨pre', rfl⟩ : ∃ pre', pre = pre' ++ [x] := List.getLast?_eq_some_iff.mp hx
    rw [List.filterMap_append, List.filterMap_cons_some hxu, List.filterMap_nil] at hsent
    obtain ⟨-, rfl⟩ := List.append_singleton_inj.mp hsent
    exact hu'

end Last

/-! ## Complete release -/

section Release

variable {w : World} {answers : ℕ → Bool} {b g : String}

theorem Source.Tidy.count_eq {src : Source} (h : src.Tidy) {b : String}
    (hb : b ∈ src.pool.objects) : (dropped (planOf src)).count b = src.pool.count b := by
  rw [count_dropped, h.removalsOf_length (h.object_ne hb)]
  rfl

theorem dropped_split {src : Source} {done rest : List Action} {c : Cmd}
    (h : planOf src = done ++ .release c b :: rest) :
    dropped (planOf src) = dropped done ++ b :: dropped rest := by
  rw [h, dropped, List.filterMap_append]
  rfl

/-- A deletion of a bdev is one that its count calls for, after its last user. -/
theorem deletesDisk_last (h : w.src.Tidy) {pre post : List Event} {e : Event}
    (hlog : (finalState (run w answers)).log = pre ++ e :: post)
    (he : e.sends .src (Rpc.deletesDisk b) = true) : w.src.LastRemoval (· = b) pre := by
  obtain ⟨cmd, hcmd, -, hd⟩ := sends_iff.mp he
  have hk := deletesDisk_kind hd
  obtain ⟨done, c, b', hpoint⟩ := deletion_point hlog hcmd hk
  obtain ⟨rest, hplan⟩ := hpoint.plan
  obtain ⟨hf, ⟨g, rfl, -⟩ | ⟨info, hname, hdisk⟩⟩ := mem_deletions hpoint.deletion
  · simp [bdevNvmeDetachControllerCmd, Rpc.deletesDisk] at hd
  · have hbb : b' = b := hname.symm.trans (destroyDiskCmd_name hdisk hd)
    subst hbb
    refine lastRemoval_of_point hlog hcmd hk hpoint hplan rfl fun b'' hb'' => ?_
    subst hb''
    have hobj : b'' ∈ w.src.pool.objects := by
      have hdel := hpoint.deletion
      unfold deletions at hdel
      rw [if_pos hf] at hdel
      obtain ⟨x, hx, -⟩ := List.mem_flatMap.mp hdel
      exact object_iff.mpr (by rw [Option.mem_toList.mp hx]; rfl)
    exact Pool.not_mem_of_frees (dropped_split hplan) (h.count_eq hobj) hf

theorem detaches_point {pre post : List Event} {e : Event}
    (hlog : (finalState (run w answers)).log = pre ++ e :: post)
    (he : e.sends .src (Rpc.detaches g) = true) : ∃ cmd done c b rest, e.cmd? = some cmd ∧
      cmd.rpc.kind = .bdevDelete ∧ DeletionPoint w.src pre cmd done c b ∧
      planOf w.src = done ++ .release c b :: rest ∧ w.src.pool.FreesGroup (dropped done) b g := by
  obtain ⟨cmd, hcmd, -, hd⟩ := sends_iff.mp he
  have hk := detaches_kind hd
  obtain ⟨done, c, b, hpoint⟩ := deletion_point hlog hcmd hk
  obtain ⟨rest, hplan⟩ := hpoint.plan
  obtain ⟨hf, ⟨g', rfl, hgroup⟩ | ⟨info, hname, hdisk⟩⟩ := mem_deletions hpoint.deletion
  · obtain rfl : g' = g := by simpa [bdevNvmeDetachControllerCmd, Rpc.detaches] using hd
    exact ⟨_, done, c, b, rest, hcmd, hk, hpoint, hplan, hgroup⟩
  · simp [destroyDiskCmd_not_detaches hdisk g] at hd

theorem detaches_last (h : w.src.Tidy) {pre post : List Event} {e : Event}
    (hlog : (finalState (run w answers)).log = pre ++ e :: post)
    (he : e.sends .src (Rpc.detaches g) = true) :
    w.src.LastRemoval (fun b => w.src.baseOf b = some g) pre := by
  obtain ⟨cmd, done, c, b, rest, hcmd, hk, hpoint, hplan, hgroup⟩ := detaches_point hlog he
  refine lastRemoval_of_point hlog hcmd hk hpoint hplan hgroup.2.1 fun b' hb' => ?_
  refine Pool.not_mem_of_freesGroup (dropped_split hplan) (fun b'' hb'' => ?_) hgroup b'
    (Pool.mem_members.mpr hb')
  exact h.count_eq (w.src.pool.grouped b'' g (Pool.mem_members.mp hb''))

theorem deletesDisk_used {pre post : List Event} {e : Event}
    (hlog : (finalState (run w answers)).log = pre ++ e :: post)
    (he : e.sends .src (Rpc.deletesDisk b) = true) : 0 < w.src.usersOf b := by
  obtain ⟨cmd, hcmd, -, hd⟩ := sends_iff.mp he
  obtain ⟨done, c, b', hpoint⟩ := deletion_point hlog hcmd (deletesDisk_kind hd)
  obtain ⟨hf, ⟨g, rfl, -⟩ | ⟨info, hname, hdisk⟩⟩ := mem_deletions hpoint.deletion
  · simp [bdevNvmeDetachControllerCmd, Rpc.deletesDisk] at hd
  · have hbb : b' = b := hname.symm.trans (destroyDiskCmd_name hdisk hd)
    subst hbb
    have hcount : (dropped done).count b' + 1 = w.src.usersOf b' := hf
    omega

theorem detaches_used {pre post : List Event} {e : Event}
    (hlog : (finalState (run w answers)).log = pre ++ e :: post)
    (he : e.sends .src (Rpc.detaches g) = true) : (∃ b, w.src.baseOf b = some g) ∧
      ∀ b, w.src.baseOf b = some g → 0 < w.src.usersOf b := by
  obtain ⟨cmd, done, c, b, rest, -, -, -, -, hgroup⟩ := detaches_point hlog he
  refine ⟨⟨b, hgroup.2.1⟩, fun b' hb' => ?_⟩
  exact (Pool.drained_of_freesGroup hgroup (Pool.mem_members.mpr hb')).1

theorem countP_eq_zero_of_split {p : Event → Bool} {l : List Event}
    (h : ∀ pre e post, l = pre ++ e :: post → p e = true → False) : l.countP p = 0 := by
  refine List.countP_eq_zero.mpr fun e he hp => ?_
  obtain ⟨pre, post, rfl⟩ := List.append_of_mem he
  exact h pre e post rfl hp

/-- At the end of the plan a bdev with users has lost all of them. -/
theorem drained_plan {src : Source} (ht : src.Tidy) {b : String} (hb : b ∈ src.pool.objects)
    (hu : 0 < src.usersOf b) : src.pool.Drained (dropped (planOf src)) b :=
  ⟨hu, (ht.count_eq hb).ge⟩

/-- At its start no bdev has. -/
theorem not_drained_nil (src : Source) (b : String) : ¬src.pool.Drained [] b := by
  rintro ⟨hpos, hle⟩
  rw [List.count_nil] at hle
  omega

theorem deletesDisk_once (ht : w.src.Tidy) (hr : Returned (run w answers)) {info : Bdev}
    {base : Option String} (he : w.src.entry b = some (info, base))
    (hp : info.productName = "Null disk" ∨ info.productName = "Malloc disk")
    (hu : 0 < w.src.usersOf b) :
    (finalState (run w answers)).log.countP (Event.sends .src (Rpc.deletesDisk b)) = 1 := by
  have hplan : ∀ a ∈ planOf w.src, a ∈ plan (managerOf w.src) := fun _ ha => ha
  have hobj : b ∈ w.src.pool.objects := object_iff.mpr (by rw [he]; rfl)
  have hstart : decide (w.src.pool.Drained [] b) = false := decide_eq_false (not_drained_nil _ b)
  rw [run_countP_deletions (fun _ h => deletesDisk_kind h) hr,
    countP_walk (fun _ h => deletesDisk_kind h) (fun l => decide (w.src.pool.Drained l b))
      hstart (countP_deletesDisk he hp) hplan, decide_eq_true (drained_plan ht hobj hu)]
  rfl

theorem detaches_once (ht : w.src.Tidy) (hr : Returned (run w answers))
    (hg : ∃ b, w.src.baseOf b = some g) (hall : ∀ b, w.src.baseOf b = some g → 0 < w.src.usersOf b) :
    (finalState (run w answers)).log.countP (Event.sends .src (Rpc.detaches g)) = 1 := by
  have hplan : ∀ a ∈ planOf w.src, a ∈ plan (managerOf w.src) := fun _ ha => ha
  obtain ⟨b, hb⟩ := hg
  have hfreed : w.src.pool.Freed (dropped (planOf w.src)) g := by
    refine (Pool.freed_iff (ht.size_eq g)).mpr ⟨⟨b, Pool.mem_members.mpr hb⟩, fun b' hb' => ?_⟩
    have hbase : w.src.baseOf b' = some g := Pool.mem_members.mp hb'
    exact drained_plan ht (w.src.pool.grouped b' g hbase) (hall b' hbase)
  have hstart : decide (w.src.pool.Freed [] g) = false := by
    refine decide_eq_false fun hd => ?_
    obtain ⟨⟨b', hb'⟩, hnone⟩ := (Pool.freed_iff (ht.size_eq g)).mp hd
    exact not_drained_nil _ b' (hnone b' hb')
  rw [run_countP_deletions (fun _ h => detaches_kind h) hr,
    countP_walk (fun _ h => detaches_kind h) (fun l => decide (w.src.pool.Freed l g))
      hstart (countP_detaches g) hplan, decide_eq_true hfreed]
  rfl

/-- In a run that returns, from a source without leftovers, each Null or Malloc bdev with a user is
deleted once, with its last user, and each NVMe-oF controller whose bdevs all have users is detached
once, with the last of them. What has no user is neither deleted nor detached. -/
theorem released_once (w : World) (answers : ℕ → Bool) (ht : w.src.Tidy)
    (hr : Returned (run w answers)) :
    (∀ b info base, w.src.entry b = some (info, base) →
      (info.productName = "Null disk" ∨ info.productName = "Malloc disk") →
      0 < w.src.usersOf b →
      (finalState (run w answers)).log.countP (Event.sends .src (Rpc.deletesDisk b)) = 1) ∧
    (∀ g, (∃ b, w.src.baseOf b = some g) →
      (∀ b, w.src.baseOf b = some g → 0 < w.src.usersOf b) →
      (finalState (run w answers)).log.countP (Event.sends .src (Rpc.detaches g)) = 1) ∧
    (∀ b, w.src.usersOf b = 0 →
      (finalState (run w answers)).log.countP (Event.sends .src (Rpc.deletesDisk b)) = 0) ∧
    (∀ g, (∀ b, w.src.baseOf b ≠ some g) ∨ (∃ b, w.src.baseOf b = some g ∧ w.src.usersOf b = 0) →
      (finalState (run w answers)).log.countP (Event.sends .src (Rpc.detaches g)) = 0) ∧
    Always (fun pre e =>
      (∀ b, e.sends .src (Rpc.deletesDisk b) = true → w.src.LastRemoval (· = b) pre) ∧
      ∀ g, e.sends .src (Rpc.detaches g) = true →
        w.src.LastRemoval (fun b => w.src.baseOf b = some g) pre)
      (finalState (run w answers)).log := by
  refine ⟨?_, ?_, ?_, ?_, fun pre e post hlog =>
    ⟨fun b he => deletesDisk_last ht hlog he, fun g he => detaches_last ht hlog he⟩⟩
  · intro b info base he hp hu
    exact deletesDisk_once ht hr he hp hu
  · intro g hg hall
    exact detaches_once ht hr hg hall
  · intro b hu
    refine countP_eq_zero_of_split fun pre e post hlog he => ?_
    have hpos := deletesDisk_used hlog he
    omega
  · intro g hg
    refine countP_eq_zero_of_split fun pre e post hlog he => ?_
    obtain ⟨⟨b, hb⟩, hall⟩ := detaches_used hlog he
    rcases hg with hnone | ⟨b', hb', hu⟩
    · exact hnone b hb
    · have hpos := hall b' hb'
      omega

theorem released_once_small :
    (finalState (run ⟨.small, .fresh⟩ fun _ => true)).log.countP
      (Event.sends .src (Rpc.deletesDisk "n0")) = 1 :=
  (released_once ⟨.small, .fresh⟩ (fun _ => true) (by decide +kernel)
    (run_returns (by decide +kernel) rfl rfl fun _ => rfl)).1 "n0" (.small "n0" "Null disk" .empty)
    none (by decide +kernel) (.inl rfl) (by decide +kernel)

end Release

/-- A namespace on a Null disk with the name that stands for no bdev, and a dummy controller. -/
def Source.dummyName : Source :=
  { Source.idle with
    bdevs := [.small "none" "Null disk" .empty]
    functions := [⟨⟨none, some "v0"⟩, "VBLK", []⟩, ⟨⟨none, some "e0"⟩, "NVME", []⟩]
    vblkCtrls := [.on "v0" "none"]
    nvmeCtrls := [⟨"e0", "nqn", 1, 2, 3, [⟨1, "none", "u1"⟩]⟩]
    subsystems := [⟨"nqn", "mn", "sn", 8, 8⟩]
    namespaces := [⟨"nqn", 1, "none", "u1"⟩] }

/-- No RPC fails, and yet an NVMe-oF controller whose only bdev has a user is not detached, because
the run ends with a `KeyError`, and a bdev with a user is not deleted, because the dummy controller
is counted for it. -/
theorem pcie_not_detached :
    (Source.pcie.Tidy ∧ Source.pcie.baseOf "d0" = some "c0" ∧
      (∀ x ∈ Source.pcie.bdevs, (Source.pcie.entry x.name).isSome ∧
        0 < Source.pcie.usersOf x.name) ∧
      (finalState (run ⟨.pcie, .fresh⟩ fun _ => true)).log.all Event.ok = true ∧
      (finalState (run ⟨.pcie, .fresh⟩ fun _ => true)).log.countP
        (Event.sends .src (Rpc.detaches "c0")) = 0) ∧
    0 < Source.dummyName.usersOf "none" ∧ Returned (run ⟨.dummyName, .fresh⟩ fun _ => true) ∧
      (finalState (run ⟨.dummyName, .fresh⟩ fun _ => true)).log.countP
        (Event.sends .src (Rpc.deletesDisk "none")) = 0 := by
  decide +kernel

end DcPerf.LiveUpdate
