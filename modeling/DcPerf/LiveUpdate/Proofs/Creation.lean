import DcPerf.LiveUpdate.Proofs.Blocks
import DcPerf.LiveUpdate.Proofs.Replay

/-!
# What a run creates on the destination

The `created` flags of the manager say what the run has created. For the products that `create_bdev`
supports a flag is set only after the bdev exists on the destination; for all others it is set
although nothing was created.
-/

namespace DcPerf.LiveUpdate

open DcPerf.Library

section Kinds

variable {src : Source} {b g : String} {r : Rpc}

theorem kind_createsDisk (h : r.createsDisk b = true) : r.kind = .bdevCreate := by
  cases r <;> simp_all [Rpc.createsDisk, Rpc.kind]

theorem kind_attaches (h : r.attaches g = true) : r.kind = .bdevCreate := by
  cases r <;> simp_all [Rpc.attaches, Rpc.kind]

theorem kind_provides (h : src.provides b r = true) : r.kind = .bdevCreate := by
  rcases (Bool.or_eq_true _ _).mp h with h | h
  · exact kind_createsDisk h
  · obtain ⟨g, -, hg⟩ := (Option.any_eq_true _ _).mp h
    exact kind_attaches hg

/-- Events whose commands create no bdev send no RPC that does. -/
theorem not_sends_of_kind {P : Cmd → Prop} {p : Rpc → Bool} {k : Sock} {l : List Event}
    (hP : ∀ c, P c → c.rpc.kind ≠ .bdevCreate) (hl : ∀ e ∈ l, ∀ c ∈ e.cmd?, P c)
    (hp : ∀ r, p r = true → r.kind = .bdevCreate) : ∀ e ∈ l, e.sends k p = false := by
  intro e he
  by_contra h
  obtain ⟨c, hc, -, hpc⟩ := sends_iff.mp (by simpa using h)
  exact hP c (hl e he c hc) (hp _ hpc)

end Kinds

/-! ## The invariant -/

/-- Every bdev that is marked as created, and that `create_bdev` supports, was created. -/
def Made (src : Source) (m : Memory) (l : List Event) : Prop :=
  ∀ b, m.created b = some 1 → src.supports b = true →
    ∃ e ∈ l, e.does .dst (src.provides b) = true

/-- What a log says about the creation of bdevs, at every point of a run. -/
structure LogSafe (src : Source) (l : List Event) : Prop where
  sound : ∀ e ∈ l, ∀ b, e.sends .dst (src.provides b) = true → src.supports b = true
  onceDisk : ∀ b, Always (fun pre e => e.sends .dst (Rpc.createsDisk b) = true →
    ∀ x ∈ pre, x.sends .dst (Rpc.createsDisk b) = false) l
  onceBase : ∀ g, Always (fun pre e => e.sends .dst (Rpc.attaches g) = true →
    ∀ x ∈ pre, x.sends .dst (Rpc.attaches g) = false) l
  names : Always (fun pre e => ∀ b, e.sends .dst (Rpc.names b) = true → src.supports b = true →
    ∃ x ∈ pre, x.does .dst (src.provides b) = true) l

/-- What holds at every point of a run, also where it is aborted. -/
structure CreationSafe (src : Source) (s : Session) : Prop extends LogSafe src s.log where
  past : ∀ p ∈ s.past, p.2 <+: s.log ∧ Made src p.1 p.2

/-- What holds after the actions `done`. -/
structure CreationInv (src : Source) (done : List Action) (s : Session) : Prop
    extends CreationSafe src s where
  base : ∀ g, s.mem.baseCreated g = some 1 ↔ ∃ e ∈ s.log, e.sends .dst (Rpc.attaches g) = true
  disk : ∀ b, (∃ e ∈ s.log, e.sends .dst (Rpc.createsDisk b) = true) → s.mem.created b = some 1
  made : Made src s.mem s.log
  marked : ∀ b, .create b ∈ done → s.mem.created b = some 1

theorem Made.mono {src : Source} {m : Memory} {l l' : List Event} (h : Made src m l)
    (hl : l <+: l') : Made src m l' := by
  intro b hb hs
  obtain ⟨e, he, hd⟩ := h b hb hs
  exact ⟨e, hl.subset he, hd⟩

theorem Made.congr {src : Source} {m m' : Memory} {l : List Event} (h : Made src m l)
    (hm : m'.flags = m.flags) : Made src m' l := by
  have hc : m'.created = m.created := (Prod.mk.inj hm).1
  intro b hb
  exact h b (by rw [← hc]; exact hb)

theorem CreationSafe.grow {src : Source} {s s' : Session} (h : CreationSafe src s)
    (hlog : LogSafe src s'.log) (hgrow : s.log <+: s'.log) (hpast : s'.past = s.past) :
    CreationSafe src s' := by
  refine ⟨hlog, fun p hp => ?_⟩
  rw [hpast] at hp
  exact ⟨(h.past p hp).1.trans hgrow, (h.past p hp).2⟩

theorem CreationSafe.remember {src : Source} {s : Session} (h : CreationSafe src s)
    {f : Memory → Memory} (hmade : Made src (f s.mem) s.log) : CreationSafe src (s.remember f) := by
  refine ⟨h.toLogSafe, fun p hp => ?_⟩
  rcases List.mem_append.mp hp with hp | hp
  · exact h.past p hp
  · rw [List.mem_singleton.mp hp]
    exact ⟨List.prefix_refl _, hmade⟩

/-! ## Actions that create no bdev -/

section Names

variable {self : Manager} {a : Action}

/-- After the actions `pre`, a command of the action names a bdev only if `create_bdev` was called for
it. -/
def NamesCreated (pre : List Action) (a : Action) : Prop :=
  ∀ c, a.Sends c → c.sock = .dst → ∀ b, c.rpc.names b = true → .create b ∈ pre

/-- The commands of the action name no bdev. -/
def Action.Nameless (a : Action) : Prop := ∀ c, a.Sends c → ∀ b, c.rpc.names b = false

theorem stable_namesCreated : Stable NamesCreated := by
  intro l pre a h c hc hd b hb
  exact List.mem_append_right l (h c hc hd b hb)

theorem always_nameless {l : List Action} (h : ∀ a ∈ l, a.Nameless) : Always NamesCreated l := by
  rintro pre a post rfl c hc - b hb
  simp [h a (by simp) c hc b] at hb

theorem nameless_create (b : String) : (Action.create b).Nameless := by
  intro c h b'
  cases h <;> rfl

theorem nameless_destroy {c : Cmd} (h : IsDestroyBdevCmd c) (b : String) : c.rpc.names b = false := by
  cases h <;> rfl

theorem VblkRemoval.nameless {i : String} {params : Option String}
    (h : VblkRemoval self i params a) : a.Nameless := by
  intro c hs b
  cases h with
  | missing => exact hs.elim
  | release =>
    rcases hs with rfl | hs
    · rfl
    · exact nameless_destroy hs b
  | destroy =>
    obtain rfl : c = destroyVblkCtrlCmd i params := hs
    rfl

theorem NvmeRemoval.nameless {i : String} (h : NvmeRemoval self i a) : a.Nameless := by
  intro c hs b
  cases h with
  | missing => exact hs.elim
  | release =>
    rcases hs with rfl | hs
    · rfl
    · exact nameless_destroy hs b
  | destroy =>
    obtain rfl : c = destroyNvmeControllerCmd i := hs
    rfl

/-- Of the commands that hand a VBLK controller over the creation names its bdev. -/
theorem namesCreated_handVblkOver {pre : List Action} {i : String} {ctrl : VblkCtrl} {cmd : Cmd}
    (hcmd : cmd ∈ handVblkOver i ctrl) (hb : ctrl.bdev ≠ "none" → .create ctrl.bdev ∈ pre) :
    NamesCreated pre (.send cmd) := by
  rintro c rfl - b hn
  simp only [handVblkOver, List.mem_cons, List.not_mem_nil, or_false] at hcmd
  rcases hcmd with rfl | rfl | rfl
  · simp [suspendVblkCtrlCmd, Rpc.names] at hn
  · simp [cleanupVblkControllerCmd, Rpc.names] at hn
  · have hbdev : ctrl.bdev ≠ "none" ∧ ctrl.bdev = b := by
      simpa [restoreVblkControllerCmd, Rpc.names] using hn
    rw [← hbdev.2]
    exact hb hbdev.1

theorem nameless_handNvmeOver {ctrl : NvmeCtrl} {cmd : Cmd} (hcmd : cmd ∈ handNvmeOver ctrl) :
    (Action.send cmd).Nameless := by
  rintro c rfl b
  simp only [handNvmeOver, List.mem_append, List.mem_cons, List.not_mem_nil, or_false,
    List.mem_map] at hcmd
  rcases hcmd with ((rfl | rfl) | ⟨n, -, rfl⟩) | rfl <;> rfl

theorem namesCreated_ns {pre : List Action} {ctrl : NvmeCtrl} {n : CtrlNs}
    (hn : .create n.bdev ∈ pre) : NamesCreated pre (.ns ctrl n) := by
  rintro c rfl - b hb
  have hbdev : n.bdev = b := by simpa [createNvmeNamespaceCmd, Rpc.names, CtrlNs.within] using hb
  rwa [← hbdev]

theorem names_vblkCtrlPlan (isVf : Bool) (i : String) :
    Always NamesCreated (vblkCtrlPlan self isVf i) := by
  refine always_look (fun c hc => hc.elim) fun ctrl hctrl => ?_
  refine Always.append stable_namesCreated (always_append (always_nameless ?_) ?_) ?_
  · intro a ha
    split at ha
    · rw [List.mem_singleton.mp ha]
      exact nameless_create _
    · simp at ha
  · intro pre a post hl
    obtain ⟨cmd, hcmd, rfl⟩ := List.mem_map.mp (hl ▸ List.mem_append_right pre List.mem_cons_self)
    refine namesCreated_handVblkOver hcmd fun hb => ?_
    rw [if_pos hb]
    exact List.mem_append_left _ List.mem_cons_self
  · cases isVf with
    | false => exact always_nil
    | true => exact always_nameless fun a ha => (mem_destroyVblkPlan ha).nameless

theorem names_nvmeCtrlPlan (isVf : Bool) (i : String) :
    Always NamesCreated (nvmeCtrlPlan self isVf i) := by
  refine always_look (fun c hc => hc.elim) fun ctrl hctrl => ?_
  refine Always.append stable_namesCreated (Always.append stable_namesCreated
    (Always.append stable_namesCreated (always_nameless ?_)
      (Always.flatMap stable_namesCreated fun n hn => ?_)) (always_nameless ?_)) ?_
  · intro a ha c hc b
    rw [List.mem_singleton.mp ha] at hc
    obtain ⟨subsys, rfl⟩ := hc
    rfl
  · refine always_snoc (l := [Action.create n.bdev]).mpr ⟨always_nameless ?_, namesCreated_ns ?_⟩
    · intro a ha
      rw [List.mem_singleton.mp ha]
      exact nameless_create _
    · exact List.mem_cons_self
  · intro a ha
    obtain ⟨cmd, hcmd, rfl⟩ := List.mem_map.mp ha
    exact nameless_handNvmeOver hcmd
  · cases isVf with
    | false => exact always_nil
    | true => exact always_nameless fun a ha => (mem_cleanupNvmePlan ha).nameless

/-- In the plan, a command names a bdev only after `create_bdev` was called for it. -/
theorem names_after_create (self : Manager) : Always NamesCreated (plan self) :=
  always_plan stable_namesCreated names_vblkCtrlPlan
    (fun _ _ => always_nameless fun _ ha => (mem_destroyVblkPlan ha).nameless) names_nvmeCtrlPlan
    fun _ => always_nameless fun _ ha => (mem_cleanupNvmePlan ha).nameless

end Names

section Steps

variable {src : Source} {done : List Action} {s s' : Session} {b g : String}

/-- Events that create no bdev keep what the log says. -/
theorem CreationInv.quiet (h : CreationInv src done s) {l : List Event}
    (hlog : s'.log = s.log ++ l) (hk : KeepsFlags s s')
    (hl : ∀ e ∈ l, ∀ c ∈ e.cmd?, c.rpc.kind ≠ .bdevCreate)
    (hnames : ∀ e ∈ l, ∀ b, e.sends .dst (Rpc.names b) = true → .create b ∈ done) :
    CreationSafe src s' := by
  have hnot {p : Rpc → Bool} (hp : ∀ r, p r = true → r.kind = .bdevCreate) :
      ∀ e ∈ l, e.sends .dst p = false :=
    not_sends_of_kind (P := fun c => c.rpc.kind ≠ .bdevCreate) (fun _ hc => hc) hl hp
  refine ⟨?_, fun p hp => ?_⟩
  · rw [hlog]
    refine ⟨fun e he b hb => ?_, fun b => always_append (h.onceDisk b) ?_,
      fun g => always_append (h.onceBase g) ?_, always_append h.names ?_⟩
    · rcases List.mem_append.mp he with he | he
      · exact h.sound e he b hb
      · simp [hnot (fun r hr => kind_provides hr) e he] at hb
    · rintro pre e post rfl he
      simp [hnot (fun r hr => kind_createsDisk hr) e (by simp)] at he
    · rintro pre e post rfl he
      simp [hnot (fun r hr => kind_attaches hr) e (by simp)] at he
    · rintro pre e post rfl b he hs
      obtain ⟨x, hx, hd⟩ := h.made b (h.marked b (hnames e (by simp) b he)) hs
      exact ⟨x, List.mem_append_left _ hx, hd⟩
  · rcases hk.past p hp with hp | ⟨hf, hlp, hlp'⟩
    · exact ⟨(h.past p hp).1.trans hk.log, (h.past p hp).2⟩
    · exact ⟨hlp', (h.made.congr hf).mono hlp⟩

/-- An action that creates no bdev keeps the invariant. -/
theorem CreationInv.step (h : CreationInv src done s) {a : Action} (ha : ∀ b, a ≠ .create b)
    {l : List Event} (hlog : s'.log = s.log ++ l) (hk : KeepsFlags s s')
    (hl : ∀ e ∈ l, ∀ c ∈ e.cmd?, c.rpc.kind ≠ .bdevCreate)
    (hnames : ∀ e ∈ l, ∀ b, e.sends .dst (Rpc.names b) = true → .create b ∈ done) :
    CreationInv src (done ++ [a]) s' := by
  obtain ⟨hc, hb⟩ := Prod.mk.inj hk.flags
  have hex {p : Rpc → Bool} (hp : ∀ r, p r = true → r.kind = .bdevCreate) :
      (∃ e ∈ s'.log, e.sends .dst p = true) ↔ ∃ e ∈ s.log, e.sends .dst p = true := by
    rw [hlog]
    constructor
    · rintro ⟨e, he, hs⟩
      rcases List.mem_append.mp he with he | he
      · exact ⟨e, he, hs⟩
      · have hn := not_sends_of_kind (P := fun c => c.rpc.kind ≠ .bdevCreate) (k := .dst)
          (fun _ hc => hc) hl hp e he
        simp [hn] at hs
    · rintro ⟨e, he, hs⟩
      exact ⟨e, List.mem_append_left _ he, hs⟩
  refine ⟨h.quiet hlog hk hl hnames, fun g => ?_, fun b hd => ?_, ?_, fun b hb' => ?_⟩
  · rw [hb, hex fun r hr => kind_attaches hr]
    exact h.base g
  · rw [hc]
    exact h.disk b ((hex fun r hr => kind_createsDisk hr).mp hd)
  · exact (h.made.congr hk.flags).mono hk.log
  · rw [hc]
    rcases List.mem_append.mp hb' with hb' | hb'
    · exact h.marked b hb'
    · exact absurd (List.mem_singleton.mp hb').symm (ha b)

/-- A command of `create_bdev` that is sent for the first time. -/
theorem LogSafe.create {l : List Event} (h : LogSafe src l) {c : Cmd} (ok : Bool)
    (hkind : c.rpc.kind = .bdevCreate)
    (hsound : ∀ b, src.provides b c.rpc = true → src.supports b = true)
    (hdisk : ∀ b, c.rpc.createsDisk b = true → ∀ e ∈ l, e.sends .dst (Rpc.createsDisk b) = false)
    (hbase : ∀ g, c.rpc.attaches g = true → ∀ e ∈ l, e.sends .dst (Rpc.attaches g) = false) :
    LogSafe src (l ++ [.sent c ok]) := by
  have hrpc {p : Rpc → Bool} (hp : (Event.sent c ok).sends .dst p = true) : p c.rpc = true := by
    obtain ⟨c', hc, -, hpc⟩ := sends_iff.mp hp
    rw [← Option.some.inj hc] at hpc
    exact hpc
  refine ⟨fun e he b hb => ?_, fun b => always_snoc.mpr ⟨h.onceDisk b, fun he => ?_⟩,
    fun g => always_snoc.mpr ⟨h.onceBase g, fun he => ?_⟩, always_snoc.mpr ⟨h.names, ?_⟩⟩
  · rcases List.mem_append.mp he with he | he
    · exact h.sound e he b hb
    · rw [List.mem_singleton.mp he] at hb
      exact hsound b (hrpc hb)
  · exact hdisk b (hrpc he)
  · exact hbase g (hrpc he)
  · intro b he _
    have hn := hrpc he
    cases hr : c.rpc <;> simp_all [Rpc.names, Rpc.kind]

theorem created_mark_iff {m : Memory} {info : Bdev} {base : Option String}
    (hk : m.known b = some (info, base)) (b' : String) :
    (m.setBdev b fun e => { e with created := 1 }).created b' = some 1 ↔
      b' = b ∨ m.created b' = some 1 := by
  rw [created_setCreated]
  by_cases hb : b' = b
  · subst hb
    cases hl : m.bdevDict.lookup b' with
    | none => simp [Memory.known, hl] at hk
    | some e => simp [Memory.created, hl]
  · simp [hb]

theorem baseCreated_mark_iff {m : Memory} (hk : m.knownBase g = true) (g' : String) :
    (m.setNvmf g fun e => { e with created := 1 }).baseCreated g' = some 1 ↔
      g' = g ∨ m.baseCreated g' = some 1 := by
  rw [baseCreated_setCreated]
  by_cases hg : g' = g
  · subst hg
    cases hl : m.bdevNvmfDict.lookup g' with
    | none => simp [Memory.knownBase, hl] at hk
    | some e => simp [Memory.baseCreated, hl]
  · simp [hg]

theorem Made.mark {m : Memory} {l : List Event} {info : Bdev} {base : Option String}
    (h : Made src m l) (hk : m.known b = some (info, base))
    (hb : src.supports b = true → ∃ e ∈ l, e.does .dst (src.provides b) = true) :
    Made src (m.setBdev b fun e => { e with created := 1 }) l := by
  intro b' hb' hs
  rcases (created_mark_iff hk b').mp hb' with rfl | hb'
  · exact hb hs
  · exact h b' hb' hs

theorem supports_of_entry {info : Bdev} {base : Option String}
    (he : src.entry b = some (info, base))
    (hp : info.productName ∈ ["NVMe disk", "Null disk", "Malloc disk"]) : src.supports b = true := by
  rw [Source.supports, he]
  exact decide_eq_true hp

/-- An NVMe-oF controller provides NVMe disks only. -/
theorem supports_of_baseOf (h : src.baseOf b = some g) : src.supports b = true := by
  obtain ⟨⟨info, base⟩, he, hbase⟩ := Option.bind_eq_some_iff.mp h
  refine supports_of_entry he ?_
  by_contra hp
  have hnone := (entry_spec he).other fun hd => hp (by simp [hd])
  simp [hnone] at hbase

theorem attach_sound {g trtype adrfam traddr trsvcid subnqn b' : String}
    (h : src.provides b'
      (bdevNvmeAttachControllerCmd g trtype adrfam traddr trsvcid subnqn).rpc = true) :
    src.supports b' = true := by
  rcases (Bool.or_eq_true _ _).mp h with h | h
  · simp [bdevNvmeAttachControllerCmd, Rpc.createsDisk] at h
  · obtain ⟨g', hg', -⟩ := (Option.any_eq_true _ _).mp h
    exact supports_of_baseOf hg'

theorem createDiskCmd_cases {info : Bdev} {c : Cmd} (h : createDiskCmd info = some c) :
    (info.productName = "Null disk" ∧ c = bdevNullCreateCmd info) ∨
      (info.productName = "Malloc disk" ∧ c = bdevMallocCreateCmd info) := by
  unfold createDiskCmd at h
  split at h
  · exact .inl ⟨‹_›, (Option.some.inj h).symm⟩
  · split at h
    · exact .inr ⟨‹_›, (Option.some.inj h).symm⟩
    · simp at h

/-- The command for a Null or Malloc disk creates that disk and nothing else. -/
theorem disk_spec {info : Bdev} {base : Option String} {c : Cmd}
    (he : src.entry b = some (info, base)) (hc : createDiskCmd info = some c) :
    c.sock = .dst ∧ c.rpc.kind = .bdevCreate ∧ (∀ g, c.rpc.attaches g = false) ∧
      (∀ b', c.rpc.createsDisk b' = true ↔ b' = b) ∧ src.supports b = true := by
  have hname := (entry_spec he).name
  rcases createDiskCmd_cases hc with ⟨hp, rfl⟩ | ⟨hp, rfl⟩
  · exact ⟨rfl, rfl, fun _ => rfl, fun b' => by
      simp [bdevNullCreateCmd, Rpc.createsDisk, hname, eq_comm],
      supports_of_entry he (by simp [hp])⟩
  · exact ⟨rfl, rfl, fun _ => rfl, fun b' => by
      simp [bdevMallocCreateCmd, Rpc.createsDisk, hname, eq_comm],
      supports_of_entry he (by simp [hp])⟩

/-- No event of the log created a disk that is not marked. -/
theorem CreationInv.not_created (h : CreationInv src done s) (hb : s.mem.created b ≠ some 1) :
    ∀ e ∈ s.log, e.sends .dst (Rpc.createsDisk b) = false := by
  intro e he
  by_contra hs
  exact hb (h.disk b ⟨e, he, by simpa using hs⟩)

theorem CreationInv.not_attached (h : CreationInv src done s) (hg : s.mem.baseCreated g ≠ some 1) :
    ∀ e ∈ s.log, e.sends .dst (Rpc.attaches g) = false := by
  intro e he
  by_contra hs
  exact hg ((h.base g).mpr ⟨e, he, by simpa using hs⟩)

theorem CreationInv.logSafe_attach (h : CreationInv src done s)
    (hg : s.mem.baseCreated g ≠ some 1) (trtype adrfam traddr trsvcid subnqn : String) (ok : Bool) :
    LogSafe src (s.log ++ [.sent
      (bdevNvmeAttachControllerCmd g trtype adrfam traddr trsvcid subnqn) ok]) := by
  refine h.toLogSafe.create ok rfl (fun b' hb => attach_sound hb) (fun b' hb => ?_) fun g' hg' => ?_
  · simp [bdevNvmeAttachControllerCmd, Rpc.createsDisk] at hb
  · have hgg : g = g' := by simpa [bdevNvmeAttachControllerCmd, Rpc.attaches] using hg'
    exact hgg ▸ h.not_attached hg

theorem CreationInv.logSafe_disk (h : CreationInv src done s) {info : Bdev} {base : Option String}
    {c : Cmd} (he : src.entry b = some (info, base)) (hc : createDiskCmd info = some c)
    (hb : s.mem.created b ≠ some 1) (ok : Bool) : LogSafe src (s.log ++ [.sent c ok]) := by
  obtain ⟨-, hkind, hatt, hdisk, hsup⟩ := disk_spec he hc
  refine h.toLogSafe.create ok hkind (fun b' hb' => ?_) (fun b' hb' => ?_) fun g' hg' => ?_
  · rcases (Bool.or_eq_true _ _).mp hb' with hb' | hb'
    · exact (hdisk b').mp hb' ▸ hsup
    · obtain ⟨g', -, hg'⟩ := (Option.any_eq_true _ _).mp hb'
      simp [hatt g'] at hg'
  · exact (hdisk b').mp hb' ▸ h.not_created hb
  · simp [hatt g'] at hg'

/-- The last step of `create_bdev`: the bdev is marked, after it was created if it is supported. -/
theorem creationInv_mark {t : Session} {info : Bdev} {base : Option String} (hsafe : CreationSafe src t)
    (hbase : ∀ g, t.mem.baseCreated g = some 1 ↔ ∃ e ∈ t.log, e.sends .dst (Rpc.attaches g) = true)
    (hdisk : ∀ b', (∃ e ∈ t.log, e.sends .dst (Rpc.createsDisk b') = true) →
      b' = b ∨ t.mem.created b' = some 1)
    (hmade : Made src t.mem t.log) (hmarked : ∀ b', .create b' ∈ done → t.mem.created b' = some 1)
    (hk : t.mem.known b = some (info, base))
    (hb : src.supports b = true → ∃ e ∈ t.log, e.does .dst (src.provides b) = true) :
    CreationInv src (done ++ [.create b]) (t.mark b) := by
  have hcreated := created_mark_iff hk
  have hmade' : Made src (t.mark b).mem t.log := hmade.mark hk hb
  refine ⟨hsafe.remember hmade', hbase, fun b' hd => ?_, hmade', fun b' hb' => ?_⟩
  · exact (hcreated b').mpr (hdisk b' hd)
  · rcases List.mem_append.mp hb' with hb' | hb'
    · exact (hcreated b').mpr (.inr (hmarked b' hb'))
    · exact (hcreated b').mpr (.inl (by simpa using hb'))

/-- Every way in which `create_bdev` returns keeps the invariant. -/
theorem CreationInv.created {w : World} {answers : ℕ → Bool} (h : CreationInv w.src done s)
    (hs : Steady w answers s) (hc : Created b s s') : CreationInv w.src (done ++ [.create b]) s' := by
  cases hc with
  | skip hb =>
    refine ⟨h.toCreationSafe, h.base, h.disk, h.made, fun b' hb' => ?_⟩
    rcases List.mem_append.mp hb' with hb' | hb'
    · exact h.marked b' hb'
    · have hbb : b' = b := by simpa using hb'
      rw [hbb]
      exact hb
  | shared info g hk hp hb hg =>
    refine creationInv_mark h.toCreationSafe h.base (fun b' hd => .inr (h.disk b' hd)) h.made h.marked
      hk fun _ => ?_
    obtain ⟨e, he, hsend⟩ := (h.base g).mp hg
    obtain ⟨r, hr, hrg⟩ := (Option.any_eq_true _ _).mp hsend
    have hbase : w.src.baseOf b = some g := baseOf_eq ((hs.known b).symm.trans hk)
    have hprov : w.src.provides b r = true := by simp [Source.provides, hbase, hrg]
    exact ⟨e, he, by simp [Event.does, hs.ok e he, Event.sends, hr, hprov]⟩
  | attach info g trtype adrfam traddr trsvcid subnqn hk hp hb hg hkg =>
    have hlog := h.logSafe_attach hg trtype adrfam traddr trsvcid subnqn true
    have hbase : w.src.baseOf b = some g := baseOf_eq ((hs.known b).symm.trans hk)
    have hgrow := List.prefix_append s.log [Event.sent
      (bdevNvmeAttachControllerCmd g trtype adrfam traddr trsvcid subnqn) true]
    have hmade := h.made.mono hgrow
    have hsent : CreationSafe w.src (s.sent
        (bdevNvmeAttachControllerCmd g trtype adrfam traddr trsvcid subnqn)) :=
      h.grow hlog hgrow rfl
    have hsafe := hsent.remember (f := fun m => m.setNvmf g fun e => { e with created := 1 }) hmade
    refine creationInv_mark hsafe (fun g' => ?_) (fun b' hd => .inr ?_) hmade h.marked hk fun _ => ?_
    · refine (baseCreated_mark_iff hkg g').trans ?_
      rw [h.base g', Session.remember_log, Session.sent_log, exists_sends_snoc, or_comm]
      simp [bdevNvmeAttachControllerCmd, Rpc.attaches, eq_comm (a := g)]
    · rcases exists_sends_snoc.mp hd with hd | ⟨-, hd⟩
      · exact h.disk b' hd
      · simp [bdevNvmeAttachControllerCmd, Rpc.createsDisk] at hd
    · refine ⟨_, List.mem_append_right _ List.mem_cons_self, ?_⟩
      simp [Event.does, Event.ok, sends_sent, bdevNvmeAttachControllerCmd, Source.provides, hbase,
        Rpc.attaches]
  | disk info base c hk hp hb hc =>
    have he : w.src.entry b = some (info, base) := (hs.known b).symm.trans hk
    obtain ⟨hsock, -, hatt, hdisk, -⟩ := disk_spec he hc
    have hgrow : s.log <+: s.log ++ [.sent c true] := List.prefix_append _ _
    have hsafe : CreationSafe w.src (s.sent c) :=
      h.grow (h.logSafe_disk he hc hb true) hgrow rfl
    refine creationInv_mark hsafe (fun g' => ?_) (fun b' hd => ?_) (h.made.mono hgrow) h.marked hk
      fun _ => ?_
    · rw [Session.sent_mem, h.base g', Session.sent_log, exists_sends_snoc]
      simp [hatt g']
    · rcases exists_sends_snoc.mp hd with hd | ⟨-, hd⟩
      · exact .inr (h.disk b' hd)
      · exact .inl ((hdisk b').mp hd)
    · refine ⟨_, List.mem_append_right _ List.mem_cons_self, ?_⟩
      simp [Event.does, Event.ok, sends_sent, hsock, Source.provides, (hdisk b).mpr rfl]
  | unsupported info base hk hp hb hc =>
    refine creationInv_mark h.toCreationSafe h.base (fun b' hd => .inr (h.disk b' hd)) h.made h.marked
      hk fun hsup => ?_
    have he : w.src.entry b = some (info, base) := (hs.known b).symm.trans hk
    rw [Source.supports, he] at hsup
    have hprod : info.productName ∈ ["NVMe disk", "Null disk", "Malloc disk"] :=
      of_decide_eq_true hsup
    have hdisk : info.productName = "Null disk" ∨ info.productName = "Malloc disk" := by
      simpa [hp] using hprod
    rcases hdisk with hd | hd <;> simp [createDiskCmd, hd] at hc

theorem CreationInv.aborted {w : World} {answers : ℕ → Bool} (h : CreationInv w.src done s)
    (hs : Steady w answers s) (hc : CreateAborted b s s') : CreationSafe w.src s' := by
  cases hc with
  | missing => exact h.toCreationSafe
  | attach info g trtype adrfam traddr trsvcid subnqn hk hp hb hg hn =>
    exact h.grow (h.logSafe_attach hg trtype adrfam traddr trsvcid subnqn false)
      (List.prefix_append _ _) rfl
  | disk info base c hk hb hc hn =>
    have he : w.src.entry b = some (info, base) := (hs.known b).symm.trans hk
    exact h.grow (h.logSafe_disk he hc hb false) (List.prefix_append _ _) rfl

end Steps

/-! ## Runs -/

section Runs

variable {w : World} {answers : ℕ → Bool}

/-- Every action of the plan keeps the invariant. -/
theorem perform_creation {done rest : List Action} {a : Action} {s : Session}
    (hp : planOf w.src = done ++ a :: rest) (hs : Steady w answers s)
    (h : CreationInv w.src done s) :
    wp (perform (managerOf w.src) a) (fun _ => CreationInv w.src (done ++ [a]))
      (fun _ => CreationSafe w.src) s := by
  have ha : a ∈ plan (managerOf w.src) := by
    show a ∈ planOf w.src
    simp [hp]
  by_cases hc : ∃ b, a = .create b
  · obtain ⟨b, rfl⟩ := hc
    exact wp_mono (wp_createBdev b s) (fun _ s' hb => h.created hs hb) fun _ s' hb => h.aborted hs hb
  · have hne : ∀ b, a ≠ .create b := fun b hb => hc ⟨b, hb⟩
    have hkind {c : Cmd} (hsend : a.Sends c) : c.rpc.kind ≠ .bdevCreate := by
      rcases sendsKind ha hsend with ⟨b, hb, -, -⟩ | ⟨c', b, -, -, hk⟩ | ⟨nqn, -, hk⟩ |
        ⟨ctrl, n, -, hk⟩ | ⟨-, hk⟩
      · exact absurd hb (hne b)
      · simp [hk]
      · simp [hk]
      · simp [hk]
      · simp [hk]
    have hnames {l : List Event} (hl : ∀ e ∈ l, ∀ c ∈ e.cmd?, a.Sends c) :
        ∀ e ∈ l, ∀ b, e.sends .dst (Rpc.names b) = true → .create b ∈ done := by
      intro e he b hb
      obtain ⟨c, hc, hsock, hn⟩ := sends_iff.mp hb
      exact names_after_create (managerOf w.src) done a rest hp c (hl e he c hc) hsock b hn
    refine wp_mono (wp_and (perform_grows (managerOf w.src) a s)
      (perform_flags (managerOf w.src) hne s)) ?_ ?_
    · rintro _ s' ⟨⟨-, l, hl, -, hP, -⟩, hk⟩
      exact h.step hne hl hk (fun e he c hc => hkind (hP e he c hc)) (hnames hP)
    · rintro _ s' ⟨⟨l, hl, -, hP, -⟩, hk⟩
      exact h.quiet hl hk (fun e he c hc => hkind (hP e he c hc)) (hnames hP)

/-- A run that has only asked has created nothing. -/
theorem Quiet.creationSafe {s : Session} (h : Quiet w s) : CreationSafe w.src s := by
  have hno {k : Sock} {p : Rpc → Bool} {e : Event} (he : e ∈ s.log) : e.sends k p = false := by
    by_contra hs
    obtain ⟨c, hc, -⟩ := sends_iff.mp (by simpa using hs)
    simp [h.asked e he] at hc
  refine ⟨⟨fun e he b hb => ?_, fun b => ?_, fun g => ?_, ?_⟩, fun p hp => ?_⟩
  · simp [hno he] at hb
  · rintro pre e post hl he
    simp [hno (e := e) (by simp [hl])] at he
  · rintro pre e post hl he
    simp [hno (e := e) (by simp [hl])] at he
  · rintro pre e post hl b he
    simp [hno (e := e) (by simp [hl])] at he
  · obtain ⟨hl, hc⟩ := h.past p hp
    exact ⟨hl, fun b hb => absurd hb (hc b)⟩

/-- At the start no bdev and no NVMe-oF controller is marked. -/
theorem memoryOf_created (src : Source) (b : String) : (memoryOf src).created b ≠ some 1 := by
  rw [Memory.created, memoryOf_lookup, Option.map_map]
  intro h
  obtain ⟨e, he, h1⟩ := Option.map_eq_some_iff.mp h
  have h0 := ((bdevInfo_inv src.bdevs src.nvmfCtrls).fresh b e he).created
  simp [h0] at h1

theorem memoryOf_baseCreated (src : Source) (g : String) :
    (memoryOf src).baseCreated g ≠ some 1 := by
  intro h
  obtain ⟨e, he, h1⟩ := Option.map_eq_some_iff.mp h
  have h0 := (bdevInfo_inv src.bdevs src.nvmfCtrls).created g e he
  simp [h0] at h1

theorem Started.creationInv {s : Session} (h : Started w answers s) : CreationInv w.src [] s := by
  have hno {k : Sock} {p : Rpc → Bool} : ¬∃ e ∈ s.log, e.sends k p = true := by
    rintro ⟨e, he, hs⟩
    obtain ⟨c, hc, -⟩ := sends_iff.mp hs
    simp [h.asked e he] at hc
  refine ⟨h.creationSafe, fun g => ?_, fun b hb => absurd hb hno, fun b hb => ?_, by simp⟩
  · rw [h.mem]
    exact iff_of_false (memoryOf_baseCreated w.src g) hno
  · rw [h.mem] at hb
    exact absurd hb (memoryOf_created w.src b)

theorem wp_creation (w : World) (answers : ℕ → Bool) :
    wp main (fun _ s => Steady w answers s ∧ CreationInv w.src (planOf w.src) s)
      (fun _ s => Halted w s ∧ CreationSafe w.src s) (start w answers) :=
  wp_main w answers (fun _ hs => hs.creationInv) (fun _ _ hs => hs.creationSafe)
    fun _ _ _ hp _ hs h => perform_creation hp hs h

/-- What holds of the creation of bdevs when a run ends. -/
theorem run_creation (w : World) (answers : ℕ → Bool) :
    CreationSafe w.src (finalState (run w answers)) :=
  run_final (wp_mono (wp_creation w answers) (fun _ _ h => h.2.toCreationSafe) fun _ _ h => h.2)

theorem run_returned_creation {w : World} {answers : ℕ → Bool} (hr : Returned (run w answers)) :
    CreationInv w.src (planOf w.src) (finalState (run w answers)) :=
  (run_returned (wp_creation w answers) hr).2

end Runs

end DcPerf.LiveUpdate
