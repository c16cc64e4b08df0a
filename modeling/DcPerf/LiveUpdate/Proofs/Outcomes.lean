import DcPerf.LiveUpdate.Proofs.Runs

/-!
# The outcomes of the guarded steps

What the steps whose commands depend on the memory or on the destination may do from a given
session, said once for each: every way in which they return, and every way in which they are
aborted.
-/

namespace DcPerf.LiveUpdate

open DcPerf.Library

/-- Mark a bdev as created. -/
abbrev Session.mark (s : Session) (b : String) : Session :=
  s.remember fun m => m.setBdev b fun e => { e with created := 1 }

/-- Mark an NVMe-oF controller as created. -/
abbrev Session.markBase (s : Session) (g : String) : Session :=
  s.remember fun m => m.setNvmf g fun e => { e with created := 1 }

/-- Set the count of a bdev. -/
abbrev Session.count (s : Session) (b : String) (u : ℤ) : Session :=
  s.remember fun m => m.setBdev b fun e => { e with used := u }

/-- Set the count of an NVMe-oF controller. -/
abbrev Session.countBase (s : Session) (g : String) (u : ℤ) : Session :=
  s.remember fun m => m.setNvmf g fun e => { e with used := u }

/-- The command of `create_bdev` for a Null or Malloc disk. -/
def createDiskCmd (info : Bdev) : Option Cmd :=
  if info.productName = "Null disk" then some (bdevNullCreateCmd info)
  else if info.productName = "Malloc disk" then some (bdevMallocCreateCmd info)
  else none

/-- The command of `destroy_bdev` for a Null or Malloc disk. -/
def destroyDiskCmd (info : Bdev) : Option Cmd :=
  if info.productName = "Null disk" then some (bdevNullDeleteCmd info)
  else if info.productName = "Malloc disk" then some (bdevMallocDeleteCmd info)
  else none

/-- `create_bdev` finds every name it looks up for a bdev. -/
def Memory.Creatable (m : Memory) (b : String) : Prop :=
  ∃ info base, m.known b = some (info, base) ∧ (info.productName = "NVMe disk" →
    info.trid.complete = true ∧ ∃ g, base = some g ∧ m.knownBase g = true)

/-- `destroy_bdev` finds every name it looks up for a bdev. -/
def Memory.Destroyable (m : Memory) (b : String) : Prop :=
  ∃ info base, m.known b = some (info, base) ∧ (info.productName = "NVMe disk" →
    ∃ g, base = some g ∧ m.knownBase g = true)

theorem Memory.Creatable.disk {m : Memory} {b : String} {info : Bdev} {base : Option String}
    (h : m.Creatable b) (hk : m.known b = some (info, base)) (hp : info.productName = "NVMe disk") :
    info.trid.complete = true ∧ ∃ g, base = some g ∧ m.knownBase g = true := by
  obtain ⟨info', base', hk', hd⟩ := h
  obtain ⟨rfl, rfl⟩ := Prod.mk.inj (Option.some.inj (hk.symm.trans hk'))
  exact hd hp

theorem Memory.Destroyable.disk {m : Memory} {b : String} {info : Bdev} {base : Option String}
    (h : m.Destroyable b) (hk : m.known b = some (info, base))
    (hp : info.productName = "NVMe disk") : ∃ g, base = some g ∧ m.knownBase g = true := by
  obtain ⟨info', base', hk', hd⟩ := h
  obtain ⟨rfl, rfl⟩ := Prod.mk.inj (Option.some.inj (hk.symm.trans hk'))
  exact hd hp

/-- How `create_bdev` returns. -/
inductive Created (b : String) (s : Session) : Session → Prop where
  /-- The bdev is marked already. -/
  | skip (h : s.mem.created b = some 1) : Created b s s
  /-- The NVMe-oF controller under the bdev is marked already. -/
  | shared (info : Bdev) (g : String) (hk : s.mem.known b = some (info, some g))
    (hp : info.productName = "NVMe disk") (h : s.mem.created b ≠ some 1)
    (hg : s.mem.baseCreated g = some 1) : Created b s (s.mark b)
  /-- The NVMe-oF controller is attached. -/
  | attach (info : Bdev) (g trtype adrfam traddr trsvcid subnqn : String)
    (hk : s.mem.known b = some (info, some g)) (hp : info.productName = "NVMe disk")
    (h : s.mem.created b ≠ some 1) (hg : s.mem.baseCreated g ≠ some 1)
    (hkg : s.mem.knownBase g = true) : Created b s
      (((s.sent (bdevNvmeAttachControllerCmd g trtype adrfam traddr trsvcid subnqn)).markBase
        g).mark b)
  /-- A Null or Malloc disk is created. -/
  | disk (info : Bdev) (base : Option String) (c : Cmd) (hk : s.mem.known b = some (info, base))
    (hp : info.productName ≠ "NVMe disk") (h : s.mem.created b ≠ some 1)
    (hc : createDiskCmd info = some c) : Created b s ((s.sent c).mark b)
  /-- The product is not supported. -/
  | unsupported (info : Bdev) (base : Option String) (hk : s.mem.known b = some (info, base))
    (hp : info.productName ≠ "NVMe disk") (h : s.mem.created b ≠ some 1)
    (hc : createDiskCmd info = none) : Created b s (s.mark b)

/-- How `create_bdev` is aborted. -/
inductive CreateAborted (b : String) (s : Session) : Session → Prop where
  | missing (h : ¬s.mem.Creatable b) : CreateAborted b s s
  | attach (info : Bdev) (g trtype adrfam traddr trsvcid subnqn : String)
    (hk : s.mem.known b = some (info, some g)) (hp : info.productName = "NVMe disk")
    (h : s.mem.created b ≠ some 1) (hg : s.mem.baseCreated g ≠ some 1)
    (hn : s.answers s.log.length = false) : CreateAborted b s
      (s.failed (bdevNvmeAttachControllerCmd g trtype adrfam traddr trsvcid subnqn))
  | disk (info : Bdev) (base : Option String) (c : Cmd) (hk : s.mem.known b = some (info, base))
    (h : s.mem.created b ≠ some 1) (hc : createDiskCmd info = some c)
    (hn : s.answers s.log.length = false) : CreateAborted b s (s.failed c)

/-- How `destroy_bdev` returns. -/
inductive Destroyed (b : String) (s : Session) : Session → Prop where
  /-- The bdev has users left. -/
  | counted (info : Bdev) (base : Option String) (u : ℤ) (hk : s.mem.known b = some (info, base))
    (hu : s.mem.used b = some u) (h : u ≠ 1) : Destroyed b s (s.count b (u - 1))
  /-- The NVMe-oF controller under the bdev has users left. -/
  | baseCounted (info : Bdev) (g : String) (v : ℤ) (hk : s.mem.known b = some (info, some g))
    (hp : info.productName = "NVMe disk") (hu : s.mem.used b = some 1)
    (hv : s.mem.baseUsed g = some v) (h : v ≠ 1) :
    Destroyed b s ((s.count b 0).countBase g (v - 1))
  /-- The NVMe-oF controller is detached. -/
  | detach (info : Bdev) (g : String) (hk : s.mem.known b = some (info, some g))
    (hp : info.productName = "NVMe disk") (hu : s.mem.used b = some 1)
    (hv : s.mem.baseUsed g = some 1) : Destroyed b s
      (((s.count b 0).countBase g 0).sent (bdevNvmeDetachControllerCmd g))
  /-- A Null or Malloc disk is deleted. -/
  | disk (info : Bdev) (base : Option String) (c : Cmd) (hk : s.mem.known b = some (info, base))
    (hp : info.productName ≠ "NVMe disk") (hu : s.mem.used b = some 1)
    (hc : destroyDiskCmd info = some c) : Destroyed b s ((s.count b 0).sent c)
  /-- The product is not supported. -/
  | unsupported (info : Bdev) (base : Option String) (hk : s.mem.known b = some (info, base))
    (hp : info.productName ≠ "NVMe disk") (hu : s.mem.used b = some 1)
    (hc : destroyDiskCmd info = none) : Destroyed b s (s.count b 0)

/-- How `destroy_bdev` is aborted. -/
inductive DestroyAborted (b : String) (s : Session) : Session → Prop where
  | missing (s' : Session) (h : ¬s.mem.Destroyable b) (hlog : s'.log = s.log) :
    DestroyAborted b s s'
  | detach (info : Bdev) (g : String) (hk : s.mem.known b = some (info, some g))
    (hp : info.productName = "NVMe disk") (hu : s.mem.used b = some 1)
    (hv : s.mem.baseUsed g = some 1) (hn : s.answers s.log.length = false) : DestroyAborted b s
      (((s.count b 0).countBase g 0).failed (bdevNvmeDetachControllerCmd g))
  | disk (info : Bdev) (base : Option String) (c : Cmd) (hk : s.mem.known b = some (info, base))
    (hp : info.productName ≠ "NVMe disk") (hu : s.mem.used b = some 1)
    (hc : destroyDiskCmd info = some c) (hn : s.answers s.log.length = false) :
    DestroyAborted b s ((s.count b 0).failed c)

/-! ## What the outcomes add to the log -/

theorem createDiskCmd_create {info : Bdev} {c : Cmd} (h : createDiskCmd info = some c) :
    IsCreateBdevCmd c := by
  unfold createDiskCmd at h
  split at h
  · rw [← Option.some.inj h]
    exact .null info
  · split at h
    · rw [← Option.some.inj h]
      exact .malloc info
    · simp at h

theorem destroyDiskCmd_destroy {info : Bdev} {c : Cmd} (h : destroyDiskCmd info = some c) :
    IsDestroyBdevCmd c := by
  unfold destroyDiskCmd at h
  split at h
  · rw [← Option.some.inj h]
    exact .null info
  · split at h
    · rw [← Option.some.inj h]
      exact .malloc info
    · simp at h

theorem Created.log {b : String} {s s' : Session} (h : Created b s s') :
    s'.log = s.log ∨ ∃ c, IsCreateBdevCmd c ∧ s'.log = s.log ++ [.sent c true] := by
  cases h with
  | skip => exact .inl rfl
  | shared => exact .inl rfl
  | attach => exact .inr ⟨_, .attach .., rfl⟩
  | disk info base c hk hp h hc => exact .inr ⟨c, createDiskCmd_create hc, rfl⟩
  | unsupported => exact .inl rfl

theorem CreateAborted.log {b : String} {s s' : Session} (h : CreateAborted b s s') :
    s'.log = s.log ∨ ∃ c, IsCreateBdevCmd c ∧ s'.log = s.log ++ [.sent c false] := by
  cases h with
  | missing => exact .inl rfl
  | attach => exact .inr ⟨_, .attach .., rfl⟩
  | disk info base c hk h hc => exact .inr ⟨c, createDiskCmd_create hc, rfl⟩

theorem Destroyed.log {b : String} {s s' : Session} (h : Destroyed b s s') :
    s'.log = s.log ∨ ∃ c, IsDestroyBdevCmd c ∧ s'.log = s.log ++ [.sent c true] := by
  cases h with
  | counted => exact .inl rfl
  | baseCounted => exact .inl rfl
  | detach => exact .inr ⟨_, .detach _, rfl⟩
  | disk info base c hk hp hu hc => exact .inr ⟨c, destroyDiskCmd_destroy hc, rfl⟩
  | unsupported => exact .inl rfl

theorem DestroyAborted.log {b : String} {s s' : Session} (h : DestroyAborted b s s') :
    s'.log = s.log ∨ ∃ c, IsDestroyBdevCmd c ∧ s'.log = s.log ++ [.sent c false] := by
  cases h with
  | missing _ _ hlog => exact .inl hlog
  | detach => exact .inr ⟨_, .detach _, rfl⟩
  | disk info base c hk hp hu hc => exact .inr ⟨c, destroyDiskCmd_destroy hc, rfl⟩

/-! ## The rules -/

section Rules

variable {b : String} {s : Session}

theorem createDisk_eq (info : Bdev) :
    createDisk info = (createDiskCmd info).elim (pure ()) sendRpc := by
  unfold createDisk createDiskCmd
  split
  · rfl
  · split <;> rfl

theorem destroyDisk_eq (info : Bdev) :
    destroyDisk info = (destroyDiskCmd info).elim (pure ()) sendRpc := by
  unfold destroyDisk destroyDiskCmd
  split
  · rfl
  · split <;> rfl

/-- `self.bdev_dict[b]`: the views of the memory at `b` are the fields of the entry. -/
theorem wp_bdevItem {Q : BdevEntry → Session → Prop} {E : Raised → Session → Prop}
    (hsome : ∀ e, s.mem.known b = some (e.info, e.base) → s.mem.created b = some e.created →
      s.mem.used b = some e.used → Q e s)
    (hnone : s.mem.known b = none → E .keyError s) : wp (bdevItem b) Q E s := by
  refine wp_bind.mpr (wp_item.mpr ⟨fun e he => ?_, fun he => hnone ?_⟩)
  · exact hsome e (by rw [Memory.known, he]; rfl) (by rw [Memory.created, he]; rfl)
      (by rw [Memory.used, he]; rfl)
  · rw [Memory.known, he]
    rfl

theorem wp_nvmfItem {g : String} {Q : NvmfEntry → Session → Prop} {E : Raised → Session → Prop}
    (hsome : ∀ e, s.mem.knownBase g = true → s.mem.baseCreated g = some e.created →
      s.mem.baseUsed g = some e.used → Q e s)
    (hnone : s.mem.knownBase g = false → E .keyError s) : wp (nvmfItem g) Q E s := by
  refine wp_bind.mpr (wp_item.mpr ⟨fun e he => ?_, fun he => hnone ?_⟩)
  · exact hsome e (by rw [Memory.knownBase, he]; rfl) (by rw [Memory.baseCreated, he]; rfl)
      (by rw [Memory.baseUsed, he]; rfl)
  · rw [Memory.knownBase, he]
    rfl

/-- A lookup in a transport ID. -/
theorem wp_tridItem {β : Type} {o : Option String} {f : String → Live β} {Q : β → Session → Prop}
    {E : Raised → Session → Prop} (hsome : ∀ v, wp (f v) Q E s)
    (hnone : o.isSome ≠ true → E .keyError s) : wp (item o >>= f) Q E s := by
  refine wp_bind.mpr (wp_item.mpr ⟨fun v _ => hsome v, fun h => hnone ?_⟩)
  simp [h]

theorem trid_complete {t : Trid} (h : t.complete = true) : t.trtype.isSome = true ∧
    t.adrfam.isSome = true ∧ t.traddr.isSome = true ∧ t.trsvcid.isSome = true ∧
    t.subnqn.isSome = true := by
  simpa [Trid.complete, and_assoc] using h

/-- Every way in which `create_bdev` ends. -/
theorem wp_createBdev (b : String) (s : Session) :
    wp (createBdev b) (fun _ => Created b s) (fun _ => CreateAborted b s) s := by
  refine wp_bind.mpr (wp_bdevItem (fun e hk hc _ => ?_) fun hk => .missing ?_)
  swap
  · rintro ⟨info, base, hk', -⟩
    simp [hk] at hk'
  dsimp only
  split
  · rename_i h1
    exact .skip (by rw [hc, h1])
  rename_i h1
  have hc1 : s.mem.created b ≠ some 1 := by simpa [hc] using h1
  split
  · rename_i hp
    -- A missing key means that the bdev was not creatable.
    have hmiss {o : Option String} (ho : e.info.trid.complete = true → o.isSome = true)
        (hn : o.isSome ≠ true) : CreateAborted b s s :=
      .missing fun h => hn (ho (h.disk hk hp).1)
    refine wp_bind.mpr (wp_item.mpr ⟨fun g hg => ?_, fun hg => .missing ?_⟩)
    · rw [hg] at hk
      refine wp_bind.mpr (wp_nvmfItem (fun n hn hnc _ => ?_) fun hn => .missing ?_)
      · split
        · rename_i hn1
          exact .shared e.info g hk hp hc1 (by rw [hnc, hn1])
        · rename_i hn1
          refine wp_tridItem (fun trtype => ?_) (hmiss fun h => (trid_complete h).1)
          refine wp_tridItem (fun adrfam => ?_) (hmiss fun h => (trid_complete h).2.1)
          refine wp_tridItem (fun traddr => ?_) (hmiss fun h => (trid_complete h).2.2.1)
          refine wp_tridItem (fun trsvcid => ?_) (hmiss fun h => (trid_complete h).2.2.2.1)
          refine wp_tridItem (fun subnqn => ?_) (hmiss fun h => (trid_complete h).2.2.2.2)
          have hg1 : s.mem.baseCreated g ≠ some 1 := by simpa [hnc] using hn1
          refine wp_bind.mpr (wp_sendRpc.mpr ⟨fun _ => ?_, fun ha => ?_⟩)
          · exact .attach e.info g _ _ _ _ _ hk hp hc1 hg1 hn
          · exact .attach e.info g _ _ _ _ _ hk hp hc1 hg1 ha
      · intro h
        obtain ⟨-, g', hg', hkg⟩ := h.disk hk hp
        cases hg'
        simp [hn] at hkg
    · intro h
      obtain ⟨-, g', hg', -⟩ := h.disk hk hp
      simp [hg] at hg'
  · rename_i hp
    rw [createDisk_eq]
    cases hd : createDiskCmd e.info with
    | none => exact .unsupported e.info e.base hk hp hc1 hd
    | some c =>
      refine wp_bind.mpr (wp_sendRpc.mpr ⟨fun _ => ?_, fun ha => ?_⟩)
      · exact .disk e.info e.base c hk hp hc1 hd
      · exact .disk e.info e.base c hk hc1 hd ha

/-- Every way in which `destroy_bdev` ends. -/
theorem wp_destroyBdev (b : String) (s : Session) :
    wp (destroyBdev b) (fun _ => Destroyed b s) (fun _ => DestroyAborted b s) s := by
  refine wp_bind.mpr (wp_bdevItem (fun e hk _ hu => ?_) fun hk => .missing _ ?_ rfl)
  swap
  · rintro ⟨info, base, hk', -⟩
    simp [hk] at hk'
  refine wp_bind.mpr (wp_assign.mpr ?_)
  dsimp only
  split
  · rename_i h1
    exact .counted e.info e.base e.used hk hu (by omega)
  rename_i h1
  have h1' : e.used = 1 := by omega
  rw [h1'] at hu
  have h0 : e.used - 1 = 0 := by omega
  rw [h0]
  split
  · rename_i hp
    refine wp_bind.mpr (wp_item.mpr ⟨fun g hg => ?_, fun hg => .missing _ ?_ rfl⟩)
    · rw [hg] at hk
      refine wp_bind.mpr (wp_nvmfItem (fun n hn _ hv => ?_) fun hn => .missing _ ?_ rfl)
      · rw [Session.remember_mem, baseUsed_setBdev] at hv
        refine wp_bind.mpr (wp_assign.mpr ?_)
        split
        · rename_i hv1
          exact .baseCounted e.info g n.used hk hp hu hv (by omega)
        · rename_i hv1
          have hv1' : n.used = 1 := by omega
          have hv0 : n.used - 1 = 0 := by omega
          rw [hv1'] at hv
          rw [hv0]
          exact wp_sendRpc.mpr ⟨fun _ => .detach e.info g hk hp hu hv,
            fun ha => .detach e.info g hk hp hu hv ha⟩
      · intro h
        obtain ⟨g', hg', hkg⟩ := h.disk hk hp
        cases hg'
        rw [Session.remember_mem, knownBase_setBdev] at hn
        simp [hn] at hkg
    · intro h
      obtain ⟨g', hg', -⟩ := h.disk hk hp
      simp [hg] at hg'
  · rename_i hp
    rw [destroyDisk_eq]
    cases hd : destroyDiskCmd e.info with
    | none => exact .unsupported e.info e.base hk hp hu hd
    | some c =>
      exact wp_sendRpc.mpr ⟨fun _ => .disk e.info e.base c hk hp hu hd,
        fun ha => .disk e.info e.base c hk hp hu hd ha⟩

end Rules

/-! ## Subsystems and namespaces -/

/-- `nvme_subsystem_list` is asked of the destination. -/
abbrev Session.askSubsys (s : Session) (ok : Bool) : Session :=
  s.asked .dst snapScript "nvme_subsystem_list" ok

/-- `nvme_namespace_list` is asked of the destination. -/
abbrev Session.askNs (s : Session) (ok : Bool) : Session :=
  s.asked .dst snapScript "nvme_namespace_list" ok

/-- How the step for a subsystem returns. -/
inductive SubsysEnsured (self : Manager) (nqn : String) (s : Session) : Session → Prop where
  | skip (h : ∃ n, s.mem.nvmeSubsysHist.lookup nqn = some n ∧ n ≠ 0) : SubsysEnsured self nqn s s
  | found (subsys : Subsys) (hs : self.nvmeSubsysDict.lookup nqn = some subsys)
    (h : s.mem.nvmeSubsysHist.lookup nqn = some 0)
    (hd : subsys.nqn ∈ s.world.dst.subsystems.map Subsys.nqn) :
    SubsysEnsured self nqn s ((s.askSubsys true).remember fun m => m.setHist nqn 1)
  | create (subsys : Subsys) (hs : self.nvmeSubsysDict.lookup nqn = some subsys)
    (h : s.mem.nvmeSubsysHist.lookup nqn = some 0)
    (hd : subsys.nqn ∉ s.world.dst.subsystems.map Subsys.nqn) :
    SubsysEnsured self nqn s (((s.askSubsys true).sent (createNvmeSubsysCmd subsys)).remember
      fun m => m.setHist nqn 1)

/-- How the step for a subsystem is aborted. -/
inductive SubsysAborted (self : Manager) (nqn : String) (s : Session) : Session → Prop where
  | missing (h : s.mem.nvmeSubsysHist.lookup nqn = none ∨ self.nvmeSubsysDict.lookup nqn = none) :
    SubsysAborted self nqn s s
  | ask (hn : ∃ n, s.answers n = false) : SubsysAborted self nqn s (s.askSubsys false)
  | create (subsys : Subsys) (hs : self.nvmeSubsysDict.lookup nqn = some subsys)
    (hd : subsys.nqn ∉ s.world.dst.subsystems.map Subsys.nqn) (hn : ∃ n, s.answers n = false) :
    SubsysAborted self nqn s ((s.askSubsys true).failed (createNvmeSubsysCmd subsys))

/-- How the step for a namespace returns. -/
inductive NsEnsured (ctrl : NvmeCtrl) (n : CtrlNs) (s : Session) : Session → Prop where
  | found (h : ∃ m ∈ s.world.dst.namespaces, m.uuid = n.uuid) : NsEnsured ctrl n s (s.askNs true)
  | create (h : ∀ m ∈ s.world.dst.namespaces, m.uuid ≠ n.uuid) :
    NsEnsured ctrl n s ((s.askNs true).sent (createNvmeNamespaceCmd ctrl n))

/-- How the step for a namespace is aborted. -/
inductive NsAborted (ctrl : NvmeCtrl) (n : CtrlNs) (s : Session) : Session → Prop where
  | ask (hn : ∃ n, s.answers n = false) : NsAborted ctrl n s (s.askNs false)
  | create (h : ∀ m ∈ s.world.dst.namespaces, m.uuid ≠ n.uuid) (hn : ∃ n, s.answers n = false) :
    NsAborted ctrl n s ((s.askNs true).failed (createNvmeNamespaceCmd ctrl n))

/-- Every way in which the step for a subsystem ends. -/
theorem wp_ensureNvmeSubsys (self : Manager) (nqn : String) (s : Session) :
    wp (ensureNvmeSubsys self nqn) (fun _ => SubsysEnsured self nqn s)
      (fun _ => SubsysAborted self nqn s) s := by
  refine wp_bind.mpr (wp_bind.mpr (wp_item.mpr ⟨fun hist hh => ?_, fun hh => .missing (.inl hh)⟩))
  split
  · rename_i h0
    rw [h0] at hh
    refine wp_bind.mpr (wp_item.mpr ⟨fun subsys hs => ?_, fun hs => .missing (.inr hs)⟩)
    refine wp_bind.mpr (wp_bind.mpr (wp_sendRecvRpc.mpr ⟨fun _ => ?_, fun hn => .ask ⟨_, hn⟩⟩))
    by_cases hd : subsys.nqn ∈ s.world.dst.subsystems.map Subsys.nqn
    · rw [wp_pure, decide_eq_true hd]
      exact .found subsys hs hh hd
    · rw [wp_pure, decide_eq_false hd]
      refine wp_bind.mpr (wp_sendRpc.mpr ⟨fun _ => ?_, fun hn => ?_⟩)
      · exact .create subsys hs hh hd
      · exact .create subsys hs hd ⟨_, hn⟩
  · rename_i h0
    exact .skip ⟨hist, hh, h0⟩

/-- Every way in which the step for a namespace ends. -/
theorem wp_ensureNvmeNamespace (ctrl : NvmeCtrl) (n : CtrlNs) (s : Session) :
    wp (ensureNvmeNamespace ctrl n) (fun _ => NsEnsured ctrl n s) (fun _ => NsAborted ctrl n s)
      s := by
  refine wp_bind.mpr (wp_bind.mpr (wp_sendRecvRpc.mpr ⟨fun _ => ?_, fun hn => .ask ⟨_, hn⟩⟩))
  by_cases hd : (s.world.dst.namespaces.any fun m => m.uuid = n.uuid) = true
  · rw [wp_pure, hd]
    obtain ⟨m, hm, hu⟩ := List.any_eq_true.mp hd
    exact .found ⟨m, hm, by simpa using hu⟩
  · have hnone : ∀ m ∈ s.world.dst.namespaces, m.uuid ≠ n.uuid := by
      intro m hm hu
      exact hd (List.any_eq_true.mpr ⟨m, hm, by simpa using hu⟩)
    rw [wp_pure, Bool.eq_false_iff.mpr hd]
    exact wp_sendRpc.mpr ⟨fun _ => .create hnone, fun hn => .create hnone ⟨_, hn⟩⟩

end DcPerf.LiveUpdate
