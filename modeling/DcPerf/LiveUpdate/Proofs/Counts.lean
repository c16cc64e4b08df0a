import DcPerf.Library.RefCount
import DcPerf.LiveUpdate.Proofs.Blocks

/-!
# The counts of the manager

The `used` counts of the manager are those of a pool with two levels: a bdev counts its users, an
NVMe-oF controller its bdevs. In every run the commands about controllers and the deletions on the
source follow from the plan and this pool.
-/

namespace DcPerf.LiveUpdate

open DcPerf.Library

/-! ## The pool of a source -/

/-- The bdevs that are entered under the NVMe-oF controller `g`. -/
def owned (d : Dict String BdevEntry) (g : String) : Finset String :=
  d.keys.toFinset.filter fun b => (d.lookup b).bind BdevEntry.base = some g

theorem mem_owned {d : Dict String BdevEntry} {g b : String} :
    b ∈ owned d g ↔ (d.lookup b).bind BdevEntry.base = some g := by
  rw [owned, Finset.mem_filter, List.mem_toFinset]
  constructor
  · intro h
    exact h.2
  · intro h
    refine ⟨AList.mem_keys.mp (AList.lookup_isSome.mp ?_), h⟩
    cases hl : d.lookup b with
    | none => simp [hl] at h
    | some e => rfl

theorem owned_card (d : Dict String BdevEntry) (g : String) :
    (owned d g).card = d.countValues fun e => e.base = some g := by
  have hfilter : (d.keys.filter fun b => (d.lookup b).any fun e => e.base = some g).toFinset =
      owned d g := by
    ext b
    rw [List.mem_toFinset, List.mem_filter, mem_owned, AList.mem_keys.symm, ← AList.lookup_isSome]
    cases d.lookup b <;> simp
  rw [← hfilter, List.toFinset_card_of_nodup (d.keys_nodup.filter _),
    Dict.countValues_eq d _ d.keys_nodup fun b hb => AList.mem_keys.mp (AList.lookup_isSome.mp hb),
    List.countP_eq_length_filter]

/-- The count of an NVMe-oF controller, zero if there is none. -/
def sizeIn (nvmf : Dict String NvmfEntry) (g : String) : ℤ :=
  ((nvmf.lookup g).map NvmfEntry.used).getD 0

theorem sizeIn_eq (bdevs : List Bdev) (ctrls : List NvmfCtrl) (g : String) :
    sizeIn (bdevInfo bdevs ctrls).2 g =
      if g ∈ ctrls.map NvmfCtrl.name then ((bdevs.map (hits ctrls g)).sum : ℤ) else 0 := by
  rw [sizeIn, bdevInfo_used]
  split
  · rfl
  · rfl

/-- The bdevs that are entered under `g` are among those that its controllers count. -/
theorem hits_of_owned {bdevs : List Bdev} {ctrls : List NvmfCtrl} {b g : String}
    (h : b ∈ owned (bdevInfo bdevs ctrls).1 g) :
    g ∈ ctrls.map NvmfCtrl.name ∧ ∃ bdev ∈ bdevs, bdev.name = b ∧ 0 < hits ctrls g bdev := by
  obtain ⟨e, he, hbase⟩ := Option.bind_eq_some_iff.mp (mem_owned.mp h)
  obtain ⟨bdev, hbdev, hb, hentry⟩ := bdevInfo_source he
  obtain ⟨hp, ctrl, hctrl, hg⟩ := entryOf_base.mp (by rw [hentry]; simpa using hbase)
  exact ⟨List.mem_map.mpr ⟨ctrl, (baseCtrl_spec hctrl).1, hg⟩, bdev, hbdev, hb, hits_pos hp hctrl hg⟩

theorem owned_eq_empty {bdevs : List Bdev} {ctrls : List NvmfCtrl} {g : String}
    (hg : g ∉ ctrls.map NvmfCtrl.name) : owned (bdevInfo bdevs ctrls).1 g = ∅ := by
  rw [Finset.eq_empty_iff_forall_notMem]
  intro b hb
  exact hg (hits_of_owned hb).1

/-- No NVMe-oF controller has more bdevs than it counts. -/
theorem owned_le_size (bdevs : List Bdev) (ctrls : List NvmfCtrl) (g : String) :
    ((owned (bdevInfo bdevs ctrls).1 g).card : ℤ) ≤ sizeIn (bdevInfo bdevs ctrls).2 g := by
  rw [sizeIn_eq]
  split
  · have hsub : owned (bdevInfo bdevs ctrls).1 g ⊆
        ((bdevs.filter fun bdev => 0 < hits ctrls g bdev).map Bdev.name).toFinset := by
      intro b hb
      obtain ⟨-, bdev, hbdev, hname, hpos⟩ := hits_of_owned hb
      rw [List.mem_toFinset, List.mem_map]
      exact ⟨bdev, List.mem_filter.mpr ⟨hbdev, decide_eq_true hpos⟩, hname⟩
    have hcard := (Finset.card_le_card hsub).trans (List.toFinset_card_le _)
    rw [List.length_map, ← List.countP_eq_length_filter] at hcard
    exact Int.ofNat_le.mpr (hcard.trans (Dict.countP_le_sum (hits ctrls g) bdevs))
  · rename_i hg
    simp [owned_eq_empty hg]

theorem memoryOf_owned (src : Source) (g : String) :
    owned (memoryOf src).bdevDict g = owned (bdevInfo src.bdevs src.nvmfCtrls).1 g := by
  ext b
  rw [mem_owned, mem_owned, memoryOf_lookup]
  cases (bdevInfo src.bdevs src.nvmfCtrls).1.lookup b <;> simp

theorem object_iff {src : Source} {b : String} :
    b ∈ (memoryOf src).bdevDict.keys.toFinset ↔ (src.entry b).isSome = true := by
  rw [List.mem_toFinset, ← AList.mem_keys, ← AList.lookup_isSome, Source.entry,
    Option.isSome_map]

theorem object_of_baseOf {src : Source} {b g : String} (h : src.baseOf b = some g) :
    b ∈ (memoryOf src).bdevDict.keys.toFinset := by
  obtain ⟨x, hx, -⟩ := Option.bind_eq_some_iff.mp h
  exact object_iff.mpr (by rw [hx]; rfl)

theorem grouped_le_size (src : Source) (g : String) :
    ((memoryOf src).bdevDict.keys.toFinset.filter fun b => src.baseOf b = some g).card ≤
      (sizeIn (memoryOf src).bdevNvmfDict g).toNat := by
  have hle := owned_le_size src.bdevs src.nvmfCtrls g
  rw [← memoryOf_owned] at hle
  have heq : ((memoryOf src).bdevDict.keys.toFinset.filter fun b => src.baseOf b = some g) =
      owned (memoryOf src).bdevDict g := by
    refine Finset.filter_congr fun b _ => ?_
    rw [Source.baseOf, Source.entry]
    cases (memoryOf src).bdevDict.lookup b <;> simp
  have hsize : sizeIn (memoryOf src).bdevNvmfDict g =
      sizeIn (bdevInfo src.bdevs src.nvmfCtrls).2 g := rfl
  rw [heq, hsize]
  omega

/-- The counts with which the loops of `main` start. -/
def Source.pool (src : Source) : Pool String String where
  objects := (memoryOf src).bdevDict.keys.toFinset
  count := src.usersOf
  group := src.baseOf
  size g := (sizeIn (memoryOf src).bdevNvmfDict g).toNat
  grouped _ _ h := object_of_baseOf h
  bounded g := grouped_le_size src g

/-- The memory has the counts of the pool after the users of the bdevs `l` were released. -/
structure Counted (src : Source) (l : List String) (m : Memory) : Prop where
  used : ∀ b, m.used b = (src.entry b).map fun _ => src.pool.used l b
  base : ∀ g, m.baseUsed g =
    if (memoryOf src).knownBase g = true then some (src.pool.groupUsed l g) else none

theorem counted_start (src : Source) : Counted src [] (memoryOf src) := by
  constructor
  · intro b
    rw [Pool.used_nil, Memory.used, Source.entry, memoryOf_lookup]
    cases (bdevInfo src.bdevs src.nvmfCtrls).1.lookup b with
    | none => rfl
    | some e => rfl
  · intro g
    have hsize : (src.pool.size g : ℤ) = sizeIn (memoryOf src).bdevNvmfDict g := by
      have hle := owned_le_size src.bdevs src.nvmfCtrls g
      have hnonneg : 0 ≤ sizeIn (memoryOf src).bdevNvmfDict g := by
        show 0 ≤ sizeIn (bdevInfo src.bdevs src.nvmfCtrls).2 g
        omega
      exact Int.toNat_of_nonneg hnonneg
    rw [Pool.groupUsed_nil, hsize, Memory.baseUsed, Memory.knownBase, sizeIn]
    cases (memoryOf src).bdevNvmfDict.lookup g <;> simp

/-- The commands by which `destroy_bdev` deletes the bdev, after the users of the bdevs `l` were
released. -/
def deletions (src : Source) (l : List String) (b : String) : List Cmd :=
  if src.pool.Frees l b then
    (src.entry b).toList.flatMap fun e =>
      if e.1.productName = "NVMe disk" then
        (e.2.toList.filter fun g => src.pool.FreesGroup l b g).map bdevNvmeDetachControllerCmd
      else (destroyDiskCmd e.1).toList
  else []

section Destroy

variable {src : Source} {l : List String} {b : String} {s s' : Session}

theorem Counted.frees_iff (h : Counted src l s.mem) {info : Bdev} {base : Option String}
    (he : src.entry b = some (info, base)) {u : ℤ} (hu : s.mem.used b = some u) :
    src.pool.Frees l b ↔ u = 1 := by
  rw [h.used b, he] at hu
  have hval : src.pool.used l b = u := by simpa using hu
  rw [Pool.frees_iff, hval]

theorem Counted.freesGroup_iff (h : Counted src l s.mem) {g : String} {v : ℤ}
    (hf : src.pool.Frees l b) (hg : src.baseOf b = some g) (hv : s.mem.baseUsed g = some v) :
    src.pool.FreesGroup l b g ↔ v = 1 := by
  rw [h.base g] at hv
  split at hv
  · rw [Pool.freesGroup_iff hf hg, Option.some.inj hv]
  · simp at hv

/-- The count of the bdev changes, that of its NVMe-oF controller does not. -/
theorem Counted.count (h : Counted src l s.mem) {u : ℤ} (hu : s.mem.used b = some u)
    (hg : ∀ g, ¬(src.pool.Frees l b ∧ src.baseOf b = some g)) :
    Counted src (l ++ [b]) (s.count b (u - 1)).mem := by
  constructor
  · intro b'
    rw [Session.remember_mem, used_setUsed, Pool.used_snoc]
    by_cases hb : b' = b
    · subst hb
      rw [h.used b'] at hu
      rw [if_pos rfl, if_pos rfl, h.used b']
      cases he : src.entry b' with
      | none => rfl
      | some e =>
        have hval : src.pool.used l b' = u := by simpa [he] using hu
        simp [hval]
    · rw [if_neg hb, if_neg hb]
      exact h.used b'
  · intro g
    rw [Session.remember_mem, baseUsed_setBdev, h.base g, Pool.groupUsed_snoc_of_not (hg g)]

/-- Both counts change. -/
theorem Counted.countBase (h : Counted src l s.mem) {info : Bdev} {g : String} {u v : ℤ}
    (he : src.entry b = some (info, some g)) (hu : s.mem.used b = some u)
    (hf : src.pool.Frees l b) (hv : s.mem.baseUsed g = some v) :
    Counted src (l ++ [b]) ((s.count b (u - 1)).countBase g (v - 1)).mem := by
  have hbase : src.baseOf b = some g := baseOf_eq he
  constructor
  · intro b'
    rw [Session.remember_mem, Session.remember_mem, used_setNvmf, used_setUsed, Pool.used_snoc]
    by_cases hb : b' = b
    · subst hb
      have hval : src.pool.used l b' = u := by simpa [h.used b', he] using hu
      rw [if_pos rfl, if_pos rfl, hu, he]
      simp [hval]
    · rw [if_neg hb, if_neg hb]
      exact h.used b'
  · intro g'
    rw [Session.remember_mem, Session.remember_mem, baseUsed_setUsed, baseUsed_setBdev]
    by_cases hg : g' = g
    · subst hg
      have hstep := Pool.groupUsed_snoc hf hbase
      rw [h.base g'] at hv
      split at hv
      · rename_i hk
        have hval : src.pool.groupUsed l g' = v := Option.some.inj hv
        rw [if_pos rfl, h.base g', if_pos hk, if_pos hk, hstep, hval]
        rfl
      · simp at hv
    · have hnot : ¬(src.pool.Frees l b ∧ src.pool.group b = some g') := by
        rintro ⟨-, hgrp⟩
        have hsome : some g = some g' := hbase.symm.trans hgrp
        exact hg (Option.some.inj hsome).symm
      rw [if_neg hg, h.base g', Pool.groupUsed_snoc_of_not hnot]

/-- `destroy_bdev` deletes what the pool says. -/
theorem Destroyed.deletions (hd : Destroyed b s s') (hk : s.mem.known b = src.entry b)
    (h : Counted src l s.mem) : Counted src (l ++ [b]) s'.mem ∧
      s'.log = s.log ++ (deletions src l b).map (Event.sent · true) := by
  have hzero : (1 : ℤ) - 1 = 0 := by omega
  cases hd with
  | counted info base u hkn hu hne =>
    have he : src.entry b = some (info, base) := hk.symm.trans hkn
    have hf : ¬src.pool.Frees l b := fun hf => hne ((h.frees_iff he hu).mp hf)
    refine ⟨h.count hu fun g hg => hf hg.1, ?_⟩
    simp [deletions, hf]
  | baseCounted info g v hkn hp hu hv hne =>
    have he : src.entry b = some (info, some g) := hk.symm.trans hkn
    have hf : src.pool.Frees l b := (h.frees_iff he hu).mpr rfl
    have hg : ¬src.pool.FreesGroup l b g :=
      fun hg => hne ((h.freesGroup_iff hf (baseOf_eq he) hv).mp hg)
    refine ⟨h.countBase he hu hf hv, ?_⟩
    simp [deletions, hf, he, hp, hg]
  | detach info g hkn hp hu hv =>
    have he : src.entry b = some (info, some g) := hk.symm.trans hkn
    have hf : src.pool.Frees l b := (h.frees_iff he hu).mpr rfl
    have hg : src.pool.FreesGroup l b g := (h.freesGroup_iff hf (baseOf_eq he) hv).mpr rfl
    refine ⟨h.countBase he hu hf hv, ?_⟩
    simp [deletions, hf, he, hp, hg]
  | disk info base c hkn hp hu hc =>
    have he : src.entry b = some (info, base) := hk.symm.trans hkn
    have hf : src.pool.Frees l b := (h.frees_iff he hu).mpr rfl
    have hbase : src.baseOf b = none := (baseOf_eq he).trans ((entry_spec he).other hp)
    refine ⟨h.count hu fun g hg => by simp [hbase] at hg, ?_⟩
    simp [deletions, hf, he, hp, hc]
  | unsupported info base hkn hp hu hc =>
    have he : src.entry b = some (info, base) := hk.symm.trans hkn
    have hf : src.pool.Frees l b := (h.frees_iff he hu).mpr rfl
    have hbase : src.baseOf b = none := (baseOf_eq he).trans ((entry_spec he).other hp)
    refine ⟨h.count hu fun g hg => by simp [hbase] at hg, ?_⟩
    simp [deletions, hf, he, hp, hc]

theorem DestroyAborted.deletions (hd : DestroyAborted b s s') (hk : s.mem.known b = src.entry b)
    (h : Counted src l s.mem) : s'.log = s.log ∨
      ∃ c, deletions src l b = [c] ∧ s'.log = s.log ++ [.sent c false] := by
  cases hd with
  | missing _ _ hlog => exact .inl hlog
  | detach info g hkn hp hu hv =>
    have he : src.entry b = some (info, some g) := hk.symm.trans hkn
    have hf : src.pool.Frees l b := (h.frees_iff he hu).mpr rfl
    have hg : src.pool.FreesGroup l b g := (h.freesGroup_iff hf (baseOf_eq he) hv).mpr rfl
    exact .inr ⟨_, by simp [deletions, hf, he, hp, hg], rfl⟩
  | disk info base c hkn hp hu hc =>
    have he : src.entry b = some (info, base) := hk.symm.trans hkn
    have hf : src.pool.Frees l b := (h.frees_iff he hu).mpr rfl
    exact .inr ⟨c, by simp [deletions, hf, he, hp, hc], rfl⟩

end Destroy

/-! ## Removal in a run -/

/-- The command about a controller, or the deletion, that an event sends. -/
def Event.removalCmd? (e : Event) : Option Cmd :=
  e.cmd?.filter fun c => c.rpc.kind = .controller ∨ c.rpc.kind = .bdevDelete

/-- The bdev that an action takes a user off. -/
def Action.drops : Action → Option String
  | .release _ b => some b
  | _ => none

/-- Only a release takes a user off a bdev. -/
theorem drops_eq_some {a : Action} {b : String} : a.drops = some b ↔ ∃ c, a = .release c b := by
  cases a <;> simp [Action.drops]

/-- The bdevs that have lost a user. -/
def dropped (done : List Action) : List String := done.filterMap Action.drops

/-- The commands about controllers and the deletions of an action, after the actions `done`. -/
def removalCmds (src : Source) (done : List Action) (a : Action) : List Cmd :=
  a.fixed.toList ++ a.drops.toList.flatMap (deletions src (dropped done))

/-- What holds after the actions `done`. -/
structure CountInv (src : Source) (done : List Action) (s : Session) : Prop where
  counted : Counted src (dropped done) s.mem
  log : s.log.filterMap Event.removalCmd? = walk (removalCmds src) done

section Runs

variable {src : Source} {w : World} {answers : ℕ → Bool} {done rest : List Action} {a : Action}
  {s s' : Session}

theorem removalCmd_sent {c : Cmd} (ok : Bool)
    (h : c.rpc.kind = .controller ∨ c.rpc.kind = .bdevDelete) :
    (Event.sent c ok).removalCmd? = some c := by
  rcases h with h | h <;> simp [Event.removalCmd?, Event.cmd?, h]

theorem filterMap_removalCmd {P : Cmd → Prop} {l : List Event}
    (hP : ∀ c, P c → c.rpc.kind ≠ .controller ∧ c.rpc.kind ≠ .bdevDelete)
    (h : ∀ e ∈ l, ∀ c ∈ e.cmd?, P c) : l.filterMap Event.removalCmd? = [] := by
  refine List.filterMap_eq_nil_iff.mpr fun e he => ?_
  cases hc : e.cmd? with
  | none => simp [Event.removalCmd?, hc]
  | some c => simp [Event.removalCmd?, hc, hP c (h e he c hc)]

theorem deletions_kind {l : List String} {b : String} :
    ∀ c ∈ deletions src l b, IsDestroyBdevCmd c := by
  intro c hc
  unfold deletions at hc
  split at hc
  · obtain ⟨e, -, hc⟩ := List.mem_flatMap.mp hc
    split at hc
    · obtain ⟨g, -, rfl⟩ := List.mem_map.mp hc
      exact .detach g
    · exact destroyDiskCmd_destroy (Option.mem_toList.mp hc)
  · simp at hc

theorem filterMap_deletions (l : List String) (b : String) (ok : Bool) :
    ((deletions src l b).map (Event.sent · ok)).filterMap Event.removalCmd? =
      deletions src l b := by
  rw [List.filterMap_map]
  have hsome : ∀ c ∈ deletions src l b, (Event.removalCmd? ∘ (Event.sent · ok)) c = some c := by
    intro c hc
    exact removalCmd_sent ok (.inr (deletions_kind c hc).kind.1)
  rw [List.filterMap_congr hsome, List.filterMap_some]

theorem dropped_snoc (done : List Action) (a : Action) :
    dropped (done ++ [a]) = dropped done ++ a.drops.toList := by
  cases h : a.drops <;> simp [dropped, List.filterMap_append, h]

/-- An action that takes no user off a bdev keeps the counts. -/
theorem Counted.keep (h : Counted src (dropped done) s.mem) (ha : a.drops = none)
    (hk : Keeps Memory.counts s s') : Counted src (dropped (done ++ [a])) s'.mem := by
  obtain ⟨hused, hbase⟩ := Prod.mk.inj hk
  rw [dropped_snoc, ha, Option.toList_none, List.append_nil]
  constructor
  · intro b
    rw [hused]
    exact h.used b
  · intro g
    rw [hbase]
    exact h.base g

theorem walk_keep (hd : a.drops = none) :
    walk (removalCmds src) (done ++ [a]) = walk (removalCmds src) done ++ a.fixed.toList := by
  simp [removalCmds, hd]

theorem walk_release (c : Cmd) (b : String) :
    walk (removalCmds src) (done ++ [.release c b]) =
      walk (removalCmds src) done ++ ([c] ++ deletions src (dropped done) b) := by
  simp [removalCmds, Action.fixed, Action.drops]

/-- A command about a controller is added to the removals of the log. -/
theorem CountInv.log_sent (h : CountInv src done s) {c : Cmd} (hc : c.rpc.kind = .controller)
    (ok : Bool) : (s.log ++ [Event.sent c ok]).filterMap Event.removalCmd? =
      walk (removalCmds src) done ++ [c] := by
  simp [List.filterMap_append, removalCmd_sent ok (.inl hc), h.log]

/-- An action that takes no user off a bdev, and whose commands are not fixed, removes nothing. -/
theorem not_removal (ha : a ∈ plan (managerOf w.src)) (hd : a.drops = none) (hf : a.fixed = none)
    {c : Cmd} (hc : a.Sends c) : c.rpc.kind ≠ .controller ∧ c.rpc.kind ≠ .bdevDelete := by
  rcases sendsKind ha hc with ⟨b, -, -, hk⟩ | ⟨c', b, hb, -, -⟩ | ⟨nqn, -, hk⟩ |
    ⟨ctrl, n, -, hk⟩ | ⟨hc', -⟩
  · simp [hk]
  · simp [hb, Action.drops] at hd
  · simp [hk]
  · simp [hk]
  · simp [hf] at hc'

/-- An action that takes no user off a bdev sends its fixed command, if it has one. -/
theorem perform_removals_keep (ha : a ∈ plan (managerOf w.src)) (hd : a.drops = none)
    (h : CountInv w.src done s) :
    wp (perform (managerOf w.src) a)
      (fun _ s' => s'.log.filterMap Event.removalCmd? = walk (removalCmds w.src) (done ++ [a]))
      (fun _ s' => s'.log.filterMap Event.removalCmd? = walk (removalCmds w.src) (done ++ [a]))
      s := by
  by_cases hf : a.fixed = none
  · rw [walk_keep hd, hf, Option.toList_none, List.append_nil]
    have hquiet : ∀ c, a.Sends c → c.rpc.kind ≠ .controller ∧ c.rpc.kind ≠ .bdevDelete :=
      fun c hc => not_removal ha hd hf hc
    refine wp_mono (perform_grows (managerOf w.src) a s) ?_ ?_
    · rintro _ s' ⟨-, l, hl, -, hP, -⟩
      rw [hl, List.filterMap_append, filterMap_removalCmd hquiet hP, List.append_nil, h.log]
    · rintro _ s' ⟨l, hl, -, hP, -⟩
      rw [hl, List.filterMap_append, filterMap_removalCmd hquiet hP, List.append_nil, h.log]
  · cases a with
    | send c =>
      have hk := fixed_kind ha (c := c) rfl
      rw [walk_keep hd]
      exact wp_sendRpc.mpr ⟨fun _ => h.log_sent hk true, fun _ => h.log_sent hk false⟩
    | release c b => simp [Action.drops] at hd
    | create b => simp [Action.fixed] at hf
    | subsys nqn => simp [Action.fixed] at hf
    | ns ctrl n => simp [Action.fixed] at hf
    | missing => simp [Action.fixed] at hf

/-- A release sends its command and then deletes what the pool says. -/
theorem release_countInv {c : Cmd} {b : String} (ha : .release c b ∈ plan (managerOf w.src))
    (hs : Steady w answers s) (h : CountInv w.src done s) :
    wp (perform (managerOf w.src) (.release c b))
      (fun _ => CountInv w.src (done ++ [.release c b]))
      (fun _ s' => s'.log.filterMap Event.removalCmd? <+:
        walk (removalCmds w.src) (done ++ [.release c b])) s := by
  have hk := fixed_kind ha (c := c) rfl
  have hcmd : walk (removalCmds w.src) done ++ [c] <+:
      walk (removalCmds w.src) (done ++ [.release c b]) := by
    rw [walk_release, ← List.append_assoc]
    exact List.prefix_append _ _
  refine wp_bind.mpr (wp_sendRpc.mpr ⟨fun _ => ?_, fun _ => ?_⟩)
  · refine wp_mono (wp_destroyBdev b (s.sent c)) ?_ ?_
    · intro _ s' hdes
      obtain ⟨hcount, hlog⟩ := hdes.deletions (hs.known b) h.counted
      refine ⟨?_, ?_⟩
      · rw [dropped_snoc]
        exact hcount
      · rw [hlog, List.filterMap_append, Session.sent_log, h.log_sent hk, filterMap_deletions,
          walk_release, List.append_assoc]
    · intro _ s' hdes
      rcases hdes.deletions (hs.known b) h.counted with hlog | ⟨c', hc', hlog⟩
      · rw [hlog, Session.sent_log, h.log_sent hk]
        exact hcmd
      · have hdel : IsDestroyBdevCmd c' := by
          have hmem : c' ∈ deletions w.src (dropped done) b := by simp [hc']
          exact deletions_kind c' hmem
        rw [hlog, List.filterMap_append, Session.sent_log, h.log_sent hk, walk_release, hc']
        simp [removalCmd_sent false (.inr hdel.kind.1)]
  · rw [Session.failed_log, h.log_sent hk]
    exact hcmd

/-- Every action does to the counts what it does to the pool, and sends the commands that follow
from it. -/
theorem perform_countInv (hp : planOf w.src = done ++ a :: rest) (hs : Steady w answers s)
    (h : CountInv w.src done s) :
    wp (perform (managerOf w.src) a) (fun _ => CountInv w.src (done ++ [a]))
      (fun _ s' => s'.log.filterMap Event.removalCmd? <+: walk (removalCmds w.src) (done ++ [a]))
      s := by
  have ha : a ∈ plan (managerOf w.src) := by
    show a ∈ planOf w.src
    simp [hp]
  cases hd : a.drops with
  | none =>
    have hcounts := perform_counts (managerOf w.src) (a := a) (fun c b hb => by
      rw [hb] at hd
      simp [Action.drops] at hd) s
    refine wp_mono (wp_and hcounts (perform_removals_keep ha hd h)) ?_ ?_
    · rintro _ s' ⟨hk, hlog⟩
      exact ⟨h.counted.keep hd hk, hlog⟩
    · rintro _ s' ⟨-, hlog⟩
      rw [hlog]
  | some b =>
    obtain ⟨c, rfl⟩ := drops_eq_some.mp hd
    exact release_countInv ha hs h

/-- The actions that a run can reach: it ends at the first name that is not listed. -/
def reached (src : Source) : List Action := (planOf src).takeWhile (· ≠ .missing)

/-- Actions before a first missing name are reached. -/
theorem prefix_reached {src : Source} {done rest : List Action} (hp : planOf src = done ++ rest)
    (hdone : .missing ∉ done) : done <+: reached src := by
  have hall : ∀ a ∈ done, (decide (a ≠ .missing)) = true := by
    intro a ha
    rw [decide_eq_true_eq]
    rintro rfl
    exact hdone ha
  unfold reached
  rw [hp, List.takeWhile_append_of_pos hall]
  exact List.prefix_append _ _

/-- The commands about controllers and the deletions in a run. Nothing is sent that the plan has after
a name that is not listed. -/
theorem wp_removals (w : World) (answers : ℕ → Bool) :
    wp main (fun _ s => Steady w answers s ∧ CountInv w.src (planOf w.src) s ∧
        .missing ∉ planOf w.src)
      (fun _ s => Halted w s ∧
        s.log.filterMap Event.removalCmd? <+: walk (removalCmds w.src) (reached w.src))
      (start w answers) := by
  have hasked {s : Session} (h : ∀ e ∈ s.log, e.cmd? = none) :
      s.log.filterMap Event.removalCmd? = [] :=
    filterMap_removalCmd (P := fun _ => False) (fun _ h => h.elim)
      fun e he c hc => by simp [h e he] at hc
  refine wp_main w answers (I := fun done s => CountInv w.src done s ∧ .missing ∉ done)
    (J := fun s => s.log.filterMap Event.removalCmd? <+: walk (removalCmds w.src) (reached w.src))
    (fun s hs => ⟨⟨by rw [hs.mem]; exact counted_start w.src, hasked hs.asked⟩, by simp⟩)
    (fun _ s hs => by rw [hasked hs.asked]; exact List.nil_prefix) ?_
  rintro done a rest hp s hs ⟨hcount, hdone⟩
  by_cases ha : a = .missing
  · subst ha
    refine (wp_throw Raised.keyError).mpr ?_
    rw [hcount.log]
    exact walk_prefix (prefix_reached hp hdone)
  · have hnext : .missing ∉ done ++ [a] := by
      simp only [List.mem_append, List.mem_singleton, not_or]
      exact ⟨hdone, fun h => ha h.symm⟩
    have hp' : planOf w.src = (done ++ [a]) ++ rest := by simp [hp]
    refine wp_mono (perform_countInv hp hs hcount) (fun _ _ h => ⟨h, hnext⟩) fun _ s' hlog => ?_
    exact hlog.trans <| walk_prefix (prefix_reached hp' hnext)

theorem run_reached (w : World) (answers : ℕ → Bool) :
    Halted w (finalState (run w answers)) ∧
      (finalState (run w answers)).log.filterMap Event.removalCmd? <+:
        walk (removalCmds w.src) (reached w.src) := by
  refine run_final (wp_mono (wp_removals w answers) ?_ fun _ _ h => h)
  rintro _ s ⟨hs, hcount, hplan⟩
  refine ⟨hs.halted, ?_⟩
  rw [hcount.log]
  exact walk_prefix (prefix_reached (List.append_nil _).symm hplan)

theorem run_removals (w : World) (answers : ℕ → Bool) :
    Halted w (finalState (run w answers)) ∧
      (finalState (run w answers)).log.filterMap Event.removalCmd? <+:
        walk (removalCmds w.src) (planOf w.src) := by
  obtain ⟨hh, hl⟩ := run_reached w answers
  exact ⟨hh, hl.trans <| walk_prefix (List.takeWhile_prefix _)⟩

theorem run_returned_removals {w : World} {answers : ℕ → Bool} (h : Returned (run w answers)) :
    Steady w answers (finalState (run w answers)) ∧
      (finalState (run w answers)).log.filterMap Event.removalCmd? =
        walk (removalCmds w.src) (planOf w.src) := by
  obtain ⟨hs, hcount, -⟩ := run_returned (wp_removals w answers) h
  exact ⟨hs, hcount.log⟩

/-- A run that returns has looked up no name in vain. -/
theorem missing_not_mem {w : World} {answers : ℕ → Bool} (h : Returned (run w answers)) :
    .missing ∉ planOf w.src :=
  (run_returned (wp_removals w answers) h).2.2

end Runs

end DcPerf.LiveUpdate
