import DcPerf.LiveUpdate.Proofs.Steps
import DcPerf.LiveUpdate.Users

/-!
# The tables of bdevs

What `get_bdev_info` and `fill_bdev_hist` make of the replies of the source.
-/

namespace DcPerf.LiveUpdate

open DcPerf.Library

/-! ## The entries of `get_bdev_info` -/

section Entries

variable {bdev : Bdev} {ctrl : NvmfCtrl} {ctrls : List NvmfCtrl} {bdevs : List Bdev}

/-- The controller that a bdev is entered under: the last one with its transport ID. -/
def baseCtrl (ctrls : List NvmfCtrl) (bdev : Bdev) : Option NvmfCtrl :=
  ctrls.reverse.find? fun ctrl => bdev.trid = ctrl.trid

/-- The entry of a bdev. -/
def entryOf (ctrls : List NvmfCtrl) (bdev : Bdev) : Option BdevEntry :=
  if bdev.productName = "NVMe disk" then
    (baseCtrl ctrls bdev).map fun ctrl => ⟨bdev, some ctrl.name, 0, 0⟩
  else some ⟨bdev, none, 0, 0⟩

theorem baseCtrl_spec (h : baseCtrl ctrls bdev = some ctrl) : ctrl ∈ ctrls ∧ bdev.trid = ctrl.trid := by
  have hmem := List.mem_of_find?_eq_some h
  have htrid := List.find?_some h
  exact ⟨by simpa using hmem, by simpa using htrid⟩

theorem exists_baseCtrl (hc : ctrl ∈ ctrls) (ht : bdev.trid = ctrl.trid) :
    ∃ c, baseCtrl ctrls bdev = some c := by
  cases h : baseCtrl ctrls bdev with
  | none => exact absurd (List.find?_eq_none.mp h ctrl (by simpa using hc)) (by simpa using ht)
  | some c => exact ⟨c, rfl⟩

/-- The entry is under a controller of the name `g`. -/
theorem entryOf_base {g : String} : (entryOf ctrls bdev).any (fun e => e.base = some g) = true ↔
    bdev.productName = "NVMe disk" ∧ ∃ ctrl, baseCtrl ctrls bdev = some ctrl ∧ ctrl.name = g := by
  unfold entryOf
  by_cases hp : bdev.productName = "NVMe disk"
  · cases baseCtrl ctrls bdev <;> simp [hp]
  · simp [hp]

/-- The inner loop enters the bdev anew for each controller that matches. -/
theorem foldl_matchCtrl_entry (bdev : Bdev) (ctrls : List NvmfCtrl)
    (d : Dict String BdevEntry × Dict String NvmfEntry) (b : String) :
    (ctrls.foldl (matchCtrl bdev) d).1.lookup b =
      if b = bdev.name then
        ((baseCtrl ctrls bdev).map fun ctrl => ⟨bdev, some ctrl.name, 0, 0⟩).or (d.1.lookup b)
      else d.1.lookup b := by
  induction ctrls generalizing d with
  | nil => simp [baseCtrl]
  | cons ctrl ctrls ih =>
    have hbase : baseCtrl (ctrl :: ctrls) bdev =
        (baseCtrl ctrls bdev).or (if bdev.trid = ctrl.trid then some ctrl else none) := by
      unfold baseCtrl
      rw [List.reverse_cons, List.find?_append]
      by_cases h : bdev.trid = ctrl.trid <;> simp [h]
    rw [List.foldl_cons, ih, hbase]
    unfold matchCtrl
    by_cases hb : b = bdev.name
    · by_cases ht : bdev.trid = ctrl.trid
      · rw [if_pos ht, if_pos ht]
        cases baseCtrl ctrls bdev <;> simp [hb, Dict.lookup_set]
      · rw [if_neg ht, if_neg ht]
        simp
    · by_cases ht : bdev.trid = ctrl.trid
      · simp [ht, hb]
      · simp [ht, hb]

theorem enterBdev_entry (ctrls : List NvmfCtrl) (d : Dict String BdevEntry × Dict String NvmfEntry)
    (bdev : Bdev) (b : String) :
    (enterBdev ctrls d bdev).1.lookup b =
      if b = bdev.name then (entryOf ctrls bdev).or (d.1.lookup b) else d.1.lookup b := by
  unfold enterBdev entryOf
  split
  · exact foldl_matchCtrl_entry bdev ctrls d b
  · rw [Dict.lookup_set]
    simp

/-- Every name has the entry of the last bdev that has this name and an entry. -/
theorem bdevInfo_lookup (bdevs : List Bdev) (ctrls : List NvmfCtrl) (b : String) :
    (bdevInfo bdevs ctrls).1.lookup b =
      bdevs.reverse.findSome? fun bdev => if bdev.name = b then entryOf ctrls bdev else none := by
  induction bdevs using List.reverseRecOn with
  | nil => simp [bdevInfo]
  | append_singleton bdevs x ih =>
    have hstep : bdevInfo (bdevs ++ [x]) ctrls = enterBdev ctrls (bdevInfo bdevs ctrls) x := by
      simp [bdevInfo]
    rw [hstep, enterBdev_entry, ih, List.reverse_append, List.reverse_singleton,
      List.singleton_append, List.findSome?_cons]
    by_cases hb : b = x.name
    · rw [if_pos hb, if_pos hb.symm]
      cases entryOf ctrls x <;> rfl
    · rw [if_neg hb, if_neg fun h => hb h.symm]

theorem bdevInfo_source {b : String} {e : BdevEntry} (h : (bdevInfo bdevs ctrls).1.lookup b = some e) :
    ∃ bdev ∈ bdevs, bdev.name = b ∧ entryOf ctrls bdev = some e := by
  rw [bdevInfo_lookup] at h
  obtain ⟨bdev, hbdev, hentry⟩ := List.exists_of_findSome?_eq_some h
  split at hentry
  · rename_i hb
    exact ⟨bdev, by simpa using hbdev, hb, hentry⟩
  · cases hentry

theorem bdevInfo_mem {b : String} (h : ((bdevInfo bdevs ctrls).1.lookup b).isSome = true) :
    b ∈ bdevs.map Bdev.name := by
  obtain ⟨e, he⟩ := Option.isSome_iff_exists.mp h
  obtain ⟨bdev, hbdev, hb, -⟩ := bdevInfo_source he
  exact List.mem_map.mpr ⟨bdev, hbdev, hb⟩

/-- The entries of bdevs with distinct names. -/
theorem bdevInfo_entry (hn : (bdevs.map Bdev.name).Nodup) (hb : bdev ∈ bdevs) :
    (bdevInfo bdevs ctrls).1.lookup bdev.name = entryOf ctrls bdev := by
  cases he : (bdevInfo bdevs ctrls).1.lookup bdev.name with
  | some e =>
    obtain ⟨x, hx, hname, hentry⟩ := bdevInfo_source he
    rw [← List.inj_on_of_nodup_map hn hx hb hname, hentry]
  | none =>
    rw [bdevInfo_lookup, List.findSome?_eq_none_iff] at he
    have hnone := he bdev (by simpa using hb)
    rw [if_pos rfl] at hnone
    exact hnone.symm

theorem bdevInfo_countValues (hn : (bdevs.map Bdev.name).Nodup) (p : BdevEntry → Bool) :
    (bdevInfo bdevs ctrls).1.countValues p = bdevs.countP fun bdev => (entryOf ctrls bdev).any p := by
  rw [Dict.countValues_eq _ p hn fun b => bdevInfo_mem, List.countP_map]
  refine List.countP_congr fun bdev hb => ?_
  rw [Function.comp_apply, bdevInfo_entry hn hb]

end Entries

/-! ## The counts of `get_bdev_info` -/

section Counts

variable {ctrls : List NvmfCtrl} {bdevs : List Bdev}

/-- How often the controllers of the name `g` count a bdev. -/
def hits (ctrls : List NvmfCtrl) (g : String) (bdev : Bdev) : ℕ :=
  if bdev.productName = "NVMe disk" then
    ctrls.countP fun ctrl => decide (bdev.trid = ctrl.trid ∧ ctrl.name = g)
  else 0

theorem foldl_matchCtrl_used (bdev : Bdev) (ctrls : List NvmfCtrl)
    (d : Dict String BdevEntry × Dict String NvmfEntry) (g : String) :
    (ctrls.foldl (matchCtrl bdev) d).2.lookup g = (d.2.lookup g).map fun e =>
      { e with used := e.used +
          ctrls.countP fun ctrl => decide (bdev.trid = ctrl.trid ∧ ctrl.name = g) } := by
  induction ctrls generalizing d with
  | nil => simp
  | cons ctrl ctrls ih =>
    rw [List.foldl_cons, ih, List.countP_cons]
    unfold matchCtrl
    by_cases ht : bdev.trid = ctrl.trid
    · rw [if_pos ht, Dict.lookup_modify]
      by_cases hg : g = ctrl.name
      · subst hg
        cases d.2.lookup ctrl.name <;> simp [ht]
        omega
      · have hg' : ctrl.name ≠ g := fun h => hg h.symm
        simp [hg, hg']
    · simp [ht]

theorem enterBdev_used (ctrls : List NvmfCtrl) (d : Dict String BdevEntry × Dict String NvmfEntry)
    (bdev : Bdev) (g : String) :
    (enterBdev ctrls d bdev).2.lookup g =
      (d.2.lookup g).map fun e => { e with used := e.used + hits ctrls g bdev } := by
  unfold enterBdev hits
  split
  · exact foldl_matchCtrl_used bdev ctrls d g
  · simp

/-- The counts of the controllers, whatever their names and those of the bdevs. -/
theorem bdevInfo_used (bdevs : List Bdev) (ctrls : List NvmfCtrl) (g : String) :
    (bdevInfo bdevs ctrls).2.lookup g =
      if g ∈ ctrls.map NvmfCtrl.name then some ⟨0, ((bdevs.map (hits ctrls g)).sum : ℕ)⟩
      else none := by
  induction bdevs using List.reverseRecOn with
  | nil =>
    show (Dict.ofList NvmfCtrl.name (fun _ => (⟨0, 0⟩ : NvmfEntry)) ctrls).lookup g = _
    split
    · rename_i hg
      obtain ⟨ctrl, hctrl, rfl⟩ := List.mem_map.mp hg
      have hmem : ∃ v, (Dict.ofList NvmfCtrl.name (fun _ => (⟨0, 0⟩ : NvmfEntry)) ctrls).lookup
          ctrl.name = some v := Dict.exists_lookup_ofList hctrl
      obtain ⟨v, hv⟩ := hmem
      obtain ⟨-, -, -, rfl⟩ := Dict.exists_of_lookup_ofList hv
      exact hv
    · rename_i hg
      by_contra hne
      obtain ⟨v, hv⟩ := Option.ne_none_iff_exists'.mp hne
      obtain ⟨ctrl, hctrl, hname, -⟩ := Dict.exists_of_lookup_ofList hv
      exact hg (List.mem_map.mpr ⟨ctrl, hctrl, hname⟩)
  | append_singleton bdevs x ih =>
    have hstep : bdevInfo (bdevs ++ [x]) ctrls = enterBdev ctrls (bdevInfo bdevs ctrls) x := by
      simp [bdevInfo]
    rw [hstep, enterBdev_used, ih]
    split
    · simp
    · rfl

theorem hits_pos {g : String} {bdev : Bdev} (hp : bdev.productName = "NVMe disk") {ctrl : NvmfCtrl}
    (hb : baseCtrl ctrls bdev = some ctrl) (hg : ctrl.name = g) : 0 < hits ctrls g bdev := by
  obtain ⟨hctrl, ht⟩ := baseCtrl_spec hb
  rw [hits, if_pos hp]
  exact List.countP_pos_iff.mpr ⟨ctrl, hctrl, decide_eq_true ⟨ht, hg⟩⟩

end Counts

/-- What holds of an entry of `bdev_dict` under the name `b` when `get_bdev_info` returns. -/
structure BdevEntry.Fresh (nvmf : Dict String NvmfEntry) (b : String) (e : BdevEntry) : Prop where
  name : e.info.name = b
  created : e.created = 0
  used : e.used = 0
  disk : e.info.productName = "NVMe disk" → ∃ g, e.base = some g ∧ (nvmf.lookup g).isSome
  other : e.info.productName ≠ "NVMe disk" → e.base = none

/-- What holds of the tables. -/
structure TablesInv (d : Dict String BdevEntry × Dict String NvmfEntry) : Prop where
  fresh : ∀ b e, d.1.lookup b = some e → e.Fresh d.2 b
  created : ∀ g e, d.2.lookup g = some e → e.created = 0

theorem bdevInfo_inv (bdevs : List Bdev) (ctrls : List NvmfCtrl) :
    TablesInv (bdevInfo bdevs ctrls) := by
  constructor
  · intro b e he
    obtain ⟨bdev, -, rfl, hentry⟩ := bdevInfo_source he
    unfold entryOf at hentry
    split at hentry
    · rename_i hp
      obtain ⟨ctrl, hbase, rfl⟩ := Option.map_eq_some_iff.mp hentry
      refine ⟨rfl, rfl, rfl, fun _ => ⟨ctrl.name, rfl, ?_⟩, fun hn => absurd hp hn⟩
      rw [bdevInfo_used, if_pos (List.mem_map_of_mem (baseCtrl_spec hbase).1)]
      rfl
    · rename_i hp
      obtain rfl := Option.some.inj hentry
      exact ⟨rfl, rfl, rfl, fun hd => absurd hd hp, fun _ => rfl⟩
  · intro g e he
    rw [bdevInfo_used] at he
    split at he
    · rw [← Option.some.inj he]
    · cases he

/-! ## The counts of `fill_bdev_hist` -/

theorem lookup_foldl_modify {α : Type} (f : String → α → α) (keys : List String)
    (hk : keys.Nodup) (d : Dict String α) (b : String) :
    (keys.foldl (fun d k => d.modify k (f k)) d).lookup b =
      if b ∈ keys then (d.lookup b).map (f b) else d.lookup b := by
  induction keys generalizing d with
  | nil => rfl
  | cons k keys ih =>
    obtain ⟨hnotin, hrest⟩ := List.nodup_cons.mp hk
    rw [List.foldl_cons, ih hrest, Dict.lookup_modify]
    by_cases hb : b = k
    · subst hb
      simp [hnotin]
    · simp [hb]

/-- An entry of the table of bdevs at the start of the loops of `main`. -/
theorem memoryOf_lookup (src : Source) (b : String) :
    (memoryOf src).bdevDict.lookup b =
      ((bdevInfo src.bdevs src.nvmfCtrls).1.lookup b).map fun e =>
        { e with used := src.usersOf b } := by
  have hinv := (bdevInfo_inv src.bdevs src.nvmfCtrls).fresh
  refine (lookup_foldl_modify (fun k (e : BdevEntry) => { e with
      used := e.used + src.namespaces.countP (fun ns => ns.bdev = k) +
        (managerOf src).vblkCtrlDict.countValues fun ctrl => ctrl.bdev = k })
    _ (AList.keys_nodup _) _ b).trans ?_
  cases he : (bdevInfo src.bdevs src.nvmfCtrls).1.lookup b with
  | none => simp
  | some e =>
    have hmem : b ∈ (bdevInfo src.bdevs src.nvmfCtrls).1.keys :=
      AList.mem_keys.mp (AList.lookup_isSome.mp (by simp [he]))
    rw [if_pos hmem]
    simp [Source.usersOf, (hinv b e he).used]

/-- What the manager keeps for a bdev. -/
structure EntryOf (src : Source) (b : String) (info : Bdev) (base : Option String) : Prop where
  name : info.name = b
  disk : info.productName = "NVMe disk" → ∃ g, base = some g ∧ (memoryOf src).knownBase g = true
  other : info.productName ≠ "NVMe disk" → base = none

theorem entry_spec {src : Source} {b : String} {info : Bdev} {base : Option String}
    (h : src.entry b = some (info, base)) : EntryOf src b info base := by
  rw [Source.entry, memoryOf_lookup, Option.map_map, Option.map_eq_some_iff] at h
  obtain ⟨e, he, hinfo⟩ := h
  have hfresh := (bdevInfo_inv src.bdevs src.nvmfCtrls).fresh b e he
  obtain ⟨rfl, rfl⟩ := Prod.mk.inj hinfo
  exact ⟨hfresh.name, hfresh.disk, hfresh.other⟩

theorem baseOf_eq {src : Source} {b : String} {info : Bdev} {base : Option String}
    (h : src.entry b = some (info, base)) : src.baseOf b = base := by
  rw [Source.baseOf, h]
  rfl

end DcPerf.LiveUpdate
