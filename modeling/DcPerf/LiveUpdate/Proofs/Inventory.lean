import DcPerf.LiveUpdate.Inventory
import DcPerf.LiveUpdate.Proofs.Creation

/-!
# The tables and the sizes of the bdevs

A bdev is entered under the last controller that matches it, and every match is counted; the two agree
when there is one match. The size of a copied disk is rounded twice.
-/

namespace DcPerf.LiveUpdate

open DcPerf.Library

/-! ## The tables -/

section Tables

variable {bdevs : List Bdev} {ctrls : List NvmfCtrl}

/-- A controller with a name of its own counts a bdev that is on it once. -/
theorem hits_of_nodup (hn : (ctrls.map NvmfCtrl.name).Nodup) {ctrl : NvmfCtrl} (hc : ctrl ∈ ctrls)
    (bdev : Bdev) : hits ctrls ctrl.name bdev = if bdev.isOn ctrl = true then 1 else 0 := by
  have hname : ∀ c ∈ ctrls, c.name = ctrl.name ↔ c = ctrl := fun c hmem =>
    ⟨fun h => List.inj_on_of_nodup_map hn hmem hc h, fun h => by rw [h]⟩
  have hone : ctrls.countP (fun c => c == ctrl) = 1 :=
    List.count_eq_one_of_mem (List.Nodup.of_map _ hn) hc
  unfold hits Bdev.isOn
  by_cases hp : bdev.productName = "NVMe disk"
  · by_cases ht : bdev.trid = ctrl.trid
    · rw [if_pos hp, if_pos (decide_eq_true ⟨hp, ht⟩), ← hone]
      refine List.countP_congr fun c hmem => ?_
      rw [decide_eq_true_iff, hname c hmem, beq_iff_eq]
      refine ⟨And.right, ?_⟩
      rintro rfl
      exact ⟨ht, rfl⟩
    · rw [if_pos hp, if_neg (by simp [ht]), List.countP_eq_zero]
      intro c hmem
      rw [decide_eq_true_iff, hname c hmem]
      rintro ⟨htrid, rfl⟩
      exact ht htrid
  · simp [hp]

/-- Every controller counts the NVMe disks on it. -/
theorem bdevInfo_counted (hn : (ctrls.map NvmfCtrl.name).Nodup) {ctrl : NvmfCtrl} (hc : ctrl ∈ ctrls) :
    (bdevInfo bdevs ctrls).2.lookup ctrl.name =
      some ⟨0, bdevs.countP fun bdev => bdev.isOn ctrl⟩ := by
  rw [bdevInfo_used, if_pos (List.mem_map_of_mem hc),
    Dict.sum_eq_countP fun bdev _ => hits_of_nodup hn hc bdev]

/-- An entry is under a controller when that is the last one that matches. -/
theorem entryOf_any (hn : (ctrls.map NvmfCtrl.name).Nodup) {ctrl : NvmfCtrl} (hc : ctrl ∈ ctrls)
    (bdev : Bdev) : (entryOf ctrls bdev).any (fun e => e.base = some ctrl.name) = true ↔
      bdev.productName = "NVMe disk" ∧ baseCtrl ctrls bdev = some ctrl := by
  rw [entryOf_base]
  refine and_congr_right fun _ => ⟨?_, fun h => ⟨ctrl, h, rfl⟩⟩
  rintro ⟨c, hbase, hname⟩
  rw [hbase, List.inj_on_of_nodup_map hn (baseCtrl_spec hbase).1 hc hname]

theorem entered_iff (hn : (bdevs.map Bdev.name).Nodup) {bdev : Bdev} (hb : bdev ∈ bdevs) :
    ((bdevInfo bdevs ctrls).1.lookup bdev.name).isSome = true ↔
      (bdev.productName = "NVMe disk" → ∃ ctrl ∈ ctrls, bdev.trid = ctrl.trid) := by
  rw [bdevInfo_entry hn hb, entryOf]
  split
  · rename_i hp
    rw [Option.isSome_map, Option.isSome_iff_exists]
    constructor
    · rintro ⟨ctrl, hbase⟩ _
      exact ⟨ctrl, baseCtrl_spec hbase⟩
    · intro h
      obtain ⟨ctrl, hctrl, ht⟩ := h hp
      exact exists_baseCtrl hctrl ht
  · rename_i hp
    simp [hp]

theorem bdevInfo_based {b : String} {e : BdevEntry} (he : (bdevInfo bdevs ctrls).1.lookup b = some e)
    (hp : e.info.productName = "NVMe disk") :
    ∃ ctrl ∈ ctrls, e.base = some ctrl.name ∧ e.info.trid = ctrl.trid := by
  obtain ⟨bdev, -, -, hentry⟩ := bdevInfo_source he
  unfold entryOf at hentry
  split at hentry
  · obtain ⟨ctrl, hbase, rfl⟩ := Option.map_eq_some_iff.mp hentry
    exact ⟨ctrl, (baseCtrl_spec hbase).1, rfl, (baseCtrl_spec hbase).2⟩
  · rename_i hnot
    obtain rfl := Option.some.inj hentry
    exact absurd hp hnot

/-- A controller counts every NVMe disk on it; those that are entered under it are the ones for which
it is the last match. -/
theorem counted_iff (hb : (bdevs.map Bdev.name).Nodup) (hc : (ctrls.map NvmfCtrl.name).Nodup)
    {ctrl : NvmfCtrl} (hctrl : ctrl ∈ ctrls) :
    (∃ n, (bdevInfo bdevs ctrls).2.lookup ctrl.name = some n ∧
      n.used = (bdevInfo bdevs ctrls).1.countValues fun e => e.base = some ctrl.name) ↔
      ∀ bdev ∈ bdevs, bdev.isOn ctrl = true → baseCtrl ctrls bdev = some ctrl := by
  have hentered : (bdevInfo bdevs ctrls).1.countValues (fun e => e.base = some ctrl.name) =
      bdevs.countP fun bdev => (entryOf ctrls bdev).any fun e => e.base = some ctrl.name :=
    bdevInfo_countValues hb _
  have hweak : ∀ bdev ∈ bdevs, (entryOf ctrls bdev).any (fun e => e.base = some ctrl.name) = true →
      bdev.isOn ctrl = true := by
    intro bdev _ h
    obtain ⟨hp, hbase⟩ := (entryOf_any hc hctrl bdev).mp h
    exact decide_eq_true ⟨hp, (baseCtrl_spec hbase).2⟩
  rw [bdevInfo_counted hc hctrl, hentered]
  constructor
  · rintro ⟨n, hn, hused⟩ bdev hbdev hon
    obtain rfl := Option.some.inj hn
    have hany := Dict.of_countP_eq hweak (Int.ofNat.inj hused).symm bdev hbdev hon
    exact ((entryOf_any hc hctrl bdev).mp hany).2
  · intro h
    have heq : bdevs.countP (fun bdev => bdev.isOn ctrl) =
        bdevs.countP fun bdev => (entryOf ctrls bdev).any fun e => e.base = some ctrl.name := by
      refine List.countP_congr fun bdev hbdev => ⟨fun hon => ?_, hweak bdev hbdev⟩
      exact (entryOf_any hc hctrl bdev).mpr ⟨(of_decide_eq_true hon).1, h bdev hbdev hon⟩
    exact ⟨_, rfl, congrArg Int.ofNat heq⟩

/-- The tables are consistent exactly when every NVMe disk has the transport ID of one controller. -/
theorem consistent_iff {bdevs : List Bdev} {ctrls : List NvmfCtrl}
    (hb : (bdevs.map Bdev.name).Nodup) (hc : (ctrls.map NvmfCtrl.name).Nodup) :
    Consistent bdevs ctrls (bdevInfo bdevs ctrls) ↔
      ∀ bdev ∈ bdevs, bdev.productName = "NVMe disk" →
        ∃! ctrl, ctrl ∈ ctrls ∧ bdev.trid = ctrl.trid := by
  constructor
  · rintro ⟨hentered, -, hcounted⟩ bdev hbdev hp
    obtain ⟨ctrl, hctrl, ht⟩ := (entered_iff hb hbdev).mp (hentered bdev hbdev) hp
    refine ⟨ctrl, ⟨hctrl, ht⟩, ?_⟩
    rintro ctrl' ⟨hctrl', ht'⟩
    -- The bdev is entered under both controllers.
    have hbase := (counted_iff hb hc hctrl).mp (hcounted ctrl hctrl) bdev hbdev
      (decide_eq_true ⟨hp, ht⟩)
    have hbase' := (counted_iff hb hc hctrl').mp (hcounted ctrl' hctrl') bdev hbdev
      (decide_eq_true ⟨hp, ht'⟩)
    rw [hbase] at hbase'
    exact (Option.some.inj hbase').symm
  · intro hone
    refine ⟨fun bdev hbdev => ?_, fun b e => bdevInfo_based, fun ctrl hctrl => ?_⟩
    · refine (entered_iff hb hbdev).mpr fun hp => ?_
      obtain ⟨ctrl, ⟨hctrl, ht⟩, -⟩ := hone bdev hbdev hp
      exact ⟨ctrl, hctrl, ht⟩
    · refine (counted_iff hb hc hctrl).mpr fun bdev hbdev hon => ?_
      obtain ⟨hp, ht⟩ := of_decide_eq_true hon
      obtain ⟨c, hbase⟩ := exists_baseCtrl hctrl ht
      rw [hbase, (hone bdev hbdev hp).unique (baseCtrl_spec hbase) ⟨hctrl, ht⟩]

/-- A transport ID of a TCP target. -/
def tcpTrid (subnqn : String) : Trid :=
  ⟨some "TCP", some "IPv4", some "192.168.1.2", some "4420", some subnqn⟩

def diskOn (name subnqn : String) : Bdev := ⟨name, "NVMe disk", 512, 2048, "", tcpTrid subnqn⟩

def ctrlOn (name subnqn : String) : NvmfCtrl := ⟨name, tcpTrid subnqn⟩

/-- Two disks on one controller each. -/
theorem consistent_two : Consistent [diskOn "A" "a", diskOn "B" "b"]
    [ctrlOn "nvmeA" "a", ctrlOn "nvmeB" "b"]
    (bdevInfo [diskOn "A" "a", diskOn "B" "b"] [ctrlOn "nvmeA" "a", ctrlOn "nvmeB" "b"]) := by
  refine (consistent_iff (by decide) (by decide)).mpr ?_
  simp [diskOn, ctrlOn, tcpTrid, ExistsUnique]

/-- A disk is counted by the first of two controllers with its transport ID, and is entered under the
second one. -/
theorem not_consistent_twice : ([diskOn "A" "a"].map Bdev.name).Nodup ∧
    ([ctrlOn "nvmeA" "a", ctrlOn "nvmeB" "a"].map NvmfCtrl.name).Nodup ∧
      ¬Consistent [diskOn "A" "a"] [ctrlOn "nvmeA" "a", ctrlOn "nvmeB" "a"]
        (bdevInfo [diskOn "A" "a"] [ctrlOn "nvmeA" "a", ctrlOn "nvmeB" "a"]) := by
  refine ⟨by decide, by decide, fun h => ?_⟩
  obtain ⟨n, hn, hused⟩ := h.counted (ctrlOn "nvmeA" "a") (by simp)
  have hone : n = ⟨0, 1⟩ := (Option.some.inj hn).symm
  rw [hone] at hused
  exact absurd hused (by decide)

end Tables

/-! ## The sizes -/

section Sizes

variable {s : Session} {b : String} {info : Bdev} {base : Option String}

/-- A number of units that is rounded down to blocks is restored from the units that the blocks fill,
exactly when the units that they leave are whole. -/
theorem floor_floor_iff {block : ℕ} (hb : 0 < block) (size unit : ℕ) :
    block * (size * unit / block) / unit * unit / block = size * unit / block ↔
      unit ∣ size * unit % block := by
  have hsum : block * (size * unit / block) + size * unit % block = size * unit := Nat.div_add_mod _ _
  have hdvd : unit ∣ size * unit % block ↔ unit ∣ block * (size * unit / block) := by
    constructor
    · intro h
      refine (Nat.dvd_add_left h).mp ?_
      rw [hsum]
      exact Nat.dvd_mul_left unit size
    · intro h
      refine (Nat.dvd_add_right h).mp ?_
      rw [hsum]
      exact Nat.dvd_mul_left unit size
  rw [hdvd]
  generalize size * unit / block = n
  constructor
  · intro h
    have hle : block * n ≤ block * n / unit * unit :=
      calc block * n = block * (block * n / unit * unit / block) := by rw [h]
        _ ≤ block * n / unit * unit := Nat.mul_div_le _ _
    have heq : block * n / unit * unit = block * n := Nat.le_antisymm (Nat.div_mul_le_self _ _) hle
    exact Nat.dvd_of_mod_eq_zero (by have := Nat.div_add_mod' (block * n) unit; omega)
  · intro h
    rw [Nat.div_mul_cancel h]
    exact Nat.mul_div_cancel_left n hb

/-- A Null or Malloc disk that is not marked yet is created with one command. -/
theorem createBdev_log {c : Cmd} (hk : s.mem.known b = some (info, base))
    (hnew : s.mem.created b ≠ some 1) (hc : createDiskCmd info = some c) :
    ∃ ok, (finalState (createBdev b s)).log = s.log ++ [.sent c ok] := by
  have hdisk : info.productName ≠ "NVMe disk" := by
    rcases createDiskCmd_cases hc with ⟨hp, -⟩ | ⟨hp, -⟩ <;> simp [hp]
  have hsame {info' : Bdev} {base' : Option String} (hk' : s.mem.known b = some (info', base')) :
      info' = info := (Prod.mk.inj (Option.some.inj (hk'.symm.trans hk))).1
  refine wp_finalState (P := fun t => ∃ ok, t.log = s.log ++ [.sent c ok])
    (wp_mono (wp_createBdev b s) ?_ ?_)
  · intro _ t ht
    cases ht with
    | skip h => exact absurd h hnew
    | shared info' g hk' hp => exact absurd (hsame hk' ▸ hp) hdisk
    | attach info' g _ _ _ _ _ hk' hp => exact absurd (hsame hk' ▸ hp) hdisk
    | disk info' base' c' hk' hp h hc' =>
      obtain rfl := hsame hk'
      obtain rfl := Option.some.inj (hc.symm.trans hc')
      exact ⟨true, rfl⟩
    | unsupported info' base' hk' hp h hc' =>
      obtain rfl := hsame hk'
      simp [hc] at hc'
  · intro _ t ht
    cases ht with
    | missing h => exact absurd ⟨info, base, hk, fun hp => absurd hp hdisk⟩ h
    | attach info' g _ _ _ _ _ hk' hp => exact absurd (hsame hk' ▸ hp) hdisk
    | disk info' base' c' hk' h hc' =>
      obtain rfl := hsame hk'
      obtain rfl := Option.some.inj (hc.symm.trans hc')
      exact ⟨false, rfl⟩

/-- A copied disk has the size of the original exactly when what its blocks leave of the original size
is a whole number of MiB. -/
theorem recreates_iff {m : ℕ} (hk : s.mem.known b = some (info, base))
    (hnew : s.mem.created b ≠ some 1)
    (hp : info.productName = "Null disk" ∨ info.productName = "Malloc disk")
    (hb : 0 < info.blockSize) (hn : info.numBlocks = blocksOf m info.blockSize) :
    Recreates s b info.numBlocks ↔ 1024 ^ 2 ∣ m * 1024 ^ 2 % info.blockSize := by
  obtain ⟨c, hc, hdst, hblocks⟩ : ∃ c, createDiskCmd info = some c ∧ c.sock = .dst ∧
      c.rpc.numBlocks = some (blocksOf info.totalSize info.blockSize) := by
    rcases hp with hp | hp
    · exact ⟨bdevNullCreateCmd info, by simp [createDiskCmd, hp], rfl, rfl⟩
    · exact ⟨bdevMallocCreateCmd info, by simp [createDiskCmd, hp], rfl, rfl⟩
  obtain ⟨ok, hlog⟩ := createBdev_log hk hnew hc
  have hround : blocksOf info.totalSize info.blockSize = info.numBlocks ↔
      1024 ^ 2 ∣ m * 1024 ^ 2 % info.blockSize := by
    rw [Bdev.totalSize, hn]
    exact floor_floor_iff hb m (1024 ^ 2)
  rw [← hround]
  constructor
  · rintro ⟨c', ok', hlog', -, hblocks'⟩
    rw [hlog, List.append_cancel_left_eq, List.cons.injEq] at hlog'
    obtain ⟨rfl, -⟩ := Event.sent.inj hlog'.1
    exact Option.some.inj (hblocks.symm.trans hblocks')
  · intro h
    exact ⟨c, ok, hlog, hdst, by rw [hblocks, h]⟩

/-- A Null disk that was made with a size in MiB. -/
def nullDisk (size blockSize : ℕ) : Bdev :=
  ⟨"Null0", "Null disk", blockSize, blocksOf size blockSize, "", ⟨none, none, none, none, none⟩⟩

/-- A session with one bdev to create. -/
def sessionFor (info : Bdev) : Session where
  mem := ⟨Dict.set ∅ info.name ⟨info, none, 0, 1⟩, ∅, ∅⟩
  world := ⟨⟨true, [info], [], [], [], [], [], []⟩, ⟨true, [], [], [], [], [], []⟩⟩
  log := []
  past := []
  answers := fun _ => true

theorem recreates_512 :
    Recreates (sessionFor (nullDisk 1024 512)) "Null0" (nullDisk 1024 512).numBlocks :=
  (recreates_iff (m := 1024) (by rfl) (by decide) (.inl rfl) (by decide) rfl).mpr (by decide)

/-- A disk of 1024 MiB with blocks of 1536 bytes is copied to one of 1023 MiB. -/
theorem not_recreates_1536 :
    (nullDisk 1024 1536).numBlocks = 699050 ∧
      ¬Recreates (sessionFor (nullDisk 1024 1536)) "Null0" (nullDisk 1024 1536).numBlocks := by
  refine ⟨by decide +kernel, ?_⟩
  rintro ⟨c, ok, hlog, -, hblocks⟩
  have hsent : (finalState (createBdev "Null0" (sessionFor (nullDisk 1024 1536)))).log =
      [.sent (bdevNullCreateCmd (nullDisk 1024 1536)) true] := by rfl
  rw [hsent] at hlog
  obtain ⟨rfl, -⟩ := Event.sent.inj (List.cons.inj hlog).1
  exact absurd hblocks (by decide +kernel)

end Sizes

end DcPerf.LiveUpdate
