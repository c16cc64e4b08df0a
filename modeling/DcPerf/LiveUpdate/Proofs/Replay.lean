import DcPerf.Library.History
import DcPerf.LiveUpdate.Users

/-!
# What a log leaves behind

Which objects the two processes hold after a log, said by the events of the log.
-/

namespace DcPerf.LiveUpdate

open DcPerf.Library

/-- The RPC that an event sends is that of its command. -/
theorem sends_iff {k : Sock} {p : Rpc → Bool} {e : Event} :
    e.sends k p = true ↔ ∃ c, e.cmd? = some c ∧ c.sock = k ∧ p c.rpc = true := by
  cases e with
  | asked => simp [Event.sends, Event.rpcTo, Event.cmd?]
  | sent c ok => by_cases hs : c.sock = k <;> simp [Event.sends, Event.rpcTo, Event.cmd?, hs]

theorem sends_sent {k : Sock} {p : Rpc → Bool} {c : Cmd} {ok : Bool} :
    (Event.sent c ok).sends k p = true ↔ c.sock = k ∧ p c.rpc = true := by
  simp [sends_iff, Event.cmd?]

/-- A log with one more command sends what it sent before, and what the command asks for. -/
theorem exists_sends_snoc {k : Sock} {p : Rpc → Bool} {l : List Event} {c : Cmd} {ok : Bool} :
    (∃ e ∈ l ++ [.sent c ok], e.sends k p = true) ↔
      (∃ e ∈ l, e.sends k p = true) ∨ c.sock = k ∧ p c.rpc = true := by
  simp [or_and_right, exists_or, sends_sent]

theorem after_src (w : World) (e : Event) : (w.after e).src =
    if e.ok = true then (e.rpcTo .src).elim w.src w.src.exec else w.src := by
  cases e with
  | asked k sc me ok => cases ok <;> rfl
  | sent c ok =>
    obtain ⟨k, sc, me, pa, r⟩ := c
    cases ok <;> cases k <;> rfl

theorem after_dst (w : World) (e : Event) : (w.after e).dst =
    if e.ok = true then (e.rpcTo .dst).elim w.dst w.dst.exec else w.dst := by
  cases e with
  | asked k sc me ok => cases ok <;> rfl
  | sent c ok =>
    obtain ⟨k, sc, me, pa, r⟩ := c
    cases ok <;> cases k <;> rfl

/-- A fact about the source that its RPCs with `p` undo. -/
theorem src_iff {X : Source → Prop} {p : Rpc → Bool}
    (h : ∀ s r, X (s.exec r) ↔ X s ∧ ¬p r = true) (w : World) (l : List Event) :
    X (w.replay l).src ↔ X w.src ∧ ∀ e ∈ l, ¬e.does .src p = true := by
  refine foldl_iff_and (X := fun w : World => X w.src) (fun w e => ?_) w l
  rw [after_src]
  cases hok : e.ok with
  | false => simp [Event.does, hok]
  | true => cases hr : e.rpcTo .src <;> simp [Event.does, Event.sends, hok, hr, h]

/-- A fact about the destination that its RPCs with `p` establish. -/
theorem dst_iff {X : Destination → Prop} {p : Rpc → Bool}
    (h : ∀ d r, X (d.exec r) ↔ X d ∨ p r = true) (w : World) (l : List Event) :
    X (w.replay l).dst ↔ X w.dst ∨ ∃ e ∈ l, e.does .dst p = true := by
  refine foldl_iff_or (X := fun w : World => X w.dst) (fun w e => ?_) w l
  rw [after_dst]
  cases hok : e.ok with
  | false => simp [Event.does, hok]
  | true => cases hr : e.rpcTo .dst <;> simp [Event.does, Event.sends, hok, hr, h]

theorem map_map_of_eq {α β : Type} {f : α → β} {g : α → α} {l : List α} (h : ∀ x, f (g x) = f x) :
    (l.map g).map f = l.map f := by
  rw [List.map_map]
  exact List.map_congr_left fun x _ => h x

/-! ## The source -/

theorem mem_src_vblkCtrls (w : World) (l : List Event) (k : VblkCtrl) :
    k ∈ (w.replay l).src.vblkCtrls ↔
      k ∈ w.src.vblkCtrls ∧ ∀ e ∈ l, ¬e.does .src (Rpc.destroysVblk k.ctrlId) = true := by
  refine src_iff (X := fun s => k ∈ s.vblkCtrls) (fun s r => ?_) w l
  cases r with
  | virtioBlkControllerDestroy => simp [Source.exec, Rpc.destroysVblk]; grind
  | _ => simp [Source.exec, Rpc.destroysVblk]

theorem mem_src_nvmeIds (w : World) (l : List Event) (c : String) :
    c ∈ (w.replay l).src.nvmeCtrls.map NvmeCtrl.ctrlId ↔
      c ∈ w.src.nvmeCtrls.map NvmeCtrl.ctrlId ∧
        ∀ e ∈ l, ¬e.does .src (Rpc.destroysNvme c) = true := by
  refine src_iff (X := fun s => c ∈ s.nvmeCtrls.map NvmeCtrl.ctrlId) (fun s r => ?_) w l
  cases r with
  | nvmeControllerDestroy i => simp [Source.exec, Rpc.destroysNvme]; grind
  | nvmeControllerDetachNs i n =>
    have hmap : (s.exec (.nvmeControllerDetachNs i n)).nvmeCtrls.map NvmeCtrl.ctrlId =
        s.nvmeCtrls.map NvmeCtrl.ctrlId := map_map_of_eq fun k => by split <;> rfl
    simp [hmap, Rpc.destroysNvme]
  | _ => simp [Source.exec, Rpc.destroysNvme]

/-- The namespaces attached to an NVMe controller. -/
theorem mem_src_attachments (w : World) (l : List Event) (c b : String) (i : ℕ) :
    (∃ k ∈ (w.replay l).src.nvmeCtrls, k.ctrlId = c ∧ ∃ n ∈ k.namespaces, n.nsid = i ∧ n.bdev = b) ↔
      (∃ k ∈ w.src.nvmeCtrls, k.ctrlId = c ∧ ∃ n ∈ k.namespaces, n.nsid = i ∧ n.bdev = b) ∧
        ∀ e ∈ l, ¬e.does .src (fun r => r.destroysNvme c || r.removes = some (.ns c i)) = true := by
  refine src_iff (X := fun s => ∃ k ∈ s.nvmeCtrls, k.ctrlId = c ∧
    ∃ n ∈ k.namespaces, n.nsid = i ∧ n.bdev = b) (fun s r => ?_) w l
  cases r with
  | nvmeControllerDestroy c' =>
    simp only [Source.exec, Rpc.destroysNvme, Rpc.removes, List.mem_filter]
    constructor
    · rintro ⟨k, ⟨hk, hne⟩, hc, hn⟩
      have hkc : k.ctrlId ≠ c' := by simpa using hne
      refine ⟨⟨k, hk, hc, hn⟩, ?_⟩
      simpa using fun h => hkc (hc.trans h.symm)
    · rintro ⟨⟨k, hk, hc, hn⟩, hne⟩
      have hcc : ¬c' = c := by simpa using hne
      refine ⟨k, ⟨hk, ?_⟩, hc, hn⟩
      simpa using fun h => hcc (h.symm.trans hc)
  | nvmeControllerDetachNs c' i' =>
    simp only [Source.exec, Rpc.destroysNvme, Rpc.removes, List.mem_map]
    constructor
    · rintro ⟨_, ⟨k, hk, rfl⟩, hc, n, hn, hi, hb⟩
      split at hc
      · rename_i hkc
        rw [if_pos hkc] at hn
        obtain ⟨hn, hne⟩ := List.mem_filter.mp hn
        have hni : n.nsid ≠ i' := by simpa using hne
        refine ⟨⟨k, hk, hc, n, hn, hi, hb⟩, ?_⟩
        rw [hi] at hni
        simpa using fun _ h => hni h.symm
      · rename_i hkc
        rw [if_neg hkc] at hn
        refine ⟨⟨k, hk, hc, n, hn, hi, hb⟩, ?_⟩
        rw [hc] at hkc
        simpa using fun h => absurd h.symm hkc
    · rintro ⟨⟨k, hk, hc, n, hn, hi, hb⟩, hne⟩
      refine ⟨_, ⟨k, hk, rfl⟩, ?_⟩
      by_cases hkc : k.ctrlId = c'
      · have hni : n.nsid ≠ i' := by
          rintro rfl
          exact hne (by simp [← hkc, hc, hi])
        rw [if_pos hkc]
        exact ⟨hc, n, List.mem_filter.mpr ⟨hn, by simpa using hni⟩, hi, hb⟩
      · rw [if_neg hkc]
        exact ⟨hc, n, hn, hi, hb⟩
  | _ => simp [Source.exec, Rpc.destroysNvme, Rpc.removes]

/-- A user that is still there was there at the start, and no RPC has taken it off. -/
theorem mem_src_users {w : World} {l : List Event} {x : User × String}
    (h : x ∈ (w.replay l).src.users) :
    x ∈ w.src.users ∧ ∀ e ∈ l, ¬e.does .src (fun r => r.removes = some x.1) = true := by
  rcases List.mem_append.mp h with h | h
  · obtain ⟨k, hk, rfl⟩ := List.mem_map.mp h
    obtain ⟨hk, hb⟩ := List.mem_filter.mp hk
    obtain ⟨hk, hno⟩ := (mem_src_vblkCtrls w l k).mp hk
    refine ⟨List.mem_append_left _ (List.mem_map.mpr ⟨k, List.mem_filter.mpr ⟨hk, hb⟩, rfl⟩), ?_⟩
    intro e he hd
    refine hno e he ?_
    have hp (r : Rpc) (hr : decide (r.removes = some (.vblk k.ctrlId)) = true) :
        r.destroysVblk k.ctrlId = true := by
      cases r <;> simp_all [Rpc.removes, Rpc.destroysVblk]
    obtain ⟨hok, hs⟩ := (Bool.and_eq_true _ _).mp hd
    obtain ⟨r, hr, hrem⟩ := (Option.any_eq_true _ _).mp hs
    simp [Event.does, hok, Event.sends, hr, hp r hrem]
  · obtain ⟨k, hk, h⟩ := List.mem_flatMap.mp h
    obtain ⟨n, hn, rfl⟩ := List.mem_map.mp h
    obtain ⟨⟨k', hk', hc, n', hn', hi, hb⟩, hno⟩ :=
      (mem_src_attachments w l k.ctrlId n.bdev n.nsid).mp ⟨k, hk, rfl, n, hn, rfl, rfl⟩
    refine ⟨List.mem_append_right _ (List.mem_flatMap.mpr ⟨k', hk', List.mem_map.mpr ⟨n', hn', ?_⟩⟩), ?_⟩
    · rw [hc, hi, hb]
    · intro e he hd
      refine hno e he ?_
      obtain ⟨hok, hs⟩ := (Bool.and_eq_true _ _).mp hd
      obtain ⟨r, hr, hrem⟩ := (Option.any_eq_true _ _).mp hs
      simp only [Event.does, hok, Event.sends, hr, Option.any_some, Bool.true_and]
      rw [hrem, Bool.or_true]

/-! ## The destination -/

theorem mem_dst_bdevs (w : World) (l : List Event) (b : String) :
    b ∈ (w.replay l).dst.bdevs ↔
      b ∈ w.dst.bdevs ∨ ∃ e ∈ l, e.does .dst (Rpc.createsDisk b) = true := by
  refine dst_iff (X := fun d => b ∈ d.bdevs) (fun d r => ?_) w l
  cases r with
  | bdevNullCreate => simp [Destination.exec, Rpc.createsDisk]; grind
  | bdevMallocCreate => simp [Destination.exec, Rpc.createsDisk]; grind
  | _ => simp [Destination.exec, Rpc.createsDisk]

theorem mem_dst_nvmfCtrls (w : World) (l : List Event) (g : String) :
    g ∈ (w.replay l).dst.nvmfCtrls ↔
      g ∈ w.dst.nvmfCtrls ∨ ∃ e ∈ l, e.does .dst (Rpc.attaches g) = true := by
  refine dst_iff (X := fun d => g ∈ d.nvmfCtrls) (fun d r => ?_) w l
  cases r with
  | bdevNvmeAttachController => simp [Destination.exec, Rpc.attaches]; grind
  | _ => simp [Destination.exec, Rpc.attaches]

theorem mem_dst_vblkCtrls (w : World) (l : List Event) (c : String) :
    c ∈ (w.replay l).dst.vblkCtrls ↔
      c ∈ w.dst.vblkCtrls ∨ ∃ e ∈ l, e.does .dst (Rpc.createsVblk c) = true := by
  refine dst_iff (X := fun d => c ∈ d.vblkCtrls) (fun d r => ?_) w l
  cases r with
  | virtioBlkControllerCreate => simp [Destination.exec, Rpc.createsVblk]; grind
  | _ => simp [Destination.exec, Rpc.createsVblk]

theorem mem_dst_nvmeIds (w : World) (l : List Event) (c : String) :
    c ∈ (w.replay l).dst.nvmeCtrls.map PassiveCtrl.ctrlId ↔
      c ∈ w.dst.nvmeCtrls.map PassiveCtrl.ctrlId ∨
        ∃ e ∈ l, e.does .dst (Rpc.createsNvme c) = true := by
  refine dst_iff (X := fun d => c ∈ d.nvmeCtrls.map PassiveCtrl.ctrlId) (fun d r => ?_) w l
  cases r with
  | nvmeControllerAttachNs i n =>
    have hmap : (d.exec (.nvmeControllerAttachNs i n)).nvmeCtrls.map PassiveCtrl.ctrlId =
        d.nvmeCtrls.map PassiveCtrl.ctrlId := map_map_of_eq fun k => by split <;> rfl
    simp [hmap, Rpc.createsNvme]
  | nvmeControllerCreate => simp [Destination.exec, Rpc.createsNvme]; grind
  | _ => simp [Destination.exec, Rpc.createsNvme]

theorem mem_dst_subsystems (w : World) (l : List Event) (nqn : String) :
    nqn ∈ (w.replay l).dst.subsystems.map Subsys.nqn ↔
      nqn ∈ w.dst.subsystems.map Subsys.nqn ∨
        ∃ e ∈ l, e.does .dst (Rpc.createsSubsys nqn) = true := by
  refine dst_iff (X := fun d => nqn ∈ d.subsystems.map Subsys.nqn) (fun d r => ?_) w l
  cases r with
  | nvmeSubsystemCreate => simp [Destination.exec, Rpc.createsSubsys]; grind
  | _ => simp [Destination.exec, Rpc.createsSubsys]

end DcPerf.LiveUpdate
