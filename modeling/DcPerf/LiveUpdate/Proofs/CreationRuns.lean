import DcPerf.LiveUpdate.Proofs.Creation

/-!
# Creation in every run

Every bdev that the destination is told to use exists there, as long as `create_bdev` supports its
product, and no run creates an object twice.
-/

namespace DcPerf.LiveUpdate

open DcPerf.Library

/-! ## Bdevs that are named -/

section Named

variable (w : World) (answers : ℕ → Bool)

/-- A product that `create_bdev` does not support is never provided. -/
theorem not_provided_before {l : List Event} (hl : l <+: (finalState (run w answers)).log)
    {b : String} (h : ∃ e ∈ l, e.does .dst (w.src.provides b) = true) : w.src.supports b = true := by
  obtain ⟨e, he, hd⟩ := h
  have hs : e.sends .dst (w.src.provides b) = true := ((Bool.and_eq_true _ _).mp hd).2
  exact (run_creation w answers).sound e (hl.subset he) b hs

/-- Whenever a command names a bdev, or the bdev is marked as created, an earlier command of the run
has provided it, if and only if `create_bdev` supports its product. -/
theorem named_bdevs_exist :
    Always (fun pre e => ∀ b, e.sends .dst (Rpc.names b) = true →
      ((∃ x ∈ pre, x.does .dst (w.src.provides b) = true) ↔ w.src.supports b = true))
      (finalState (run w answers)).log ∧
    ∀ p ∈ (finalState (run w answers)).past, ∀ b, p.1.created b = some 1 →
      ((∃ x ∈ p.2, x.does .dst (w.src.provides b) = true) ↔ w.src.supports b = true) := by
  have hrun := run_creation w answers
  constructor
  · intro pre e post hl b he
    constructor
    · exact not_provided_before w answers ⟨e :: post, hl.symm⟩
    · exact hrun.names pre e post hl b he
  · intro p hp b hb
    obtain ⟨hpre, hmade⟩ := hrun.past p hp
    exact ⟨not_provided_before w answers hpre, hmade b hb⟩

end Named

/-- One VBLK function on a delay bdev. -/
def Source.delayed : Source :=
  { Source.idle with
    bdevs := [.small "delay0" "delay" .empty]
    functions := [⟨⟨none, some "v0"⟩, "VBLK", []⟩]
    vblkCtrls := [.on "v0" "delay0"] }

/-- The destination is told to use a delay bdev that nothing has created, and the bdev is marked as
created. -/
theorem delayed_not_provided :
    ¬Always (fun pre e => e.sends .dst (Rpc.names "delay0") = true →
      ∃ x ∈ pre, x.does .dst (Source.delayed.provides "delay0") = true)
      (finalState (run ⟨.delayed, .fresh⟩ fun _ => true)).log ∧
    ¬∀ p ∈ (finalState (run ⟨.delayed, .fresh⟩ fun _ => true)).past,
      p.1.created "delay0" = some 1 →
        ∃ x ∈ p.2, x.does .dst (Source.delayed.provides "delay0") = true := by
  decide +kernel

/-! ## Objects that are created once -/

/-- An event that creates a subsystem or a namespace creates one that the destination does not
list. -/
def CreatesNew (w : World) (pre : List Event) (e : Event) : Prop :=
  (∀ nqn, e.sends .dst (Rpc.createsSubsys nqn) = true →
    nqn ∉ (w.replay pre).dst.subsystems.map Subsys.nqn) ∧
  ∀ uuid, e.sends .dst (Rpc.createsNs uuid) = true →
    uuid ∉ (w.replay pre).dst.namespaces.map Namespace.uuid

section Once

variable {w : World} {answers : ℕ → Bool} {s : Session} {nqn : String}

theorem kind_createsSubsys {r : Rpc} (h : r.createsSubsys nqn = true) : r.kind = .subsys := by
  cases r <;> simp_all [Rpc.createsSubsys, Rpc.kind]

theorem kind_createsNs {uuid : String} {r : Rpc} (h : r.createsNs uuid = true) : r.kind = .ns := by
  cases r <;> simp_all [Rpc.createsNs, Rpc.kind]

theorem createsNew_of_kind {pre : List Event} {e : Event}
    (h : ∀ c ∈ e.cmd?, c.rpc.kind ≠ .subsys ∧ c.rpc.kind ≠ .ns) : CreatesNew w pre e := by
  constructor
  · intro nqn he
    obtain ⟨c, hc, -, hp⟩ := sends_iff.mp he
    exact absurd (kind_createsSubsys hp) (h c hc).1
  · intro uuid he
    obtain ⟨c, hc, -, hp⟩ := sends_iff.mp he
    exact absurd (kind_createsNs hp) (h c hc).2

theorem createsNew_of_asked {pre : List Event} {e : Event} (h : e.cmd? = none) :
    CreatesNew w pre e := createsNew_of_kind fun c hc => by simp [h] at hc

/-- A query of the destination, and a command that it justifies. -/
theorem always_createsNew_snoc {l : List Event} (h : Always (CreatesNew w) l) {k : Sock}
    {sc me : String} {c : Cmd} (ok : Bool) (hc : CreatesNew w l (.sent c ok)) :
    Always (CreatesNew w) (l ++ [.asked k sc me true] ++ [.sent c ok]) := by
  refine always_snoc.mpr ⟨always_snoc.mpr ⟨h, createsNew_of_asked rfl⟩, ?_⟩
  have hreplay : w.replay (l ++ [.asked k sc me true]) = w.replay l := by
    rw [World.replay_append]
    rfl
  unfold CreatesNew
  rw [hreplay]
  exact hc

theorem createsNew_subsys {l : List Event} {subsys : Subsys} (ok : Bool)
    (hd : subsys.nqn ∉ (w.replay l).dst.subsystems.map Subsys.nqn) :
    CreatesNew w l (.sent (createNvmeSubsysCmd subsys) ok) := by
  refine ⟨fun nqn he => ?_, fun uuid he => ?_⟩
  · have hn : subsys.nqn = nqn := by
      simpa [Event.sends, Event.rpcTo, createNvmeSubsysCmd, Rpc.createsSubsys] using he
    exact hn ▸ hd
  · simp [Event.sends, Event.rpcTo, createNvmeSubsysCmd, Rpc.createsNs] at he

theorem createsNew_ns {l : List Event} {ctrl : NvmeCtrl} {n : CtrlNs} (ok : Bool)
    (hd : ∀ m ∈ (w.replay l).dst.namespaces, m.uuid ≠ n.uuid) :
    CreatesNew w l (.sent (createNvmeNamespaceCmd ctrl n) ok) := by
  refine ⟨fun nqn he => ?_, fun uuid he hmem => ?_⟩
  · simp [Event.sends, Event.rpcTo, createNvmeNamespaceCmd, Rpc.createsSubsys] at he
  · have hn : n.uuid = uuid := by
      simpa [Event.sends, Event.rpcTo, createNvmeNamespaceCmd, Rpc.createsNs, CtrlNs.within] using he
    obtain ⟨m, hm, hu⟩ := List.mem_map.mp hmem
    exact hd m hm (hu.trans hn.symm)

/-- Every action creates only subsystems and namespaces that the destination does not list. -/
theorem perform_createsNew {a : Action} (ha : a ∈ plan (managerOf w.src)) (hs : Steady w answers s)
    (h : Always (CreatesNew w) s.log) :
    wp (perform (managerOf w.src) a) (fun _ s' => Always (CreatesNew w) s'.log)
      (fun _ s' => Always (CreatesNew w) s'.log) s := by
  have hworld := hs.world
  -- The actions that send neither kind of command.
  have hother (hk : ∀ c, a.Sends c → c.rpc.kind ≠ .subsys ∧ c.rpc.kind ≠ .ns) :
      wp (perform (managerOf w.src) a) (fun _ s' => Always (CreatesNew w) s'.log)
        (fun _ s' => Always (CreatesNew w) s'.log) s :=
    perform_always _ h fun pre e he => createsNew_of_kind fun c hc => hk c (he c hc)
  cases a with
  | subsys nqn =>
    refine wp_mono (wp_ensureNvmeSubsys (managerOf w.src) nqn s) ?_ ?_
    · intro _ s' he
      cases he with
      | skip => exact h
      | found => exact always_snoc.mpr ⟨h, createsNew_of_asked rfl⟩
      | create subsys hsub _ hd =>
        exact always_createsNew_snoc h true (createsNew_subsys true (hworld ▸ hd))
    · intro _ s' he
      cases he with
      | missing => exact h
      | ask => exact always_snoc.mpr ⟨h, createsNew_of_asked rfl⟩
      | create subsys hsub hd =>
        exact always_createsNew_snoc h false (createsNew_subsys false (hworld ▸ hd))
  | ns ctrl n =>
    refine wp_mono (wp_ensureNvmeNamespace ctrl n s) ?_ ?_
    · intro _ s' he
      cases he with
      | found => exact always_snoc.mpr ⟨h, createsNew_of_asked rfl⟩
      | create hd => exact always_createsNew_snoc h true (createsNew_ns true (hworld ▸ hd))
    · intro _ s' he
      cases he with
      | ask => exact always_snoc.mpr ⟨h, createsNew_of_asked rfl⟩
      | create hd => exact always_createsNew_snoc h false (createsNew_ns false (hworld ▸ hd))
  | send c => exact hother fun c' hc => by simp [fixed_kind ha rfl, show c' = c from hc]
  | create b => exact hother fun c hc => by simp [IsCreateBdevCmd.kind hc]
  | release c b =>
    refine hother fun c' hc => ?_
    rcases hc with rfl | hc
    · simp [fixed_kind ha rfl]
    · simp [hc.kind]
  | missing => exact hother fun _ hc => hc.elim

theorem run_createsNew (w : World) (answers : ℕ → Bool) :
    Halted w (finalState (run w answers)) ∧
      Always (CreatesNew w) (finalState (run w answers)).log :=
  run_always w answers (fun _ _ he => createsNew_of_asked he)
    fun _ ha _ hs h => perform_createsNew ha hs h

/-- No run creates an object twice, whatever the functions share. -/
theorem creates_once (w : World) (answers : ℕ → Bool) :
    (∀ b, (finalState (run w answers)).log.countP (Event.sends .dst (Rpc.createsDisk b)) ≤ 1) ∧
    (∀ g, (finalState (run w answers)).log.countP (Event.sends .dst (Rpc.attaches g)) ≤ 1) ∧
    (∀ nqn, (finalState (run w answers)).log.countP (Event.sends .dst (Rpc.createsSubsys nqn)) ≤ 1) ∧
    Always (fun pre e =>
      (∀ nqn, e.sends .dst (Rpc.createsSubsys nqn) = true →
        nqn ∉ (w.replay pre).dst.subsystems.map Subsys.nqn) ∧
      ∀ uuid, e.sends .dst (Rpc.createsNs uuid) = true →
        uuid ∉ (w.replay pre).dst.namespaces.map Namespace.uuid)
      (finalState (run w answers)).log := by
  have hcreation := run_creation w answers
  obtain ⟨hhalted, hnew⟩ := run_createsNew w answers
  refine ⟨fun b => always_once_iff.mp (hcreation.onceDisk b),
    fun g => always_once_iff.mp (hcreation.onceBase g),
    fun nqn => always_once_iff.mp ((hnew.and hhalted.ok).mono ?_), hnew⟩
  rintro pre e ⟨hnew, hok⟩ he x hx
  by_contra hsend
  refine hnew.1 nqn he ((mem_dst_subsystems w pre nqn).mpr (.inr ⟨x, hx, ?_⟩))
  simpa [Event.does, hok x hx] using hsend

end Once

end DcPerf.LiveUpdate
