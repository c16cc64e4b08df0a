import DcPerf.LiveUpdate.Proofs.Steps
import DcPerf.LiveUpdate.Proofs.Tables

/-!
# Runs

The state that the constructor leaves behind, what every action adds to the log, and the rule by
which an invariant of the plan becomes a theorem about every run, whichever RPC fails.
-/

namespace DcPerf.LiveUpdate

open DcPerf.Library

/-! ## The log -/

/-- `s'` comes after `s`: more RPCs have succeeded, whose commands meet `P`. -/
structure Grows (P : Cmd → Prop) (s s' : Session) : Prop where
  answers : s'.answers = s.answers
  log : ∃ l, s'.log = s.log ++ l ∧ (∀ e ∈ l, e.ok = true) ∧ (∀ e ∈ l, ∀ c ∈ e.cmd?, P c) ∧
    s'.world = s.world.replay l

/-- `s'` is where a run that came through `s` was aborted: only the last RPC may have failed. -/
structure Breaks (P : Cmd → Prop) (s s' : Session) : Prop where
  log : ∃ l, s'.log = s.log ++ l ∧ Always (fun pre _ => ∀ e ∈ pre, e.ok = true) l ∧
    (∀ e ∈ l, ∀ c ∈ e.cmd?, P c) ∧ s'.world = s.world.replay l

theorem composes_grows (P : Cmd → Prop) : Composes (Grows P) (Breaks P) where
  refl s := ⟨rfl, [], by simp⟩
  trans := by
    rintro s t u ⟨ha, l, hl, hok, hP, hw⟩ ⟨ha', l', hl', hok', hP', hw'⟩
    refine ⟨ha'.trans ha, l ++ l', by rw [hl', hl, List.append_assoc], ?_, ?_, ?_⟩
    · intro e he
      exact (List.mem_append.mp he).elim (hok e) (hok' e)
    · intro e he
      exact (List.mem_append.mp he).elim (hP e) (hP' e)
    · rw [hw', hw, World.replay_append]
  abort := by
    rintro s t u ⟨-, l, hl, hok, hP, hw⟩ ⟨l', hl', hok', hP', hw'⟩
    refine ⟨l ++ l', by rw [hl', hl, List.append_assoc], always_append ?_ ?_, ?_, ?_⟩
    · rintro pre e post rfl x hx
      exact hok x (by simp [hx])
    · refine hok'.mono fun pre e hpre x hx => ?_
      exact (List.mem_append.mp hx).elim (hok x) (hpre x)
    · intro e he
      exact (List.mem_append.mp he).elim (hP e) (hP' e)
    · rw [hw', hw, World.replay_append]
  weaken := by
    rintro s t ⟨-, l, hl, hok, hP, hw⟩
    refine ⟨l, hl, ?_, hP, hw⟩
    rintro pre e post rfl x hx
    exact hok x (by simp [hx])

theorem grows_sent {P : Cmd → Prop} (s : Session) {c : Cmd} (hc : P c) : Grows P s (s.sent c) :=
  ⟨rfl, [.sent c true], by simp, by simp [Event.ok], by simpa [Event.cmd?] using hc, rfl⟩

theorem breaks_failed {P : Cmd → Prop} (s : Session) {c : Cmd} (hc : P c) :
    Breaks P s (s.failed c) := by
  refine ⟨[.sent c false], by simp, ?_, by simpa [Event.cmd?] using hc, rfl⟩
  exact always_snoc.mpr ⟨always_nil, by simp⟩

theorem grows_remember (P : Cmd → Prop) (s : Session) (f : Memory → Memory) :
    Grows P s (s.remember f) := ⟨rfl, [], by simp⟩

theorem respects_sendRpc {P : Cmd → Prop} {c : Cmd} (hc : P c) :
    Respects (Grows P) (Breaks P) (sendRpc c) := fun s =>
  wp_sendRpc.mpr ⟨fun _ => grows_sent s hc, fun _ => breaks_failed s hc⟩

theorem respects_sendRecvRpc (P : Cmd → Prop) {α : Type} (k : Sock) (script method : String)
    (reply : World → α) :
    Respects (Grows P) (Breaks P) (sendRecvRpc k script method reply) := by
  intro s
  refine wp_sendRecvRpc.mpr ⟨fun _ => ?_, fun _ => ?_⟩
  · exact ⟨rfl, [.asked k script method true], by simp, by simp [Event.ok],
      by simp [Event.cmd?], rfl⟩
  · exact ⟨[.asked k script method false], by simp, always_snoc.mpr ⟨always_nil, by simp⟩,
      by simp [Event.cmd?], rfl⟩

theorem admits_grows {P : Cmd → Prop} {a : Action} (h : ∀ c, a.Sends c → P c) :
    Admits (Grows P) (Breaks P) a where
  composes := composes_grows P
  send c hc := respects_sendRpc (h c hc)
  ask k script method reply := respects_sendRecvRpc P k script method reply
  created _ _ := ⟨fun _ => respects_assign fun s => grows_remember P s _,
    fun _ => respects_assign fun s => grows_remember P s _⟩
  used _ _ _ := ⟨fun _ _ => respects_assign fun s => grows_remember P s _,
    fun _ _ => respects_assign fun s => grows_remember P s _⟩
  hist _ _ := respects_assign fun s => grows_remember P s _

/-- An action only sends its own commands. -/
theorem perform_grows (self : Manager) (a : Action) :
    Respects (Grows a.Sends) (Breaks a.Sends) (perform self a) :=
  respects_perform self (admits_grows fun _ h => h)

/-- A safety property that the commands of an action have wherever they are sent. -/
theorem perform_always (self : Manager) {a : Action} {s : Session} {Q : List Event → Event → Prop}
    (h : Always Q s.log) (hQ : ∀ pre e, (∀ c ∈ e.cmd?, a.Sends c) → Q pre e) :
    wp (perform self a) (fun _ s' => Always Q s'.log) (fun _ s' => Always Q s'.log) s := by
  have hgrow {s' : Session} {l : List Event} (hl : s'.log = s.log ++ l)
      (hP : ∀ e ∈ l, ∀ c ∈ e.cmd?, a.Sends c) : Always Q s'.log := by
    rw [hl]
    refine always_append h ?_
    rintro pre e post rfl
    exact hQ _ e (hP e (by simp))
  refine wp_mono (perform_grows self a s) ?_ ?_
  · rintro _ s' ⟨-, l, hl, -, hP, -⟩
    exact hgrow hl hP
  · rintro _ s' ⟨l, hl, -, hP, -⟩
    exact hgrow hl hP

/-! ## The memory -/

/-- `s'` and `s` agree on a view of the memory. -/
def Keeps {β : Type} (v : Memory → β) (s s' : Session) : Prop := v s'.mem = v s.mem

theorem composes_keeps {β : Type} (v : Memory → β) : Composes (Keeps v) (Keeps v) where
  refl _ := rfl
  trans h h' := h'.trans h
  abort h h' := h'.trans h
  weaken h := h

/-- The `created` flags. -/
def Memory.flags (m : Memory) : (String → Option ℕ) × (String → Option ℕ) :=
  (m.created, m.baseCreated)

/-- The `used` counts. -/
def Memory.counts (m : Memory) : (String → Option ℤ) × (String → Option ℤ) := (m.used, m.baseUsed)

/-- The bdevs and the NVMe-oF controllers that the memory keeps. -/
def Memory.tables (m : Memory) : (String → Option (Bdev × Option String)) × (String → Bool) :=
  (m.known, m.knownBase)

theorem admits_keeps {β : Type} {v : Memory → β} {a : Action}
    (hcreated : ∀ b, a = .create b → ∀ m : Memory,
      (∀ b, v (m.setBdev b fun e => { e with created := 1 }) = v m) ∧
      ∀ g, v (m.setNvmf g fun e => { e with created := 1 }) = v m)
    (hused : ∀ c b, a = .release c b → ∀ m : Memory,
      (∀ b u, v (m.setBdev b fun e => { e with used := u }) = v m) ∧
      ∀ g u, v (m.setNvmf g fun e => { e with used := u }) = v m)
    (hhist : ∀ nqn, a = .subsys nqn → ∀ m : Memory, v (m.setHist nqn 1) = v m) :
    Admits (Keeps v) (Keeps v) a where
  composes := composes_keeps v
  send _ _ _ := wp_sendRpc.mpr ⟨fun _ => rfl, fun _ => rfl⟩
  ask _ _ _ _ _ := wp_sendRecvRpc.mpr ⟨fun _ => rfl, fun _ => rfl⟩
  created _ ha := ⟨fun b => respects_assign fun s => (hcreated _ ha s.mem).1 b,
    fun g => respects_assign fun s => (hcreated _ ha s.mem).2 g⟩
  used _ _ ha := ⟨fun b u => respects_assign fun s => (hused _ _ ha s.mem).1 b u,
    fun g u => respects_assign fun s => (hused _ _ ha s.mem).2 g u⟩
  hist nqn ha := respects_assign fun s => hhist nqn ha s.mem

theorem tables_setCreated (m : Memory) (b : String) :
    (m.setBdev b fun e => { e with created := 1 }).tables = m.tables := by
  simp only [Memory.tables, Prod.mk.injEq]
  exact ⟨funext fun b' => known_setCreated m b b' 1, rfl⟩

theorem tables_setUsed (m : Memory) (b : String) (u : ℤ) :
    (m.setBdev b fun e => { e with used := u }).tables = m.tables := by
  simp only [Memory.tables, Prod.mk.injEq]
  exact ⟨funext fun b' => known_setUsed m b b' u, rfl⟩

theorem tables_setNvmf (m : Memory) (g : String) (f : NvmfEntry → NvmfEntry) :
    (m.setNvmf g f).tables = m.tables := by
  simp only [Memory.tables, Prod.mk.injEq]
  exact ⟨rfl, funext fun g' => knownBase_setNvmf m g g' f⟩

/-- No action changes which bdevs and NVMe-oF controllers are known. -/
theorem perform_tables (self : Manager) (a : Action) :
    Respects (Keeps Memory.tables) (Keeps Memory.tables) (perform self a) :=
  respects_perform self (admits_keeps
    (fun _ _ m => ⟨fun b => tables_setCreated m b, fun g => tables_setNvmf m g _⟩)
    (fun _ _ _ m => ⟨fun b u => tables_setUsed m b u, fun g _ => tables_setNvmf m g _⟩)
    fun _ _ _ => rfl)

/-- Only `destroy_bdev` changes a `used` count. -/
theorem perform_counts (self : Manager) {a : Action} (h : ∀ c b, a ≠ .release c b) :
    Respects (Keeps Memory.counts) (Keeps Memory.counts) (perform self a) := by
  refine respects_perform self (admits_keeps ?_ (fun c b hb => absurd hb (h c b)) fun _ _ _ => rfl)
  refine fun _ _ m => ⟨fun b => ?_, fun g => ?_⟩
  · exact Prod.ext (funext fun b' => used_setCreated m b b' 1) rfl
  · exact Prod.ext rfl (funext fun g' => baseUsed_setCreated m g g' 1)

/-- Only the step that creates subsystems changes their history. -/
theorem perform_hist (self : Manager) {a : Action} (h : ∀ nqn, a ≠ .subsys nqn) :
    Respects (Keeps Memory.nvmeSubsysHist) (Keeps Memory.nvmeSubsysHist) (perform self a) :=
  respects_perform self (admits_keeps (fun _ _ _ => ⟨fun _ => rfl, fun _ => rfl⟩)
    (fun _ _ _ _ => ⟨fun _ _ => rfl, fun _ _ => rfl⟩) fun nqn hn => absurd hn (h nqn))

/-- `s'` comes after `s`, and the flags were those of `s` all the time. -/
structure KeepsFlags (s s' : Session) : Prop where
  flags : s'.mem.flags = s.mem.flags
  log : s.log <+: s'.log
  past : ∀ p ∈ s'.past, p ∈ s.past ∨ p.1.flags = s.mem.flags ∧ s.log <+: p.2 ∧ p.2 <+: s'.log

theorem composes_keepsFlags : Composes KeepsFlags KeepsFlags := by
  have htrans {s t u : Session} (h : KeepsFlags s t) (h' : KeepsFlags t u) : KeepsFlags s u := by
    refine ⟨h'.flags.trans h.flags, h.log.trans h'.log, fun p hp => ?_⟩
    rcases h'.past p hp with hp | ⟨hf, hl, hl'⟩
    · rcases h.past p hp with hp | ⟨hf, hl, hl'⟩
      · exact .inl hp
      · exact .inr ⟨hf, hl, hl'.trans h'.log⟩
    · exact .inr ⟨hf.trans h.flags, h.log.trans hl, hl'⟩
  exact ⟨fun s => ⟨rfl, List.prefix_refl _, fun p hp => .inl hp⟩, htrans, htrans, id⟩

theorem keepsFlags_remember {s : Session} {f : Memory → Memory} (h : (f s.mem).flags = s.mem.flags) :
    KeepsFlags s (s.remember f) := by
  refine ⟨h, List.prefix_refl _, fun p hp => ?_⟩
  rcases List.mem_append.mp hp with hp | hp
  · exact .inl hp
  · rw [List.mem_singleton.mp hp]
    exact .inr ⟨h, List.prefix_refl _, List.prefix_refl _⟩

theorem flags_setUsed (m : Memory) (b : String) (u : ℤ) :
    (m.setBdev b fun e => { e with used := u }).flags = m.flags :=
  Prod.ext (funext fun b' => created_setUsed m b b' u) rfl

theorem flags_setBaseUsed (m : Memory) (g : String) (u : ℤ) :
    (m.setNvmf g fun e => { e with used := u }).flags = m.flags :=
  Prod.ext rfl (funext fun g' => baseCreated_setUsed m g g' u)

/-- Only `create_bdev` changes a `created` flag. -/
theorem perform_flags (self : Manager) {a : Action} (h : ∀ b, a ≠ .create b) :
    Respects KeepsFlags KeepsFlags (perform self a) := by
  refine respects_perform self ⟨composes_keepsFlags, fun c _ s => ?_, fun k sc me reply s => ?_,
    fun b hb => absurd hb (h b), fun _ _ _ => ⟨fun b u => ?_, fun g u => ?_⟩, fun nqn _ => ?_⟩
  · exact wp_sendRpc.mpr ⟨fun _ => ⟨rfl, List.prefix_append _ _, fun p hp => .inl hp⟩,
      fun _ => ⟨rfl, List.prefix_append _ _, fun p hp => .inl hp⟩⟩
  · exact wp_sendRecvRpc.mpr ⟨fun _ => ⟨rfl, List.prefix_append _ _, fun p hp => .inl hp⟩,
      fun _ => ⟨rfl, List.prefix_append _ _, fun p hp => .inl hp⟩⟩
  · exact respects_assign fun s => keepsFlags_remember (flags_setUsed s.mem b u)
  · exact respects_assign fun s => keepsFlags_remember (flags_setBaseUsed s.mem g u)
  · exact respects_assign fun s => keepsFlags_remember rfl

/-! ## The start of a run -/

/-- So far a run has only asked the processes, and no bdev is marked as created. -/
structure Quiet (w : World) (s : Session) : Prop where
  world : s.world = w
  asked : ∀ e ∈ s.log, e.cmd? = none
  ok : Always (fun pre _ => ∀ e ∈ pre, e.ok = true) s.log
  past : ∀ p ∈ s.past, p.2 <+: s.log ∧ ∀ b, p.1.created b ≠ some 1

/-- A quiet run that goes on. -/
structure Asking (w : World) (answers : ℕ → Bool) (s : Session) : Prop extends Quiet w s where
  answers : s.answers = answers
  answered : ∀ e ∈ s.log, e.ok = true

/-- A reason for which a run may be over before its constructor returns. -/
def Unanswered (w : World) (answers : ℕ → Bool) : Prop :=
  (∃ n, answers n = false) ∨ w.src.version = false ∨ w.dst.version = false

/-- The session in which the constructor returns. -/
structure Started (w : World) (answers : ℕ → Bool) (s : Session) : Prop
    extends Asking w answers s where
  mem : s.mem = memoryOf w.src

section Start

variable {w : World} {answers : ℕ → Bool} {s : Session}

/-- A query leaves the run quiet. -/
theorem wp_ask {α : Type} {k : Sock} {script method : String} {reply : World → α}
    {f : α → Live Manager} {Q : Manager → Session → Prop} (hs : Asking w answers s)
    (hf : ∀ s', Asking w answers s' → s'.mem = s.mem →
      wp (f (reply w)) Q (fun _ s => Quiet w s ∧ Unanswered w answers) s') :
    wp (sendRecvRpc k script method reply >>= f) Q (fun _ s => Quiet w s ∧ Unanswered w answers) s := by
  have hask (ok : Bool) : Quiet w (s.asked k script method ok) := by
    refine ⟨hs.world, ?_, always_snoc.mpr ⟨hs.ok, hs.answered⟩, fun p hp => ?_⟩
    · intro e he
      rcases List.mem_append.mp he with he | he
      · exact hs.asked e he
      · rw [List.mem_singleton.mp he]
        rfl
    · exact ⟨(hs.past p hp).1.trans (List.prefix_append _ _), (hs.past p hp).2⟩
  refine wp_bind.mpr (wp_sendRecvRpc.mpr ⟨fun _ => ?_, fun hn => ⟨hask false, .inl ⟨s.log.length, ?_⟩⟩⟩)
  swap
  · rw [← hn, hs.answers]
  rw [hs.world]
  refine hf _ ⟨hask true, hs.answers, ?_⟩ rfl
  intro e he
  rcases List.mem_append.mp he with he | he
  · exact hs.answered e he
  · rw [List.mem_singleton.mp he]
    rfl

/-- An assignment leaves the run quiet, as long as it marks no bdev. -/
theorem wp_assign_quiet {f : Memory → Memory} {k : Unit → Live Manager}
    {Q : Manager → Session → Prop} (hs : Asking w answers s)
    (hf : ∀ b, (f s.mem).created b ≠ some 1)
    (hk : ∀ s', Asking w answers s' → s'.mem = f s.mem →
      wp (k ()) Q (fun _ s => Quiet w s ∧ Unanswered w answers) s') :
    wp (assign f >>= k) Q (fun _ s => Quiet w s ∧ Unanswered w answers) s := by
  refine wp_bind.mpr (wp_assign.mpr (hk _ ⟨⟨hs.world, hs.asked, hs.ok, ?_⟩, hs.answers, hs.answered⟩ rfl))
  intro p hp
  rcases List.mem_append.mp hp with hp | hp
  · exact hs.past p hp
  · rw [List.mem_singleton.mp hp]
    exact ⟨List.prefix_refl _, hf⟩

/-- The constructor reads the source and fills the memory. -/
theorem wp_start (w : World) (answers : ℕ → Bool) :
    wp (checkServiceRunning >>= fun _ => init)
      (fun manager s => manager = managerOf w.src ∧ Started w answers s)
      (fun _ s => Quiet w s ∧ Unanswered w answers) (start w answers) := by
  have h0 : Asking w answers (start w answers) :=
    ⟨⟨rfl, by simp [start], by simp [start], by simp [start]⟩, rfl, by simp [start]⟩
  have hinfo (b : String) :
      ((bdevInfo w.src.bdevs w.src.nvmfCtrls).1.lookup b).map (·.created) ≠ some 1 := by
    cases he : (bdevInfo w.src.bdevs w.src.nvmfCtrls).1.lookup b with
    | none => simp
    | some e => simp [((bdevInfo_inv w.src.bdevs w.src.nvmfCtrls).fresh b e he).created]
  simp only [checkServiceRunning, init, getBdevInfo, getEmulationFunctions, getControllerInfo,
    getSubsystemInfo, fillBdevHist, bind_assoc, pure_bind]
  refine wp_ask h0 fun s1 h1 m1 => wp_ask h1 fun s2 h2 m2 => ?_
  split
  · rename_i hv
    exact ⟨h2.toQuiet, .inr hv⟩
  refine wp_ask h2 fun s3 h3 m3 => wp_ask h3 fun s4 h4 m4 => ?_
  refine wp_assign_quiet h4 hinfo fun s5 h5 m5 => ?_
  refine wp_ask h5 fun s6 h6 m6 => wp_ask h6 fun s7 h7 m7 => wp_ask h7 fun s8 h8 m8 => ?_
  refine wp_ask h8 fun s9 h9 m9 => wp_assign_quiet h9 (fun b => ?_) fun s10 h10 m10 => ?_
  · rw [m9, m8, m7, m6, m5]
    exact hinfo b
  refine wp_ask h10 fun s11 h11 m11 => wp_assign_quiet h11 (fun b => ?_) fun s12 h12 m12 => ?_
  · rw [m11, m10, m9, m8, m7, m6, m5]
    intro h
    refine hinfo b (Eq.trans ?_ h)
    show _ = ((memoryOf w.src).bdevDict.lookup b).map _
    rw [memoryOf_lookup, Option.map_map]
    rfl
  · refine ⟨rfl, h12, ?_⟩
    rw [m12, m11, m10, m9, m8, m7, m6, m5]
    rfl

end Start

/-! ## The rule for runs -/

/-- A run that goes on: every RPC so far succeeded, and the tables are those of the constructor. -/
structure Steady (w : World) (answers : ℕ → Bool) (s : Session) : Prop where
  answers : s.answers = answers
  ok : ∀ e ∈ s.log, e.ok = true
  world : s.world = w.replay s.log
  tables : s.mem.tables = (memoryOf w.src).tables

/-- A run that is over: no RPC but the last may have failed. -/
structure Halted (w : World) (s : Session) : Prop where
  ok : Always (fun pre _ => ∀ e ∈ pre, e.ok = true) s.log
  world : s.world = w.replay s.log

section Rule

variable {w : World} {answers : ℕ → Bool} {s : Session}

/-- Queries do not change the processes. -/
theorem replay_asked (w : World) {l : List Event} (h : ∀ e ∈ l, e.cmd? = none) :
    w.replay l = w := by
  induction l using List.reverseRecOn with
  | nil => rfl
  | append_singleton l e ih =>
    have he := h e (by simp)
    rw [World.replay_append, ih fun x hx => h x (by simp [hx])]
    cases e with
    | sent c ok => simp [Event.cmd?] at he
    | asked k sc me ok => rfl

theorem Quiet.halted (h : Quiet w s) : Halted w s :=
  ⟨h.ok, by rw [h.world, replay_asked w h.asked]⟩

theorem Started.steady (h : Started w answers s) : Steady w answers s :=
  ⟨h.answers, h.answered, h.toQuiet.halted.world, by rw [h.mem]⟩

theorem Steady.halted (h : Steady w answers s) : Halted w s := by
  refine ⟨?_, h.world⟩
  rintro pre e post hl x hx
  exact h.ok x (by simp [hl, hx])

theorem Steady.known (h : Steady w answers s) (b : String) : s.mem.known b = w.src.entry b :=
  congrFun (Prod.mk.inj h.tables).1 b

theorem Steady.knownBase (h : Steady w answers s) (g : String) :
    s.mem.knownBase g = (memoryOf w.src).knownBase g :=
  congrFun (Prod.mk.inj h.tables).2 g

/-- An action keeps a run going, or it is over. -/
theorem perform_steady (self : Manager) (a : Action) (h : Steady w answers s) :
    wp (perform self a) (fun _ => Steady w answers) (fun _ => Halted w) s := by
  refine wp_mono (wp_and (perform_grows self a s) (perform_tables self a s)) ?_ ?_
  · rintro _ s' ⟨⟨ha, l, hl, hok, -, hw⟩, ht⟩
    refine ⟨ha.trans h.answers, ?_, ?_, Eq.trans ht h.tables⟩
    · intro e he
      rw [hl] at he
      exact (List.mem_append.mp he).elim (h.ok e) (hok e)
    · rw [hw, h.world, hl, World.replay_append]
  · rintro _ s' ⟨⟨l, hl, hok, -, hw⟩, -⟩
    refine ⟨?_, by rw [hw, h.world, hl, World.replay_append]⟩
    rw [hl]
    refine always_append h.halted.ok (hok.mono fun pre e hpre x hx => ?_)
    exact (List.mem_append.mp hx).elim (h.ok x) (hpre x)

/-- The rule for runs: an invariant `I` that starts with the constructor and is kept by every action
of the plan holds when the run returns, and `J`, which a run keeps when it is aborted, holds when it
does not. -/
theorem wp_main (w : World) (answers : ℕ → Bool) {I : List Action → Session → Prop} {J : Session → Prop}
    (h0 : ∀ s, Started w answers s → I [] s)
    (hq : Unanswered w answers → ∀ s, Quiet w s → J s)
    (hstep : ∀ done a rest, planOf w.src = done ++ a :: rest → ∀ s, Steady w answers s → I done s →
      wp (perform (managerOf w.src) a) (fun _ => I (done ++ [a])) (fun _ => J) s) :
    wp main (fun _ s => Steady w answers s ∧ I (planOf w.src) s)
      (fun _ s => Halted w s ∧ J s) (start w answers) := by
  rw [main_eq, ← bind_assoc, wp_bind]
  refine wp_mono (wp_start w answers) ?_ fun _ s h => ⟨h.1.halted, hq h.2 s h.1⟩
  rintro manager s ⟨rfl, hs⟩
  refine wp_forM (I := fun done s => Steady w answers s ∧ I done s) ?_ ⟨hs.steady, h0 s hs⟩
  rintro done a rest hp s ⟨hsteady, hI⟩
  exact wp_and (perform_steady _ a hsteady) (hstep done a rest hp s hsteady hI)

/-- What holds whenever a run ends, holds in its final state. -/
theorem run_final {P : Session → Prop}
    (h : wp main (fun _ => P) (fun _ => P) (start w answers)) : P (finalState (run w answers)) :=
  wp_finalState h

/-- What holds when a run returns. -/
theorem run_returned {P : Session → Prop} {E : Raised → Session → Prop}
    (h : wp main (fun _ => P) E (start w answers)) (hr : Returned (run w answers)) :
    P (finalState (run w answers)) := wp_returned h hr

/-- A safety property of the log that queries have, and that every action of the plan keeps. -/
theorem run_always (w : World) (answers : ℕ → Bool) {Q : List Event → Event → Prop}
    (hasked : ∀ pre e, e.cmd? = none → Q pre e)
    (hstep : ∀ a ∈ plan (managerOf w.src), ∀ s, Steady w answers s → Always Q s.log →
      wp (perform (managerOf w.src) a) (fun _ s' => Always Q s'.log)
        (fun _ s' => Always Q s'.log) s) :
    Halted w (finalState (run w answers)) ∧ Always Q (finalState (run w answers)).log := by
  have hquiet (s : Session) (hs : Quiet w s) : Always Q s.log := by
    rintro pre e post hl
    exact hasked pre e (hs.asked e (by simp [hl]))
  have hmain := wp_main w answers (I := fun _ s => Always Q s.log) (J := fun s => Always Q s.log)
    (fun s hs => hquiet s hs.toQuiet) (fun _ s hs => hquiet s hs) fun done a rest hp s hs h => ?_
  · exact run_final (wp_mono hmain (fun _ _ h => ⟨h.1.halted, h.2⟩) fun _ _ h => h)
  · have ha : a ∈ planOf w.src := by simp [hp]
    exact hstep a ha s hs h

end Rule

end DcPerf.LiveUpdate
