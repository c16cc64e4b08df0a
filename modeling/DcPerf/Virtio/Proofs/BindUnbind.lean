import DcPerf.Virtio.BindUnbind
import Mathlib.Data.List.Chain
import Mathlib.Order.Basic

/-!
# The cycles of `bind_unbind.sh`

What a step keeps: the writes so far are whole cycles and the part of the current one, and each wait
that was left early has seen what it waited for. The counts are those of the shell's number, which
is not always the number that was written.
-/

namespace DcPerf.Virtio.BindUnbind

open DcPerf.Library

variable {host : Host} {devName : String} {iterations : List Char} {answers : List Bool}
  {s : State} {v : BitVec 64} {log : List Event} {op : Op} {e : Event}

/-! ## Logs -/

theorem sinceLast_snoc :
    sinceLast op (log ++ [e]) =
      if e.op = op then some [] else (sinceLast op log).map (· ++ [e]) := by
  simp [sinceLast]

/-- The event that a wait is for. -/
theorem SeenSince.here {cycle : List Event} (h : sinceLast op log = some cycle) (he : e.op ≠ op) :
    SeenSince op e (log ++ [e]) := by
  refine ⟨cycle ++ [e], ?_, by simp⟩
  rw [sinceLast_snoc, if_neg he, h]
  rfl

/-- The cycle goes on. -/
theorem sinceLast_snoc_of_ne {cycle : List Event} (h : sinceLast op log = some cycle)
    (he : e.op ≠ op) : ∃ cycle, sinceLast op (log ++ [e]) = some cycle := by
  rw [sinceLast_snoc, if_neg he, h]
  exact ⟨_, rfl⟩

theorem sinceLast_snoc_self (answer : Bool) :
    ∃ cycle, sinceLast op (log ++ [⟨op, answer⟩]) = some cycle := by
  rw [sinceLast_snoc, if_pos rfl]
  exact ⟨_, rfl⟩

theorem writes_snoc :
    writes (log ++ [e]) = writes log ++ if e.op = .unbind ∨ e.op = .bind then [e.op] else [] := by
  unfold writes
  rw [List.map_append, List.filter_append]
  by_cases h : e.op = .unbind ∨ e.op = .bind <;> simp [h]

theorem writes_snoc_poll (h : ¬(e.op = .unbind ∨ e.op = .bind)) :
    writes (log ++ [e]) = writes log := by
  rw [writes_snoc, if_neg h, List.append_nil]

/-! ## Each bind sees the device detached, each unbind the block device -/

/-- What the log has seen when the script is at a given point. -/
def Seen (s : State) : Prop :=
  match s.pc with
  | .unbind => (∃ x ∈ s.log, x.op = .unbind) → SeenSince .bind ⟨.pollBlock, true⟩ s.log
  | .waitDetached _ => ∃ cycle, sinceLast .unbind s.log = some cycle
  | .bind => SeenSince .unbind ⟨.pollLink, true⟩ s.log
  | .waitPresent _ => ∃ cycle, sinceLast .bind s.log = some cycle
  | .checkPresent => ∃ cycle, sinceLast .bind s.log = some cycle
  | .exited _ => True

/-- The part of the property that every state has. -/
structure Safe (s : State) : Prop where
  binds : BindsDetached s.log
  unbinds : UnbindsPresent s.log
  seen : Seen s

theorem seen_loopTest (hs : SeenSince .bind ⟨.pollBlock, true⟩ log) (i : BitVec 64) :
    Seen { i := i, pc := loopTest iterations i, log := log } := by
  unfold loopTest
  cases shellNumber iterations with
  | none => trivial
  | some v =>
    by_cases h : i.sle v = true
    · simp only [h, if_true]
      intro _
      exact hs
    · simp only [h]
      trivial

/-- A step whose wait succeeds keeps the property. -/
theorem safe_step {answer : Bool} (hs : Safe s) (hw : WaitSucceeds s answer) :
    Safe (step iterations s answer) := by
  obtain ⟨i, pc, log⟩ := s
  obtain ⟨hb, hu, hseen⟩ := hs
  cases pc with
  | unbind =>
    refine ⟨always_snoc.mpr ⟨hb, by simp⟩, always_snoc.mpr ⟨hu, fun _ hx => hseen hx⟩, ?_⟩
    cases answer with
    | true => exact sinceLast_snoc_self true
    | false => trivial
  | waitDetached left =>
    obtain ⟨cycle, hc⟩ := hseen
    refine ⟨always_snoc.mpr ⟨hb, by simp⟩, always_snoc.mpr ⟨hu, by simp⟩, ?_⟩
    cases answer with
    | true => exact SeenSince.here hc (by decide)
    | false =>
      cases left with
      | zero => exact absurd (hw rfl) (by decide)
      | succ left => exact sinceLast_snoc_of_ne hc (by decide)
  | bind =>
    refine ⟨always_snoc.mpr ⟨hb, fun _ => hseen⟩, always_snoc.mpr ⟨hu, by simp⟩, ?_⟩
    cases answer with
    | true => exact sinceLast_snoc_self true
    | false => trivial
  | waitPresent left =>
    obtain ⟨cycle, hc⟩ := hseen
    refine ⟨always_snoc.mpr ⟨hb, by simp⟩, always_snoc.mpr ⟨hu, by simp⟩, ?_⟩
    cases answer with
    | true => exact sinceLast_snoc_of_ne hc (by decide)
    | false =>
      cases left with
      | zero => exact sinceLast_snoc_of_ne hc (by decide)
      | succ left => exact sinceLast_snoc_of_ne hc (by decide)
  | checkPresent =>
    obtain ⟨cycle, hc⟩ := hseen
    cases answer with
    | true =>
      refine ⟨always_snoc.mpr ⟨hb, by simp⟩, always_snoc.mpr ⟨hu, by simp⟩, ?_⟩
      exact seen_loopTest (SeenSince.here hc (by decide)) _
    | false => exact ⟨always_snoc.mpr ⟨hb, by simp⟩, always_snoc.mpr ⟨hu, by simp⟩, trivial⟩
  | exited code => exact ⟨hb, hu, trivial⟩

theorem safe_start : Safe (start host devName iterations) := by
  unfold start
  cases prepare host devName iterations with
  | error msg => exact ⟨always_nil, always_nil, trivial⟩
  | ok pciAddr =>
    refine ⟨always_nil, always_nil, ?_⟩
    unfold loopTest
    cases shellNumber iterations with
    | none => trivial
    | some v =>
      by_cases h : (1#64).sle v = true
      · simp [h, Seen]
      · simp [h, Seen]

theorem run_snoc (answer : Bool) :
    run host devName iterations (answers ++ [answer]) =
      step iterations (run host devName iterations answers) answer := by
  simp [run]

/-- A run whose waits succeed is safe. -/
theorem safe_run (h : WaitsSucceed host devName iterations answers) :
    Safe (run host devName iterations answers) := by
  induction answers using List.reverseRecOn with
  | nil => exact safe_start
  | append_singleton answers answer ih =>
    obtain ⟨hpre, hw⟩ := always_snoc.mp h
    rw [run_snoc]
    exact safe_step (ih hpre) hw

/-! ## The number of cycles -/

/-- The writes of `k` cycles. -/
def cycles (k : ℕ) : List Op := (List.replicate k [.unbind, .bind]).flatten

theorem cycles_succ (k : ℕ) : cycles (k + 1) = cycles k ++ [.unbind] ++ [.bind] := by
  simp [cycles, List.replicate_succ']

/-- The state is in the cycle after `k` whole ones, out of `n`. -/
structure InCycle (n k : ℕ) (s : State) (done : List Op) : Prop where
  lt : k < n
  counter : s.i = BitVec.ofNat 64 (k + 1)
  written : writes s.log = done

/-- What has been written when the script is at a given point. -/
def Counted (n : ℕ) (s : State) : Prop :=
  match s.pc with
  | .unbind => ∃ k, InCycle n k s (cycles k)
  | .waitDetached _ => ∃ k, InCycle n k s (cycles k ++ [.unbind])
  | .bind => ∃ k, InCycle n k s (cycles k ++ [.unbind])
  | .waitPresent _ => ∃ k, InCycle n k s (cycles (k + 1))
  | .checkPresent => ∃ k, InCycle n k s (cycles (k + 1))
  | .exited 0 => writes s.log = cycles n
  | .exited (_ + 1) => True

/-- The loop ends after the cycle with the number that the shell has read. -/
theorem loopTest_eq (hv : shellNumber iterations = some v) (hlt : v.toNat < 2 ^ 63 - 1) {k : ℕ}
    (hk : k ≤ v.toNat) :
    loopTest iterations (BitVec.ofNat 64 (k + 1)) =
      if k < v.toNat then .unbind else .exited 0 := by
  have hcount : (BitVec.ofNat 64 (k + 1)).toNat = k + 1 := by
    rw [BitVec.toNat_ofNat]
    omega
  have hsle : (BitVec.ofNat 64 (k + 1)).sle v = decide (k < v.toNat) := by
    rw [BitVec.sle_eq_decide, BitVec.toInt_eq_toNat_of_lt (by omega),
      BitVec.toInt_eq_toNat_of_lt (by omega), hcount]
    congr 1
    apply propext
    omega
  unfold loopTest
  rw [hv]
  by_cases h : k < v.toNat <;> simp [hsle, h]

theorem counted_loopTest (hv : shellNumber iterations = some v) (hlt : v.toNat < 2 ^ 63 - 1)
    {k : ℕ} (hk : k ≤ v.toNat) (hw : writes log = cycles k) :
    Counted v.toNat
      { i := BitVec.ofNat 64 (k + 1), pc := loopTest iterations (BitVec.ofNat 64 (k + 1)),
        log := log } := by
  rw [loopTest_eq hv hlt hk]
  by_cases h : k < v.toNat
  · rw [if_pos h]
    exact ⟨k, h, rfl, hw⟩
  · rw [if_neg h]
    have hkn : k = v.toNat := by omega
    show writes log = cycles v.toNat
    rw [hw, hkn]

theorem counted_step (hv : shellNumber iterations = some v) (hlt : v.toNat < 2 ^ 63 - 1)
    (hs : Counted v.toNat s) (answer : Bool) : Counted v.toNat (step iterations s answer) := by
  obtain ⟨i, pc, log⟩ := s
  cases pc with
  | unbind =>
    obtain ⟨k, hk, hi, (hw : writes log = _)⟩ := hs
    cases answer with
    | true =>
      have hunbind : writes (log ++ [⟨.unbind, true⟩]) = cycles k ++ [.unbind] := by
        rw [writes_snoc, hw]
        simp
      exact ⟨k, hk, hi, hunbind⟩
    | false => trivial
  | waitDetached left =>
    obtain ⟨k, hk, hi, (hw : writes log = _)⟩ := hs
    have hpoll : ∀ a, writes (log ++ [⟨.pollLink, a⟩]) = cycles k ++ [.unbind] := by
      intro a
      rw [writes_snoc_poll (by simp), hw]
    cases answer with
    | true => exact ⟨k, hk, hi, hpoll true⟩
    | false =>
      cases left with
      | zero => exact ⟨k, hk, hi, hpoll false⟩
      | succ left => exact ⟨k, hk, hi, hpoll false⟩
  | bind =>
    obtain ⟨k, hk, hi, (hw : writes log = _)⟩ := hs
    cases answer with
    | true =>
      have hbind : writes (log ++ [⟨.bind, true⟩]) = cycles (k + 1) := by
        rw [writes_snoc, hw, cycles_succ]
        simp
      exact ⟨k, hk, hi, hbind⟩
    | false => trivial
  | waitPresent left =>
    obtain ⟨k, hk, hi, (hw : writes log = _)⟩ := hs
    have hpoll : ∀ a, writes (log ++ [⟨.pollBlock, a⟩]) = cycles (k + 1) := by
      intro a
      rw [writes_snoc_poll (by simp), hw]
    cases answer with
    | true => exact ⟨k, hk, hi, hpoll true⟩
    | false =>
      cases left with
      | zero => exact ⟨k, hk, hi, hpoll false⟩
      | succ left => exact ⟨k, hk, hi, hpoll false⟩
  | checkPresent =>
    obtain ⟨k, hk, hi, (hw : writes log = _)⟩ := hs
    cases answer with
    | true =>
      have hnext : i + 1#64 = BitVec.ofNat 64 (k + 1 + 1) := by
        rw [show i = BitVec.ofNat 64 (k + 1) from hi, BitVec.ofNat_add (k + 1) 1]
      have hw' : writes (log ++ [⟨.pollBlock, true⟩]) = cycles (k + 1) := by
        rw [writes_snoc_poll (by simp), hw]
      have hc := counted_loopTest hv hlt (show k + 1 ≤ v.toNat from hk) hw'
      rw [← hnext] at hc
      exact hc
    | false => trivial
  | exited code => exact hs

theorem counted_run (hv : shellNumber iterations = some v) (hlt : v.toNat < 2 ^ 63 - 1)
    (host : Host) (devName : String) (answers : List Bool) :
    Counted v.toNat (run host devName iterations answers) := by
  induction answers using List.reverseRecOn with
  | nil =>
    show Counted v.toNat (start host devName iterations)
    unfold start
    cases prepare host devName iterations with
    | error msg => trivial
    | ok pciAddr => exact counted_loopTest hv hlt (Nat.zero_le _) rfl
  | append_singleton answers answer ih =>
    rw [run_snoc]
    exact counted_step hv hlt ih answer

/-- A loop up to the largest number never ends with success. -/
theorem endless_run (hv : shellNumber iterations = some v) (hmax : v.toNat = 2 ^ 63 - 1)
    (answers : List Bool) : (run host devName iterations answers).pc ≠ .exited 0 := by
  have htest : ∀ i, loopTest iterations i = .unbind := by
    intro i
    have hsle : i.sle v = true := by
      rw [BitVec.sle_eq_decide, decide_eq_true_iff, BitVec.toInt_eq_toNat_of_lt (x := v) (by omega),
        hmax]
      have := BitVec.toInt_lt (x := i)
      omega
    unfold loopTest
    simp [hv, hsle]
  induction answers using List.reverseRecOn with
  | nil =>
    show (start host devName iterations).pc ≠ .exited 0
    unfold start
    cases prepare host devName iterations with
    | error msg => simp
    | ok pciAddr => simp [htest]
  | append_singleton answers answer ih =>
    rw [run_snoc]
    revert ih
    generalize run host devName iterations answers = s
    obtain ⟨i, pc, log⟩ := s
    intro ih
    cases pc with
    | unbind => cases answer <;> simp [step]
    | waitDetached left => cases answer <;> cases left <;> simp [step]
    | bind => cases answer <;> simp [step]
    | waitPresent left => cases answer <;> cases left <;> simp [step]
    | checkPresent => cases answer <;> simp [step, htest]
    | exited code => exact ih

/-! ## The counts against the number that was written -/

theorem count_cycles (k : ℕ) : (cycles k).count .unbind = k ∧ (cycles k).count .bind = k := by
  induction k with
  | zero => exact ⟨rfl, rfl⟩
  | succ k ih =>
    rw [cycles_succ]
    simp [ih]

/-- Cycles alternate, and a cycle ends with a bind. -/
theorem isChain_cycles (k : ℕ) :
    (cycles k).IsChain (· ≠ ·) ∧ ∀ x ∈ (cycles k).getLast?, x = .bind := by
  induction k with
  | zero => simp [cycles]
  | succ k ih =>
    rw [cycles_succ]
    obtain ⟨hc, hl⟩ := ih
    refine ⟨?_, by simp⟩
    rw [List.append_assoc, List.isChain_append]
    refine ⟨hc, by simp, ?_⟩
    intro x hx y hy
    simp only [List.singleton_append, List.head?_cons, Option.mem_def, Option.some.injEq] at hy
    rw [hl x hx, ← hy]
    decide

theorem head_cycles {k : ℕ} (hk : 0 < k) : (cycles k).head? = some .unbind := by
  obtain ⟨k, rfl⟩ := Nat.exists_eq_add_of_le' hk
  simp [cycles, List.replicate_succ]

/-- A number that the script accepts is positive. -/
theorem pos_of_accepts (h : acceptsIterations iterations = true)
    (hv : shellNumber iterations = some v) : 0 < v.toNat ∧ v.toNat < 2 ^ 63 := by
  unfold acceptsIterations at h
  rw [hv] at h
  have hslt : v.slt 1#64 = false := by
    simpa using (Bool.and_eq_true_iff.mp h).2
  rw [BitVec.slt_eq_decide, decide_eq_false_iff_not, Int.not_lt] at hslt
  have h1 : (1#64).toInt = 1 := by decide
  rw [h1] at hslt
  have hv64 := v.isLt
  rw [BitVec.toInt_eq_toNat_cond] at hslt
  split at hslt <;> omega

/-- A host on which the script gets to its loop. -/
def readyHost : Host where
  euid := 0
  blockPresent := true
  rootDev := "/dev/nvme0n1p2"
  mountSrcs := ["/dev/nvme0n1p2"]
  devicePath := some ["virtio2", "0000:3a:00.0", "pci0000:3a", "devices", "sys"]
  pciPresent := true
  driverName := some "virtio-pci"
  writable := true

theorem start_readyHost (h : acceptsIterations iterations = true) :
    start readyHost "vda" iterations =
      { i := 1#64, pc := loopTest iterations 1#64, log := [] } := by
  have hvalid : validateBlockDevice readyHost "vda" = .ok () := by rfl
  have haddr : resolvePciAddr ["virtio2", "0000:3a:00.0", "pci0000:3a", "devices", "sys"] =
      .ok "0000:3a:00.0" := by rfl
  have hdriver : checkDriver readyHost "0000:3a:00.0" = .ok () := by rfl
  have hp : prepare readyHost "vda" iterations = .ok "0000:3a:00.0" := by
    unfold prepare
    rw [h, hvalid]
    show (do
      let pciAddr ← resolvePciAddr ["virtio2", "0000:3a:00.0", "pci0000:3a", "devices", "sys"]
      checkDriver readyHost pciAddr
      return pciAddr) = Except.ok "0000:3a:00.0"
    rw [haddr]
    show (do
      checkDriver readyHost "0000:3a:00.0"
      return "0000:3a:00.0") = Except.ok "0000:3a:00.0"
    rw [hdriver]
    rfl
  unfold start
  rw [hp]

/-- With nothing but good answers the host takes the script through its cycles. -/
theorem run_good (h : acceptsIterations iterations = true) (hv : shellNumber iterations = some v)
    (hlt : v.toNat < 2 ^ 63 - 1) {k : ℕ} (hk : k ≤ v.toNat) :
    ∃ log, run readyHost "vda" iterations (List.replicate (5 * k) true) =
      { i := BitVec.ofNat 64 (k + 1), pc := loopTest iterations (BitVec.ofNat 64 (k + 1)),
        log := log } := by
  induction k with
  | zero => exact ⟨[], start_readyHost h⟩
  | succ k ih =>
    obtain ⟨log, hr⟩ := ih (by omega)
    rw [loopTest_eq hv hlt (by omega), if_pos (by omega)] at hr
    have hsplit : List.replicate (5 * (k + 1)) true =
        List.replicate (5 * k) true ++ [true, true, true, true, true] := by
      rw [show 5 * (k + 1) = 5 * k + 5 by omega, List.replicate_add]
      rfl
    have hrun : run readyHost "vda" iterations (List.replicate (5 * (k + 1)) true) =
        [true, true, true, true, true].foldl (step iterations)
          (run readyHost "vda" iterations (List.replicate (5 * k) true)) := by
      unfold run
      rw [hsplit, List.foldl_append]
    rw [hrun, hr]
    exact ⟨_, by simp [step, BitVec.ofNat_add]; rfl⟩

theorem waitsSucceed_replicate (host : Host) (devName : String) (iterations : List Char) (n : ℕ) :
    WaitsSucceed host devName iterations (List.replicate n true) := by
  intro pre answer post hsplit _
  have hmem : answer ∈ List.replicate n true := by
    rw [hsplit]
    simp
  exact List.eq_of_mem_replicate hmem

/-- For a count that the script accepts, every run whose waits see the device detached does the
cycles that were asked for, exactly if the shell reads the digits as the number they stand for. -/
theorem cyclesAsAsked_iff (h : acceptsIterations iterations = true) :
    (∀ host devName answers, WaitsSucceed host devName iterations answers →
      CyclesAsAsked iterations (run host devName iterations answers)) ↔
    ReadAsWritten iterations := by
  constructor
  · intro hall
    cases hv : shellNumber iterations with
    | none =>
      have hc := (hall readyHost "vda" [] always_nil).1
      have hstart : run readyHost "vda" iterations [] = ⟨1#64, .exited 0, []⟩ := by
        show start readyHost "vda" iterations = _
        rw [start_readyHost h]
        simp [loopTest, hv]
      rw [hstart] at hc
      obtain ⟨-, -, hhead, -⟩ := hc rfl
      simp [writes] at hhead
    | some v =>
      obtain ⟨hpos, hlt⟩ := pos_of_accepts h hv
      refine ⟨v, hv, ?_⟩
      by_cases hmax : v.toNat = 2 ^ 63 - 1
      · exact .inr hmax
      · obtain ⟨log, hr⟩ := run_good h hv (by omega) le_rfl
        have hwait := waitsSucceed_replicate readyHost "vda" iterations (5 * v.toNat)
        have hexit : loopTest iterations (BitVec.ofNat 64 (v.toNat + 1)) = .exited 0 := by
          rw [loopTest_eq hv (by omega) le_rfl, if_neg (lt_irrefl _)]
        have hcount := counted_run hv (by omega) readyHost "vda"
          (List.replicate (5 * v.toNat) true)
        have hask := (hall readyHost "vda" _ hwait).1
        rw [hr, hexit] at hcount hask
        have hw : writes log = cycles v.toNat := hcount
        obtain ⟨hnum, -⟩ := hask rfl
        rw [hw, (count_cycles _).1] at hnum
        exact .inl hnum
  · rintro ⟨v, hv, hread⟩ host devName answers hwait
    have hsafe := safe_run hwait
    refine ⟨?_, hsafe.binds, hsafe.unbinds⟩
    intro hexit
    obtain ⟨hpos, hlt⟩ := pos_of_accepts h hv
    by_cases hmax : v.toNat = 2 ^ 63 - 1
    · exact absurd hexit (endless_run hv hmax answers)
    · have hcount := counted_run hv (by omega) host devName answers
      unfold Counted at hcount
      rw [hexit] at hcount
      have hn : v.toNat = valueIn 10 iterations := by omega
      unfold Cycles
      rw [hcount, ← hn]
      exact ⟨(count_cycles _).1, (count_cycles _).2, head_cycles hpos, (isChain_cycles _).1⟩

/-- Two cycles are done for a count of two. -/
theorem cyclesAsAsked_two :
    CyclesAsAsked ['2'] (run readyHost "vda" ['2'] (List.replicate 10 true)) := by
  have hread : ReadAsWritten ['2'] := ⟨2#64, by decide +kernel, .inl (by decide +kernel)⟩
  exact (cyclesAsAsked_iff (by decide +kernel)).mpr hread readyHost "vda" _
    (waitsSucceed_replicate _ _ _ 10)

instance : Decidable (SeenSince op e log) :=
  decidable_of_iff ((sinceLast op log).any fun cycle => cycle.contains e) (by
    simp [SeenSince, Option.any_eq_true])

instance : Decidable (BindsDetached log) := by unfold BindsDetached; infer_instance

/-- Fifty polls in vain do not keep the script from binding, and asked for `08` cycles it does none
and succeeds. -/
theorem not_cyclesAsAsked :
    ¬ CyclesAsAsked ['1'] (run readyHost "vda" ['1'] (true :: List.replicate 50 false ++ [true])) ∧
      ¬ CyclesAsAsked ['0', '8'] (run readyHost "vda" ['0', '8'] []) := by
  constructor
  · rintro ⟨-, hbinds, -⟩
    revert hbinds
    decide +kernel
  · rintro ⟨hcycles, -, -⟩
    have hexit : (run readyHost "vda" ['0', '8'] []).pc = .exited 0 := by decide +kernel
    have hnone : (writes (run readyHost "vda" ['0', '8'] []).log).head? = none := by decide +kernel
    rw [(hcycles hexit).2.2.1] at hnone
    exact absurd hnone (by decide)

end DcPerf.Virtio.BindUnbind
