import DcPerf.Library.Protocol
import Mathlib.Algebra.GroupWithZero.Nat

/-!
# Scripts against a clock

A script runs commands one after the other. The host answers each with an exit status, an output and the
time that it took, according to all that has happened before. Rules for loops that try something until
it succeeds or a time is over.
-/

namespace DcPerf.Library

/-- What a command comes back with. -/
structure Reply where
  status : ℕ
  output : List Char
  /-- In ticks of the clock, beyond what the command takes at least. -/
  took : ℕ

/-- A command that was run. -/
structure Ran (κ : Type) where
  command : κ
  reply : Reply

/-- The seconds that a command takes at least. -/
class Lasting (κ : Type) where
  atLeast : κ → ℕ

/-- The host of a script: its clock, with the ticks of a second and those at the start, and its answers. -/
structure TimedHost (κ : Type) where
  second : ℕ
  second_pos : 0 < second
  boot : ℕ
  answer : List (Ran κ) → κ → Reply

variable {κ : Type}

/-- `$?` -/
def lastStatus (log : List (Ran κ)) : ℕ := (log.getLast?.map fun r => r.reply.status).getD 0

/-- What the last command printed. -/
def lastOutput (log : List (Ran κ)) : List Char := (log.getLast?.map fun r => r.reply.output).getD []

namespace TimedHost

/-- One more command. -/
def after (w : TimedHost κ) (log : List (Ran κ)) (c : κ) : List (Ran κ) := log ++ [⟨c, w.answer log c⟩]

/-- One command after the other. -/
def runs (w : TimedHost κ) (cs : List κ) (log : List (Ran κ)) : List (Ran κ) := cs.foldl w.after log

/-- A command of a script. -/
def call (w : TimedHost κ) (c : κ) : Script (List (Ran κ)) Unit := modify fun log => w.after log c

/-- A command, and then `$?`. -/
def status (w : TimedHost κ) (c : κ) : Script (List (Ran κ)) ℕ := do
  w.call c
  return lastStatus (← get)

/-- A command, and what it printed. -/
def output (w : TimedHost κ) (c : κ) : Script (List (Ran κ)) (List Char) := do
  w.call c
  return lastOutput (← get)

/-- Commands until one succeeds, but not more than `n`. -/
def retry (w : TimedHost κ) (c : κ) : ℕ → List (Ran κ) → Bool × List (Ran κ)
  | 0, log => (false, log)
  | n + 1, log =>
    if lastStatus (w.after log c) = 0 then (true, w.after log c) else w.retry c n (w.after log c)

variable [Lasting κ]

def clock (w : TimedHost κ) (log : List (Ran κ)) : ℕ :=
  w.boot + (log.map fun r => Lasting.atLeast r.command * w.second + r.reply.took).sum

/-- `date +%s` -/
def seconds (w : TimedHost κ) (log : List (Ran κ)) : ℕ := w.clock log / w.second

end TimedHost

variable {w : TimedHost κ} {log log' : List (Ran κ)} {c : κ} {n : ℕ}

@[simp] theorem lastStatus_append (log : List (Ran κ)) (r : Ran κ) :
    lastStatus (log ++ [r]) = r.reply.status := by
  simp [lastStatus]

@[simp] theorem lastOutput_append (log : List (Ran κ)) (r : Ran κ) :
    lastOutput (log ++ [r]) = r.reply.output := by
  simp [lastOutput]

theorem lastStatus_after : lastStatus (w.after log c) = (w.answer log c).status := lastStatus_append _ _

theorem lastOutput_after : lastOutput (w.after log c) = (w.answer log c).output := lastOutput_append _ _

theorem wp_call {Q : Unit → List (Ran κ) → Prop} {E : Exit → List (Ran κ) → Prop} :
    wp (w.call c) Q E log ↔ Q () (w.after log c) := Iff.rfl

theorem wp_status {Q : ℕ → List (Ran κ) → Prop} {E : Exit → List (Ran κ) → Prop} :
    wp (w.status c) Q E log ↔ Q (w.answer log c).status (w.after log c) := by
  rw [← lastStatus_after]
  rfl

theorem wp_output {Q : List Char → List (Ran κ) → Prop} {E : Exit → List (Ran κ) → Prop} :
    wp (w.output c) Q E log ↔ Q (w.answer log c).output (w.after log c) := by
  rw [← lastOutput_after]
  rfl

theorem wp_modifyGet {σ α : Type} {f : σ → α × σ} {Q : α → σ → Prop} {E : Exit → σ → Prop} {s : σ} :
    wp (MonadState.modifyGet f : Script σ α) Q E s ↔ Q (f s).1 (f s).2 := Iff.rfl

theorem prefix_after : log <+: w.after log c := List.prefix_append _ _

theorem goesOn_after {P : Ran κ → Prop} (h : P ⟨c, w.answer log c⟩) : GoesOn P log (w.after log c) :=
  goesOn_append (by simpa using h)

theorem goesOn_runs {P : Ran κ → Prop} {cs : List κ} (h : ∀ r : Ran κ, r.command ∈ cs → P r)
    (log : List (Ran κ)) : GoesOn P log (w.runs cs log) := by
  induction cs generalizing log with
  | nil => exact .refl log
  | cons c cs ih =>
    exact (goesOn_after (h _ List.mem_cons_self)).trans (ih (fun r hr => h r (List.mem_cons_of_mem c hr)) _)

theorem prefix_runs (cs : List κ) (log : List (Ran κ)) : log <+: w.runs cs log := by
  have hgoes : GoesOn (fun _ => True) log (w.runs cs log) := goesOn_runs (fun _ _ => trivial) log
  obtain ⟨more, hmore, -⟩ := hgoes
  exact ⟨more, hmore.symm⟩

/-- A retry that fails has run its command as often as it may, always without success; one that succeeds
ends with the success. -/
theorem retry_spec (w : TimedHost κ) (c : κ) (n : ℕ) (log : List (Ran κ)) :
    ∃ k ≤ n, ∃ log', GoesOn (fun r => r.command = c ∧ r.reply.status ≠ 0) log log' ∧
      log'.length = log.length + k ∧ (w.retry c n log = (false, log') ∧ k = n ∨
        w.retry c n log = (true, w.after log' c) ∧ lastStatus (w.after log' c) = 0 ∧ k < n) := by
  induction n generalizing log with
  | zero => exact ⟨0, Nat.le_refl _, log, .refl log, rfl, Or.inl ⟨rfl, rfl⟩⟩
  | succ n ih =>
    rw [TimedHost.retry]
    by_cases h : lastStatus (w.after log c) = 0
    · rw [if_pos h]
      exact ⟨0, by omega, log, .refl log, rfl, Or.inr ⟨rfl, h, by omega⟩⟩
    · rw [if_neg h]
      obtain ⟨k, hk, log', hgoes, hlen, hcase⟩ := ih (w.after log c)
      have hfirst : GoesOn (fun r => r.command = c ∧ r.reply.status ≠ 0) log (w.after log c) :=
        goesOn_after ⟨rfl, by simpa [TimedHost.after] using h⟩
      have hafter : (w.after log c).length = log.length + 1 := by simp [TimedHost.after]
      refine ⟨k + 1, by omega, log', hfirst.trans hgoes, by omega, ?_⟩
      rcases hcase with ⟨hretry, rfl⟩ | ⟨hretry, hstatus, hlt⟩
      · exact Or.inl ⟨hretry, rfl⟩
      · exact Or.inr ⟨hretry, hstatus, by omega⟩

section Clock

variable [Lasting κ]

theorem clock_after : w.clock (w.after log c) =
    w.clock log + (Lasting.atLeast c * w.second + (w.answer log c).took) := by
  simp [TimedHost.clock, TimedHost.after, Nat.add_assoc]

theorem clock_mono (h : log <+: log') : w.clock log ≤ w.clock log' := by
  obtain ⟨more, rfl⟩ := h
  simp [TimedHost.clock]

theorem seconds_mono (h : log <+: log') : w.seconds log ≤ w.seconds log' :=
  Nat.div_le_div_right (clock_mono h)

/-! ## Loops with a time limit -/

/-- Something that is tried: whether it succeeds, and what has then happened. If it fails, some seconds
have passed. -/
structure Attempt (w : TimedHost κ) where
  go : List (Ran κ) → Bool × List (Ran κ)
  pause : ℕ
  pause_pos : 0 < pause
  grows : ∀ log, log <+: (go log).2
  lasts : ∀ log, (go log).1 = false → w.clock log + pause * w.second ≤ w.clock (go log).2

/-- The clock is still before the end of the time limit. -/
theorem clock_lt_of_seconds {limit start : ℕ} (h : ¬limit ≤ w.seconds log - start) :
    w.clock log < (start + limit) * w.second := by
  have hlt : w.seconds log < start + limit := by omega
  exact (Nat.div_lt_iff_lt_mul w.second_pos).mp hlt

theorem Attempt.pause_ticks (a : Attempt w) : 0 < a.pause * w.second := Nat.mul_pos a.pause_pos w.second_pos

/-- Attempts until one succeeds, or until `limit` seconds have passed since `start` when the commands
`reads` have been run. -/
def Attempt.within (a : Attempt w) (reads : List κ) (limit start : ℕ) (log : List (Ran κ)) :
    Bool × List (Ran κ) :=
  if limit ≤ w.seconds (w.runs reads log) - start then (false, w.runs reads log)
  else if (a.go (w.runs reads log)).1 = true then a.go (w.runs reads log)
  else a.within reads limit start (a.go (w.runs reads log)).2
termination_by (start + limit) * w.second - w.clock log
decreasing_by
  rename_i hlimit hfail
  have hread : w.clock log ≤ w.clock (w.runs reads log) := clock_mono (prefix_runs reads log)
  have hlt := clock_lt_of_seconds hlimit
  have hlasts := a.lasts (w.runs reads log) (Bool.not_eq_true _ ▸ hfail)
  have hpos := a.pause_ticks
  omega

variable {a : Attempt w} {reads : List κ} {limit start : ℕ}

/-- A loop ends after its time, all attempts having failed, or within it with an attempt that
succeeds. -/
theorem Attempt.within_spec {P : Ran κ → Prop} (a : Attempt w) (reads : List κ) (limit start : ℕ)
    (hreads : ∀ r : Ran κ, r.command ∈ reads → P r)
    (hgo : ∀ log, (a.go log).1 = false → GoesOn P log (a.go log).2) (log : List (Ran κ)) :
    ∃ log', GoesOn P log log' ∧ (∃ pre, log' = w.runs reads pre ∧ log <+: pre) ∧
      (limit ≤ w.seconds log' - start ∧ a.within reads limit start log = (false, log') ∨
        ¬limit ≤ w.seconds log' - start ∧ (a.go log').1 = true ∧
          a.within reads limit start log = a.go log') := by
  induction log using Attempt.within.induct a reads limit start with
  | case1 log hlimit =>
    refine ⟨_, goesOn_runs hreads log, ⟨log, rfl, List.prefix_rfl⟩, Or.inl ⟨hlimit, ?_⟩⟩
    rw [Attempt.within, if_pos hlimit]
  | case2 log hlimit hgone =>
    refine ⟨_, goesOn_runs hreads log, ⟨log, rfl, List.prefix_rfl⟩, Or.inr ⟨hlimit, hgone, ?_⟩⟩
    rw [Attempt.within, if_neg hlimit, if_pos hgone]
  | case3 log hlimit hgone ih =>
    obtain ⟨log', hgoes, ⟨pre, hpre, hprefix⟩, hcase⟩ := ih
    have hfirst := hgo (w.runs reads log) (Bool.not_eq_true _ ▸ hgone)
    refine ⟨log', ((goesOn_runs hreads log).trans hfirst).trans hgoes, ⟨pre, hpre, ?_⟩, ?_⟩
    · exact ((prefix_runs reads log).trans (a.grows _)).trans hprefix
    · rw [Attempt.within, if_neg hlimit, if_neg hgone]
      exact hcase

/-- What holds of the commands of all attempts holds of those of the loop. -/
theorem Attempt.within_goesOn {P : Ran κ → Prop} (a : Attempt w) (reads : List κ) (limit start : ℕ)
    (hreads : ∀ r : Ran κ, r.command ∈ reads → P r) (hgo : ∀ log, GoesOn P log (a.go log).2)
    (log : List (Ran κ)) : GoesOn P log (a.within reads limit start log).2 := by
  obtain ⟨log', hgoes, -, hcase⟩ := a.within_spec reads limit start hreads (fun log _ => hgo log) log
  rcases hcase with ⟨-, hwithin⟩ | ⟨-, -, hwithin⟩
  · rw [hwithin]
    exact hgoes
  · rw [hwithin]
    exact hgoes.trans (hgo log')

/-- The attempts for which there is time left. -/
def Attempt.room (a : Attempt w) (limit start : ℕ) (log : List (Ran κ)) : ℕ :=
  ((start + limit) * w.second - w.clock log + (a.pause * w.second - 1)) / (a.pause * w.second)

/-- If an attempt has `m` commands of some kind at most, a loop has no more of them than there is time
for. -/
theorem Attempt.within_countP {p : Ran κ → Bool} {m : ℕ} (a : Attempt w) (reads : List κ)
    (limit start : ℕ) (hreads : ∀ r : Ran κ, r.command ∈ reads → p r = false)
    (hgo : ∀ log, (a.go log).2.countP p ≤ log.countP p + m) (log : List (Ran κ)) :
    (a.within reads limit start log).2.countP p ≤ log.countP p + m * a.room limit start log := by
  have hpos := a.pause_ticks
  have hcount (log : List (Ran κ)) : (w.runs reads log).countP p = log.countP p := by
    obtain ⟨more, hmore, hno⟩ := goesOn_runs (w := w) hreads log
    rw [hmore, List.countP_append, Nat.add_eq_left, List.countP_eq_zero]
    exact fun r hr => by simp [hno r hr]
  induction log using Attempt.within.induct a reads limit start with
  | case1 log hlimit =>
    rw [Attempt.within, if_pos hlimit, hcount]
    omega
  | case2 log hlimit hgone =>
    rw [Attempt.within, if_neg hlimit, if_pos hgone]
    have hlt := clock_lt_of_seconds hlimit
    have hmono : w.clock log ≤ w.clock (w.runs reads log) := clock_mono (prefix_runs reads log)
    have hroom : 1 ≤ a.room limit start log := by
      rw [Attempt.room, Nat.le_div_iff_mul_le hpos]
      omega
    have hone := hgo (w.runs reads log)
    rw [hcount] at hone
    have hmul : m * 1 ≤ m * a.room limit start log := Nat.mul_le_mul_left m hroom
    omega
  | case3 log hlimit hgone ih =>
    rw [Attempt.within, if_neg hlimit, if_neg hgone]
    have hlt := clock_lt_of_seconds hlimit
    have hmono : w.clock log ≤ w.clock (w.runs reads log) := clock_mono (prefix_runs reads log)
    have hlasts := a.lasts (w.runs reads log) (Bool.not_eq_true _ ▸ hgone)
    have hroom : a.room limit start (a.go (w.runs reads log)).2 + 1 ≤ a.room limit start log := by
      unfold Attempt.room
      rcases Nat.lt_or_ge (w.clock (a.go (w.runs reads log)).2) ((start + limit) * w.second) with hin | hout
      · rw [← Nat.add_div_right _ hpos]
        exact Nat.div_le_div_right (by omega)
      · -- the attempt has taken the rest of the time
        have hnone : (start + limit) * w.second - w.clock (a.go (w.runs reads log)).2 = 0 := by omega
        rw [hnone, Nat.zero_add, Nat.div_eq_of_lt (by omega), Nat.le_div_iff_mul_le hpos]
        omega
    have hone := hgo (w.runs reads log)
    rw [hcount] at hone
    have hmul := Nat.mul_le_mul_left m hroom
    rw [Nat.mul_succ] at hmul
    omega

/-- From the start of the time, there is room for as many attempts as pauses fit into it. -/
theorem Attempt.room_le (a : Attempt w) (limit : ℕ) (h : start = w.seconds log) :
    a.room limit start log ≤ (limit + (a.pause - 1)) / a.pause := by
  have hstart : start * w.second ≤ w.clock log := by
    rw [h]
    exact Nat.div_mul_le_self _ _
  have hticks := a.pause_ticks
  have hround := Nat.lt_mul_div_succ (limit + (a.pause - 1)) a.pause_pos
  have hpause := a.pause_pos
  have hfit : limit + a.pause ≤ a.pause * ((limit + (a.pause - 1)) / a.pause + 1) := by omega
  have hscaled := Nat.mul_le_mul_right w.second hfit
  rw [Nat.add_mul, Nat.mul_right_comm] at hscaled
  rw [Attempt.room, ← Nat.lt_succ_iff, Nat.div_lt_iff_lt_mul hticks, Nat.succ_eq_add_one, Nat.mul_comm _ (a.pause * w.second)]
  rw [Nat.add_mul]
  omega

end Clock

/-! ## Reasons to exit -/

section ExitsFor

variable {α β : Type} {E : Exit → List (Ran κ) → Prop}

/-- A part of a script that exits only for a reason. -/
def ExitsFor (E : Exit → List (Ran κ) → Prop) (m : Script (List (Ran κ)) α) : Prop :=
  ∀ log, wp m (fun _ _ => True) E log

theorem ExitsFor.bind {m : Script (List (Ran κ)) α} {f : α → Script (List (Ran κ)) β}
    (hm : ExitsFor E m) (hf : ∀ a, ExitsFor E (f a)) : ExitsFor E (m >>= f) := by
  intro log
  rw [wp_bind]
  exact wp_mono (hm log) (fun a log' _ => hf a log') fun _ _ h => h

theorem exitsFor_pure (a : α) : ExitsFor E (pure a) := fun _ => trivial

theorem exitsFor_call (c : κ) : ExitsFor E (w.call c) := fun _ => trivial

theorem exitsFor_modifyGet (f : List (Ran κ) → α × List (Ran κ)) :
    ExitsFor E (MonadState.modifyGet f : Script (List (Ran κ)) α) := by
  intro log
  rw [wp_modifyGet]
  trivial

theorem ExitsFor.rounds {f : ℕ → Script (List (Ran κ)) Unit} (h : ∀ n, ExitsFor E (f n))
    (ns : List ℕ) : ExitsFor E (ns.forM f) := by
  induction ns with
  | nil => exact exitsFor_pure PUnit.unit
  | cons n ns ih =>
    rw [forM_cons]
    exact (h n).bind fun _ => ih

/-- When a script has exited, there was a reason. -/
theorem ExitsFor.of_error {m : Script (List (Ran κ)) α} {e : Exit} (hm : ExitsFor E m)
    (h : m log = .error e log') : E e log' := by
  have hwp := hm log
  rwa [wp, h] at hwp

end ExitsFor

/-! ## Protocols of commands -/

namespace Protocol

variable {σ α : Type} {P : Protocol σ (Ran κ)} {p q : σ → Prop}

/-- A command that is allowed whatever it comes back with. -/
theorem Leads.call (c : κ) (h : ∀ s reply, p s → P.Allowed s ⟨c, reply⟩ ∧ q (P.next s ⟨c, reply⟩)) :
    P.Leads p (w.call c) fun _ => q := by
  intro log hlog hp
  obtain ⟨hallowed, hq⟩ := h (P.state log) (w.answer log c) hp
  rw [wp_call, TimedHost.after, kept_append, state_append]
  exact ⟨⟨hlog, hallowed⟩, hq⟩

theorem Leads.status (c : κ) {q : ℕ → σ → Prop}
    (h : ∀ s reply, p s → P.Allowed s ⟨c, reply⟩ ∧ q reply.status (P.next s ⟨c, reply⟩)) :
    P.Leads p (w.status c) q := by
  intro log hlog hp
  obtain ⟨hallowed, hq⟩ := h (P.state log) (w.answer log c) hp
  rw [wp_status, TimedHost.after, kept_append, state_append]
  exact ⟨⟨hlog, hallowed⟩, hq⟩

theorem Leads.output (c : κ) {q : List Char → σ → Prop}
    (h : ∀ s reply, p s → P.Allowed s ⟨c, reply⟩ ∧ q reply.output (P.next s ⟨c, reply⟩)) :
    P.Leads p (w.output c) q := by
  intro log hlog hp
  obtain ⟨hallowed, hq⟩ := h (P.state log) (w.answer log c) hp
  rw [wp_output, TimedHost.after, kept_append, state_append]
  exact ⟨⟨hlog, hallowed⟩, hq⟩

/-- Commands that are allowed and change nothing. -/
theorem Leads.modifyGet {f : List (Ran κ) → α × List (Ran κ)}
    (h : ∀ s log, p s → GoesOn (fun r => P.Allowed s r ∧ P.next s r = s) log (f log).2) :
    P.Leads p (MonadState.modifyGet f : Script (List (Ran κ)) α) fun _ => p := by
  intro log hlog hp
  rw [wp_modifyGet]
  obtain ⟨hkept, hstate⟩ := kept_goesOn hlog rfl (h (P.state log) log hp)
  exact ⟨hkept, by rwa [hstate]⟩

end Protocol

end DcPerf.Library
