import DcPerf.Soak.SnapService

/-!
# The wait for the service

The loop asks at most 60 times in each of 30 rounds. Without a warning the service has answered; with one it may have
answered as well, if the time was over when the script looked at the clock again.
-/

namespace DcPerf.Soak

open DcPerf.Library

variable {w : TimedHost Command} {socket : Option String} {log : Log}

/-- The service has answered. -/
def Answers (socket : Option String) (r : Ran Command) : Prop :=
  r.command = .spdkGetVersion socket ∧ r.reply.status = 0

/-- A command of the loop that gets no answer. -/
def Unanswered (socket : Option String) (r : Ran Command) : Prop :=
  r.command = .date ∨ r.command = .sleep 1 ∨ r.command = .spdkGetVersion socket ∧ r.reply.status ≠ 0

theorem Unanswered.not_answers {r : Ran Command} (h : Unanswered socket r) : ¬Answers socket r := by
  rintro ⟨hc, hstatus⟩
  rcases h with h | h | ⟨-, h⟩
  · rw [h] at hc
    cases hc
  · rw [h] at hc
    cases hc
  · exact h hstatus

/-- A round asks until it is answered, or as often as it may. -/
theorem pollOnce_spec (w : TimedHost Command) (socket : Option String) (log : Log) :
    ∃ log', GoesOn (Unanswered socket) log log' ∧
      (pollOnce w socket log = (false, log') ∨
        pollOnce w socket log = (true, w.after log' (.spdkGetVersion socket)) ∧
          lastStatus (w.after log' (.spdkGetVersion socket)) = 0) := by
  obtain ⟨k, -, log', hgoes, -, hcase⟩ := retry_spec w (.spdkGetVersion socket) retries log
  have hasked : GoesOn (Unanswered socket) log log' := hgoes.mono fun r hr => Or.inr (Or.inr hr)
  rcases hcase with ⟨hretry, -⟩ | ⟨hretry, hstatus, -⟩
  · refine ⟨w.after log' (.sleep 1), hasked.trans (goesOn_after (Or.inr (Or.inl rfl))), Or.inl ?_⟩
    simp [pollOnce, hretry]
  · refine ⟨log', hasked, Or.inr ⟨?_, hstatus⟩⟩
    simp [pollOnce, hretry]

/-- A round asks at most `RETRIES` times. -/
theorem pollOnce_countP (w : TimedHost Command) (socket : Option String) (log : Log) :
    (pollOnce w socket log).2.countP (fun r => decide (r.command = .spdkGetVersion socket)) ≤
      log.countP (fun r => decide (r.command = .spdkGetVersion socket)) + retries := by
  obtain ⟨k, hk, log', ⟨more, rfl, hmore⟩, hlen, hcase⟩ :=
    retry_spec w (.spdkGetVersion socket) retries log
  have hle := List.countP_le_length (p := fun r : Ran Command =>
    decide (r.command = .spdkGetVersion socket)) (l := more)
  rw [List.length_append] at hlen
  rcases hcase with ⟨hretry, -⟩ | ⟨hretry, -, hlt⟩
  · simp only [pollOnce, hretry, Bool.false_eq_true, if_false, TimedHost.after, List.countP_append]
    simp
    omega
  · simp only [pollOnce, hretry, if_true, TimedHost.after, List.countP_append]
    simp
    omega

/-- The loop ends with an answer, or unanswered after the time. -/
theorem waitForService_spec (w : TimedHost Command) (socket : Option String) (start : ℕ) (log : Log) :
    ∃ log', GoesOn (Unanswered socket) log log' ∧
      (waitForService w socket start log = (false, log') ∧ timeout ≤ w.seconds log' - start ∨
        waitForService w socket start log = (true, w.after log' (.spdkGetVersion socket)) ∧
          lastStatus (w.after log' (.spdkGetVersion socket)) = 0) := by
  have hfail (log : Log) (h : ((polling w socket).go log).1 = false) :
      GoesOn (Unanswered socket) log ((polling w socket).go log).2 := by
    obtain ⟨log', hgoes, hcase⟩ := pollOnce_spec w socket log
    have hgo : (polling w socket).go log = pollOnce w socket log := rfl
    rw [hgo] at h ⊢
    rcases hcase with hpoll | ⟨hpoll, -⟩
    · rw [hpoll]
      exact hgoes
    · rw [hpoll] at h
      cases h
  have hreads : ∀ r : Ran Command, r.command ∈ [Command.date] → Unanswered socket r :=
    fun r hr => Or.inl (List.mem_singleton.mp hr)
  obtain ⟨log', hgoes, -, hcase⟩ :=
    (polling w socket).within_spec [.date] timeout start hreads hfail log
  rcases hcase with ⟨hlimit, hwithin⟩ | ⟨-, hgone, hwithin⟩
  · exact ⟨log', hgoes, Or.inl ⟨hwithin, hlimit⟩⟩
  · obtain ⟨last, hlast, hpoll | ⟨hpoll, hstatus⟩⟩ := pollOnce_spec w socket log'
    · have hfailed : (pollOnce w socket log').1 = true := hgone
      rw [hpoll] at hfailed
      cases hfailed
    · exact ⟨last, hgoes.trans hlast, Or.inr ⟨hwithin.trans hpoll, hstatus⟩⟩

theorem waitForService_countP (w : TimedHost Command) (socket : Option String) (log : Log) :
    (waitForService w socket (w.seconds log) log).2.countP
        (fun r => decide (r.command = .spdkGetVersion socket)) ≤
      log.countP (fun r => decide (r.command = .spdkGetVersion socket)) + retries * timeout := by
  have hreads : ∀ r : Ran Command, r.command ∈ [Command.date] →
      decide (r.command = .spdkGetVersion socket) = false := by
    intro r hr
    rw [List.mem_singleton.mp hr]
    rfl
  have hcount := (polling w socket).within_countP [.date] timeout (w.seconds log) hreads
    (pollOnce_countP w socket) log
  have hroom : (polling w socket).room timeout (w.seconds log) log ≤ (timeout + (1 - 1)) / 1 :=
    (polling w socket).room_le timeout rfl
  rw [Nat.sub_self, Nat.add_zero, Nat.div_one] at hroom
  exact hcount.trans (Nat.add_le_add_left (Nat.mul_le_mul_left retries hroom) _)

/-- What happens after the loop. -/
def Quiet (r : Ran Command) : Prop := r.command = .date ∨ ∃ text, r.command = .echo text

theorem not_answers_of_quiet {r : Ran Command} (h : Quiet r) : ¬Answers socket r := by
  rcases h with hc | ⟨text, hc⟩
  · simp [Answers, hc]
  · simp [Answers, hc]

theorem countP_of_quiet {tail : Log} (h : ∀ r ∈ tail, Quiet r) :
    tail.countP (fun r => decide (r.command = .spdkGetVersion socket)) = 0 := by
  rw [List.countP_eq_zero]
  intro r hr
  rcases h r hr with hc | ⟨text, hc⟩
  · simp [hc]
  · simp [hc]

/-- After the loop the script looks at the clock, and may print. -/
theorem checkTimeout_log (w : TimedHost Command) (start : ℕ) (log : Log) :
    GoesOn Quiet log (checkTimeout w start log).2 := by
  have hdate (log : Log) : GoesOn Quiet log (w.after log .date) := goesOn_after (Or.inl rfl)
  by_cases h : timeout ≤ w.seconds (w.after log .date) - start
  · rw [checkTimeout, if_pos h]
    exact ((hdate log).trans (hdate _)).trans (goesOn_after (Or.inr ⟨_, rfl⟩))
  · rw [checkTimeout, if_neg h]
    exact hdate log

/-- If the time was over after the loop, it still is when the script looks at the clock. -/
theorem checkTimeout_of_over {start : ℕ} (h : timeout ≤ w.seconds log - start) :
    (checkTimeout w start log).1 = true := by
  have hover : timeout ≤ w.seconds (w.after log .date) - start :=
    h.trans (Nat.sub_le_sub_right (seconds_mono prefix_after) start)
  unfold checkTimeout
  simp only [hover, if_true]

/-- However the host behaves, the script asks at most `RETRIES` times for every second of `TIMEOUT`; and
without a warning the service has answered. -/
theorem detectService_spec (w : TimedHost Command) (socket : Option String) (log : Log) :
    ∃ new, (detectService w socket log).log = log ++ new ∧
      ((detectService w socket log).answered = true ↔ ∃ r ∈ new, Answers socket r) ∧
      ((detectService w socket log).warned = false → (detectService w socket log).answered = true) ∧
      new.countP (fun r => decide (r.command = .spdkGetVersion socket)) ≤ retries * timeout := by
  have hcount := waitForService_countP w socket (w.after log .date)
  have hstarted : GoesOn (Unanswered socket) log (w.after log .date) := goesOn_after (Or.inl rfl)
  obtain ⟨log', hgoes, hcase⟩ := waitForService_spec w socket (w.seconds (w.after log .date)) (w.after log .date)
  obtain ⟨more, rfl, hmore⟩ := hstarted.trans hgoes
  have hfirst : (w.after log .date).countP (fun r => decide (r.command = .spdkGetVersion socket)) =
      log.countP (fun r => decide (r.command = .spdkGetVersion socket)) := by
    simp [TimedHost.after, List.countP_append]
  unfold detectService
  rcases hcase with ⟨hwait, hover⟩ | ⟨hwait, hstatus⟩
  · rw [hwait] at hcount ⊢
    obtain ⟨tail, htail, hquiet⟩ := checkTimeout_log w (w.seconds (w.after log .date)) (log ++ more)
    have hover' := checkTimeout_of_over hover
    refine ⟨more ++ tail, htail.trans (List.append_assoc _ _ _), ?_, ?_, ?_⟩
    · constructor
      · intro hanswered
        cases hanswered
      · rintro ⟨r, hr, hans⟩
        rcases List.mem_append.mp hr with hr | hr
        · exact absurd hans (hmore r hr).not_answers
        · exact absurd hans (not_answers_of_quiet (hquiet r hr))
    · intro hsilent
      cases hover'.symm.trans hsilent
    · rw [hfirst, List.countP_append] at hcount
      rw [List.countP_append, countP_of_quiet hquiet]
      omega
  · rw [hwait] at hcount ⊢
    generalize hr : (⟨.spdkGetVersion socket, w.answer (log ++ more) (.spdkGetVersion socket)⟩ :
      Ran Command) = r at *
    have hlast : w.after (log ++ more) (.spdkGetVersion socket) = log ++ (more ++ [r]) := by
      rw [TimedHost.after, hr, List.append_assoc]
    have hans : Answers socket r := by
      rw [hlast, ← List.append_assoc, lastStatus_append] at hstatus
      exact ⟨by rw [← hr], hstatus⟩
    rw [hlast] at hcount ⊢
    obtain ⟨tail, htail, hquiet⟩ := checkTimeout_log w (w.seconds (w.after log .date)) (log ++ (more ++ [r]))
    refine ⟨more ++ [r] ++ tail, htail.trans (List.append_assoc _ _ _), ⟨fun _ => ⟨r, by simp, hans⟩, fun _ => rfl⟩,
      fun _ => rfl, ?_⟩
    rw [hfirst, List.countP_append] at hcount
    rw [List.countP_append, countP_of_quiet hquiet]
    omega

end DcPerf.Soak
