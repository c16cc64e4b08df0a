import DcPerf.Soak.RebootAttach

/-!
# The wait for the host

The loop tries to log in after every five seconds, for 1200 seconds.
-/

namespace DcPerf.Soak.RebootAttach

open DcPerf.Library

variable {w : TimedHost Command} {log : Log} {r : Ran Command}

/-- A login that succeeded. -/
def LoggedIn (r : Ran Command) : Prop := r.command = .sshSleep ∧ r.reply.status = 0

/-- A command of the loop that is not one. -/
def Unsuccessful (r : Ran Command) : Prop :=
  r.command = .date ∨ r.command = .sleep 5 ∨ r.command = .sshSleep ∧ r.reply.status ≠ 0

theorem Unsuccessful.not_loggedIn (h : Unsuccessful r) : ¬LoggedIn r := by
  rintro ⟨hc, hstatus⟩
  rcases h with h | h | ⟨-, h⟩
  · rw [h] at hc
    cases hc
  · rw [h] at hc
    cases hc
  · exact h hstatus

/-! ## One turn -/

/-- What a login comes back with. -/
def loginReply (w : TimedHost Command) (log : Log) : Reply := w.answer (w.after log (.sleep 5)) .sshSleep

theorem loginOnce_log (log : Log) : (loginOnce w log).2 =
    log ++ [⟨.sleep 5, w.answer log (.sleep 5)⟩, ⟨.sshSleep, loginReply w log⟩] := by
  simp [loginOnce, TimedHost.after, loginReply]

theorem loginOnce_iff (log : Log) : (loginOnce w log).1 = true ↔ (loginReply w log).status = 0 := by
  simp [loginOnce, lastStatus_after, loginReply]

theorem loginOnce_fails (log : Log) (h : (loginOnce w log).1 = false) :
    GoesOn Unsuccessful log (loginOnce w log).2 := by
  have hfail : (loginReply w log).status ≠ 0 := by
    rw [Ne, ← loginOnce_iff, h]
    exact Bool.false_ne_true
  rw [loginOnce_log]
  refine goesOn_append ?_
  intro r hr
  rcases List.mem_pair.mp hr with rfl | rfl
  · exact Or.inr (Or.inl rfl)
  · exact Or.inr (Or.inr ⟨rfl, hfail⟩)

theorem loginOnce_countP (log : Log) :
    (loginOnce w log).2.countP (fun r => decide (r.command = .sshSleep)) ≤
      log.countP (fun r => decide (r.command = .sshSleep)) + 1 := by
  simp [loginOnce, TimedHost.after, List.countP_append]

/-! ## The loop -/

/-- The loop, from the reading of `start_time` on. -/
def loginLoop (w : TimedHost Command) (log : Log) : Bool × Log :=
  (login w).within [.date, .date] 1201 (w.seconds (w.after log .date)) (w.after log .date)

theorem waitForOsBootup_eq (log : Log) :
    waitForOsBootup w log = .ok (loginLoop w log).1 (loginLoop w log).2 := rfl

/-- The loop ends with a login, or after more than 1200 seconds without any. -/
theorem loginLoop_cases (w : TimedHost Command) (log : Log) :
    ∃ more, (∀ r ∈ more, Unsuccessful r) ∧
      (loginLoop w log = (false, log ++ more) ∧ w.seconds log + 1200 < w.seconds (log ++ more) ∨
        ∃ slept reply, reply.status = 0 ∧
          loginLoop w log = (true, log ++ (more ++ [⟨.sleep 5, slept⟩, ⟨.sshSleep, reply⟩]))) := by
  have hreads (r : Ran Command) (hr : r.command ∈ [Command.date, .date]) : Unsuccessful r :=
    Or.inl (by simpa using hr)
  have hstart : w.seconds log ≤ w.seconds (w.after log .date) := seconds_mono prefix_after
  obtain ⟨log', hgoes, -, hcase⟩ := (login w).within_spec [.date, .date] 1201
    (w.seconds (w.after log .date)) hreads loginOnce_fails (w.after log .date)
  have hbegin : GoesOn Unsuccessful log (w.after log .date) := goesOn_after (Or.inl rfl)
  obtain ⟨more, rfl, hmore⟩ := hbegin.trans hgoes
  refine ⟨more, hmore, ?_⟩
  rcases hcase with ⟨hover, hwithin⟩ | ⟨-, hgone, hwithin⟩
  · exact Or.inl ⟨hwithin, by omega⟩
  · have hup : (loginOnce w (log ++ more)).1 = true := hgone
    have hlogin : loginLoop w log = loginOnce w (log ++ more) := hwithin
    refine Or.inr ⟨w.answer (log ++ more) (.sleep 5), _, (loginOnce_iff _).mp hup, ?_⟩
    rw [hlogin, ← List.append_assoc, ← loginOnce_log, ← hup]

theorem loginLoop_countP (w : TimedHost Command) (log : Log) :
    (loginLoop w log).2.countP (fun r => decide (r.command = .sshSleep)) ≤
      log.countP (fun r => decide (r.command = .sshSleep)) + 241 := by
  have hnone (r : Ran Command) (hr : r.command ∈ [Command.date, .date]) :
      decide (r.command = .sshSleep) = false := by
    have hdate : r.command = .date := by simpa using hr
    simp [hdate]
  have hcount := (login w).within_countP [.date, .date] 1201 (w.seconds (w.after log .date)) hnone
    loginOnce_countP (w.after log .date)
  have hroom : (login w).room 1201 (w.seconds (w.after log .date)) (w.after log .date) ≤
      (1201 + (5 - 1)) / 5 := (login w).room_le 1201 rfl
  have hfirst : (w.after log .date).countP (fun r => decide (r.command = .sshSleep)) =
      log.countP (fun r => decide (r.command = .sshSleep)) := by
    simp [TimedHost.after, List.countP_append]
  rw [hfirst] at hcount
  rw [loginLoop]
  omega

/-- The wait for the host ends: with a login, or after more than 1200 seconds without any. It tries at
most 241 times. -/
theorem waitForOsBootup_spec (w : TimedHost Command) (log : Log) :
    ∃ up new, waitForOsBootup w log = .ok up (log ++ new) ∧
      (up = true ↔ ∃ r ∈ new, LoggedIn r) ∧
      (up = false → w.seconds log + 1200 < w.seconds (log ++ new)) ∧
      new.countP (fun r => decide (r.command = .sshSleep)) ≤ 241 := by
  have hcount := loginLoop_countP w log
  obtain ⟨more, hmore, ⟨hloop, hover⟩ | ⟨slept, reply, hin, hloop⟩⟩ := loginLoop_cases w log
  · rw [hloop, List.countP_append] at hcount
    rw [waitForOsBootup_eq, hloop]
    refine ⟨false, more, rfl, ⟨?_, ?_⟩, fun _ => hover, by omega⟩
    · intro hup
      cases hup
    · rintro ⟨r, hr, hin⟩
      exact absurd hin (hmore r hr).not_loggedIn
  · rw [hloop, List.countP_append] at hcount
    rw [waitForOsBootup_eq, hloop]
    refine ⟨true, _, rfl, ⟨fun _ => ⟨⟨.sshSleep, reply⟩, by simp, rfl, hin⟩, fun _ => rfl⟩, ?_, by omega⟩
    intro hdown
    cases hdown

end DcPerf.Soak.RebootAttach
