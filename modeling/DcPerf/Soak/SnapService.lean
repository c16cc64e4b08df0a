import DcPerf.Soak.Commands

/-!
# Waiting for the service

`boot_snap_service` of `reboot_attach.sh` starts the service and asks for its version until it answers
or a time is over. `single_pf_lu.sh`, `hotplug_1pf_lu.sh`, `pf_2vf_lu_src.sh` and `pf_2vf_lu_dst.sh` have
the same loop, and warn after it when the time is over.
-/

namespace DcPerf.Soak

open DcPerf.Library

/-- `TIMEOUT` -/
def timeout : ℕ := 30

/-- `RETRIES` -/
def retries : ℕ := 60

section Polling

variable (w : TimedHost Command) (socket : Option String)

/-- The body of the outer loop. `break 2` leaves both loops. -/
def pollOnce (log : Log) : Bool × Log :=
  let polled := w.retry (.spdkGetVersion socket) retries log
  if polled.1 = true then polled else (false, w.after polled.2 (.sleep 1))

theorem pollOnce_grows (log : Log) : log <+: (pollOnce w socket log).2 := by
  obtain ⟨k, -, log', hgoes, -, hcase⟩ := retry_spec w (.spdkGetVersion socket) retries log
  have hprefix : log <+: log' := by
    obtain ⟨more, hmore, -⟩ := hgoes
    exact ⟨more, hmore.symm⟩
  rcases hcase with ⟨hretry, -⟩ | ⟨hretry, -, -⟩
  · simpa [pollOnce, hretry] using hprefix.trans prefix_after
  · simpa [pollOnce, hretry] using hprefix.trans prefix_after

/-- A round that fails sleeps for a second. -/
theorem pollOnce_lasts (log : Log) (h : (pollOnce w socket log).1 = false) :
    w.clock log + 1 * w.second ≤ w.clock (pollOnce w socket log).2 := by
  obtain ⟨k, -, log', hgoes, -, hcase⟩ := retry_spec w (.spdkGetVersion socket) retries log
  rcases hcase with ⟨hretry, -⟩ | ⟨hretry, -, -⟩
  · have hmono : w.clock log ≤ w.clock log' := by
      obtain ⟨more, hmore, -⟩ := hgoes
      exact clock_mono ⟨more, hmore.symm⟩
    have hsleep : Lasting.atLeast (Command.sleep 1) = 1 := rfl
    simp only [pollOnce, hretry, Bool.false_eq_true, if_false, clock_after, hsleep]
    omega
  · simp [pollOnce, hretry] at h

def polling : Attempt w where
  go := pollOnce w socket
  pause := 1
  pause_pos := by decide
  grows := pollOnce_grows w socket
  lasts := pollOnce_lasts w socket

/-- The loop: whether the service has answered, which the scripts do not keep. -/
def waitForService (start : ℕ) (log : Log) : Bool × Log :=
  (polling w socket).within [.date] timeout start log

end Polling

/-- The check after the loop: whether the script warns. The warning starts with the output of another
`date`. -/
def checkTimeout (w : TimedHost Command) (start : ℕ) (log : Log) : Bool × Log :=
  let checked := w.after log .date
  if timeout ≤ w.seconds checked - start then
    let stamped := w.after checked .date
    let now := String.ofList (ShellText.substitution (lastOutput stamped))
    (true, w.after stamped
      (.echo s!"[{now}] Timeout of {timeout} seconds reached. SPDK_SOCK has not been detected."))
  else (false, checked)

/-- What has come of a wait that may end with a warning. -/
structure Detection where
  answered : Bool
  warned : Bool
  log : Log

/-- What comes after the loop. -/
def detection (w : TimedHost Command) (start : ℕ) : Bool × Log → Detection
  | (answered, log) =>
    { answered := answered, warned := (checkTimeout w start log).1, log := (checkTimeout w start log).2 }

/-- From the reading of `start_time` on. -/
def detectService (w : TimedHost Command) (socket : Option String) (log : Log) : Detection :=
  detection w (w.seconds (w.after log .date))
    (waitForService w socket (w.seconds (w.after log .date)) (w.after log .date))

/-- `boot_snap_service`, which does not warn -/
def bootSnapService (w : TimedHost Command) : Script Log Unit := do
  w.call .snapService
  let start ← date w
  modify fun log => (waitForService w none start log).2
  w.call .snapLogLevelSet

end DcPerf.Soak
