import DcPerf.Soak.RebootAttach

/-!
# The script `host_reboot.sh`

The script reboots the host each time that it can log into it, until it cannot for too long. The loop of
one wait is the one of `reboot_attach.sh`.
-/

namespace DcPerf.Soak.HostReboot

open DcPerf.Library

variable (w : TimedHost Command)

/-- What is printed at the end, the second line with the output of another `date`. -/
def report (count : ℕ) (initTime : List Char) : Script Log Unit := do
  w.call (.echo s!"count: {count}")
  let now ← w.output .date
  let line := ShellText.echo (ShellText.words (ShellText.substitution now))
  w.call (.echo s!"time: {String.ofList (ShellText.substitution initTime)},  {String.ofList line}")

/-- Up to `left` more reboots, from the reading of `start_time` on. The result is the count with which the
script has ended, if it has. -/
def rounds (initTime : List Char) : ℕ → ℕ → Script Log (Option ℕ)
  | 0, _ => return none
  | left + 1, count => do
    let startTime ← date w
    let up ← modifyGet fun log => (RebootAttach.login w).within [.date, .date] 1201 startTime log
    if up = true then do
      let endTime ← date w
      w.call .sshReboot
      w.call (.echo s!"count: {count + 1},  {endTime - startTime}")
      rounds initTime left (count + 1)
    else do
      report w count initTime
      return some count

/-- The script up to `n` reboots. -/
def main (n : ℕ) : Script Log (Option ℕ) := do
  let initTime ← w.output .date
  rounds w initTime n 0

/-! ## What is said of a run -/

/-- The host is logged into until this succeeds once, and is then rebooted; the state is whether a login
has succeeded since the last reboot. -/
def turns : Protocol Bool (Ran Command) where
  start := false
  next
    | up, ⟨.sshSleep, reply⟩ => up || reply.status = 0
    | _, ⟨.sshReboot, _⟩ => false
    | up, _ => up
  Allowed
    | up, ⟨.sshSleep, _⟩ => up = false
    | up, ⟨.sshReboot, _⟩ => up = true
    | _, _ => True

end DcPerf.Soak.HostReboot
