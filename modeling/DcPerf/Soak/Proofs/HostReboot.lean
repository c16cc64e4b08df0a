import DcPerf.Soak.HostReboot
import DcPerf.Soak.Proofs.Login

/-!
# The reboots of `host_reboot.sh`

Each reboot follows a login of its own, and the script ends only when the host has been out of reach for
too long.
-/

namespace DcPerf.Soak.HostReboot

open DcPerf.Library DcPerf.Library.Protocol DcPerf.Soak.RebootAttach

variable {w : TimedHost Command} {log new : Log} {r : Ran Command} {initTime : List Char}
  {result : Option ℕ} {count left : ℕ}

/-! ## What changes the turn -/

/-- A command that may be run before a login, and is none. -/
def Quiet (r : Ran Command) : Prop := turns.Allowed false r ∧ turns.next false r = false

theorem quiet_date (reply : Reply) : Quiet ⟨.date, reply⟩ := ⟨trivial, rfl⟩

theorem quiet_echo (text : String) (reply : Reply) : Quiet ⟨.echo text, reply⟩ := ⟨trivial, rfl⟩

theorem quiet_of_unsuccessful (h : Unsuccessful r) : Quiet r := by
  obtain ⟨c, reply⟩ := r
  rcases h with rfl | rfl | ⟨rfl, hstatus⟩
  · exact quiet_date reply
  · exact ⟨trivial, rfl⟩
  · exact ⟨rfl, decide_eq_false hstatus⟩

theorem kept_quiet (hkept : turns.Kept log) (hstate : turns.state log = false)
    (hnew : ∀ r ∈ new, Quiet r) : turns.Kept (log ++ new) ∧ turns.state (log ++ new) = false :=
  kept_goesOn hkept hstate (goesOn_append hnew)

/-- A login, and the reboot that follows it. -/
def reboot (loggedIn clock rebooted printed : Reply) (text : String) : Log :=
  [⟨.sshSleep, loggedIn⟩, ⟨.date, clock⟩, ⟨.sshReboot, rebooted⟩, ⟨.echo text, printed⟩]

theorem kept_reboot (hkept : turns.Kept log) (hstate : turns.state log = false)
    {loggedIn clock rebooted printed : Reply} {text : String} (hin : loggedIn.status = 0) :
    turns.Kept (log ++ reboot loggedIn clock rebooted printed text) ∧
      turns.state (log ++ reboot loggedIn clock rebooted printed text) = false := by
  rw [kept_concat, state_concat, hstate]
  exact ⟨⟨hkept, by simp [reboot, Admits, turns, hin]⟩, by simp [reboot, turns]⟩

/-! ## Rounds -/

/-- The host was not logged into for more than 1200 seconds, up to the end. -/
def OutOfReach (w : TimedHost Command) (log : Log) : Prop :=
  ∃ mid, GoesOn (fun r => ¬LoggedIn r) mid log ∧ w.seconds mid + 1200 < w.seconds log

/-- The reboots and the logins of a history. -/
def reboots (log : Log) : ℕ := log.countP fun r => r.command = .sshReboot

def logins (log : Log) : ℕ := log.countP fun r => r.command = .sshSleep

/-- What the rounds have done after `log`. -/
structure Progress (w : TimedHost Command) (log : Log) (count left : ℕ) (result : Option ℕ)
    (new : Log) : Prop where
  kept : turns.Kept (log ++ new)
  turn : turns.state (log ++ new) = false
  reboots_eq : count + reboots new = result.getD (count + left)
  logins_le : logins new ≤ 241 * (reboots new + 1)
  ended : ∀ k, result = some k → OutOfReach w (log ++ new) ∧
    ∃ r ∈ new, r.command = .echo s!"count: {k}"

theorem wp_date {Q : ℕ → Log → Prop} {E : Exit → Log → Prop} :
    wp (date w) Q E log ↔ Q (w.seconds (w.after log .date)) (w.after log .date) := Iff.rfl

theorem reboots_of_unsuccessful (h : ∀ r ∈ new, Unsuccessful r) : reboots new = 0 := by
  refine List.countP_eq_zero.mpr fun r hr => ?_
  rcases h r hr with hc | hc | ⟨hc, -⟩ <;> simp [hc]

theorem reboots_append (log log' : Log) : reboots (log ++ log') = reboots log + reboots log' :=
  List.countP_append

theorem logins_append (log log' : Log) : logins (log ++ log') = logins log + logins log' :=
  List.countP_append

/-- A wait in vain, and the report that follows it. -/
theorem progress_report {more : Log} (hkept : turns.Kept log) (hstate : turns.state log = false)
    (hmore : ∀ r ∈ more, Unsuccessful r) (hover : w.seconds log + 1200 < w.seconds (log ++ more))
    (hlogins : logins more ≤ 241) (printed clock printed' : Reply) (text : String) :
    Progress w log count (left + 1) (some count)
      (more ++ [⟨.echo s!"count: {count}", printed⟩, ⟨.date, clock⟩, ⟨.echo text, printed'⟩]) := by
  set tail : Log := [⟨.echo s!"count: {count}", printed⟩, ⟨.date, clock⟩, ⟨.echo text, printed'⟩] with htail
  have hquiet : ∀ r ∈ more ++ tail, Quiet r := by
    intro r hr
    rcases List.mem_append.mp hr with hr | hr
    · exact quiet_of_unsuccessful (hmore r hr)
    · rw [htail] at hr
      simp only [List.mem_cons, List.not_mem_nil, or_false] at hr
      rcases hr with rfl | rfl | rfl
      · exact quiet_echo _ _
      · exact quiet_date _
      · exact quiet_echo _ _
  have hnone : reboots tail = 0 := by simp [htail, reboots]
  have hzero : logins tail = 0 := by simp [htail, logins]
  obtain ⟨hkept', hturn⟩ := kept_quiet hkept hstate hquiet
  refine ⟨hkept', hturn, ?_, ?_, ?_⟩
  · rw [reboots_append, reboots_of_unsuccessful hmore, hnone]
    rfl
  · rw [logins_append, hzero]
    omega
  · intro k hk
    obtain rfl : count = k := Option.some.inj hk
    refine ⟨⟨log, goesOn_append ?_, ?_⟩, ⟨.echo s!"count: {count}", printed⟩, by simp [htail], rfl⟩
    · intro r hr
      rcases List.mem_append.mp hr with hr | hr
      · exact (hmore r hr).not_loggedIn
      · rw [htail] at hr
        simp only [List.mem_cons, List.not_mem_nil, or_false] at hr
        rcases hr with rfl | rfl | rfl <;> simp [LoggedIn]
    · exact hover.trans_le (seconds_mono ⟨tail, by simp⟩)

/-- A wait that ends with a login, the reboot that follows it, and what is done then. -/
theorem Progress.after_reboot {more rest : Log} {slept loggedIn clock rebooted printed : Reply}
    {text : String} (hmore : ∀ r ∈ more, Unsuccessful r) (hlogins : logins more + 1 ≤ 241)
    (h : Progress w (log ++ (more ++ [⟨.sleep 5, slept⟩]) ++ reboot loggedIn clock rebooted printed text)
      (count + 1) left result rest) :
    Progress w log count (left + 1) result
      (more ++ [⟨.sleep 5, slept⟩] ++ reboot loggedIn clock rebooted printed text ++ rest) := by
  have hone : reboots (reboot loggedIn clock rebooted printed text) = 1 := by simp [reboots, reboot]
  have hlogin : logins (reboot loggedIn clock rebooted printed text) = 1 := by simp [logins, reboot]
  have hsleep : reboots [⟨.sleep 5, slept⟩] = 0 ∧ logins [⟨.sleep 5, slept⟩] = 0 := by
    simp [reboots, logins]
  have hsplit : log ++ (more ++ [⟨.sleep 5, slept⟩] ++ reboot loggedIn clock rebooted printed text ++ rest) =
      log ++ (more ++ [⟨.sleep 5, slept⟩]) ++ reboot loggedIn clock rebooted printed text ++ rest := by
    simp
  have hreboots := h.reboots_eq
  have hle := h.logins_le
  refine ⟨hsplit ▸ h.kept, hsplit ▸ h.turn, ?_, ?_, ?_⟩
  · rw [reboots_append, reboots_append, reboots_append, reboots_of_unsuccessful hmore, hsleep.1, hone]
    have hleft : count + 1 + left = count + (left + 1) := by omega
    rw [hleft] at hreboots
    omega
  · rw [reboots_append, reboots_append, reboots_append, reboots_of_unsuccessful hmore, hsleep.1, hone,
      logins_append, logins_append, logins_append, hsleep.2, hlogin]
    omega
  · intro k hk
    obtain ⟨hout, r, hr, hc⟩ := h.ended k hk
    rw [hsplit]
    exact ⟨hout, r, List.mem_append_right _ hr, hc⟩

theorem after_three (c c' c'' : Command) : w.after (w.after (w.after log c) c') c'' =
    log ++ [⟨c, w.answer log c⟩, ⟨c', w.answer (w.after log c) c'⟩,
      ⟨c'', w.answer (w.after (w.after log c) c') c''⟩] := by
  simp [TimedHost.after]

theorem wp_rounds (w : TimedHost Command) (initTime : List Char) (left count : ℕ) (log : Log)
    (hkept : turns.Kept log) (hstate : turns.state log = false) :
    wp (rounds w initTime left count)
      (fun result log' => ∃ new, log' = log ++ new ∧ Progress w log count left result new)
      (fun _ _ => False) log := by
  induction left generalizing count log with
  | zero => exact ⟨[], by simp, by simpa using hkept, by simpa using hstate, by simp [reboots], by simp [logins], by simp⟩
  | succ left ih =>
    have hcount := loginLoop_countP w log
    rw [rounds, wp_bind, wp_date, wp_bind, wp_modifyGet]
    show wp (if (loginLoop w log).1 = true then _ else _) _ _ (loginLoop w log).2
    obtain ⟨more, hmore, ⟨hloop, hover⟩ | ⟨slept, reply, hin, hloop⟩⟩ := loginLoop_cases w log
    · rw [hloop, List.countP_append] at hcount
      have hlogins : logins more ≤ 241 := by
        unfold logins
        omega
      rw [hloop]
      refine wp_ite (fun hup => nomatch hup) fun _ => ?_
      rw [report, wp_bind, wp_bind, wp_call, wp_bind, wp_output, wp_call]
      rw [after_three, List.append_assoc]
      exact ⟨_, rfl, progress_report hkept hstate hmore hover hlogins _ _ _ _⟩
    · rw [hloop, List.countP_append, List.countP_append] at hcount
      have hlogins : logins more + 1 ≤ 241 := by
        unfold logins
        simp at hcount
        omega
      rw [hloop]
      refine wp_ite (fun _ => ?_) fun hdown => absurd rfl hdown
      rw [wp_bind, wp_date, wp_bind, wp_call, wp_bind, wp_call]
      rw [after_three]
      have hslept : ∀ r ∈ more ++ [(⟨.sleep 5, slept⟩ : Ran Command)], Quiet r := by
        refine List.forall_mem_append.mpr ⟨fun r hr => quiet_of_unsuccessful (hmore r hr), ?_⟩
        exact List.forall_mem_singleton.mpr ⟨trivial, rfl⟩
      obtain ⟨hwaited, hturn⟩ := kept_quiet hkept hstate hslept
      obtain ⟨hrebooted, hagain⟩ := kept_reboot hwaited hturn hin
      have hsplit (es : Log) : log ++ (more ++ [⟨.sleep 5, slept⟩, ⟨.sshSleep, reply⟩]) ++ es =
          log ++ (more ++ [⟨.sleep 5, slept⟩]) ++ ⟨.sshSleep, reply⟩ :: es := by
        simp
      show wp _ _ _ (log ++ (more ++ [⟨.sleep 5, slept⟩, ⟨.sshSleep, reply⟩]) ++ _)
      rw [hsplit]
      refine wp_mono (ih (count + 1) _ hrebooted hagain) ?_ fun _ _ h => h
      rintro result log' ⟨rest, rfl, hrest⟩
      exact ⟨_, by simp [reboot], hrest.after_reboot hmore hlogins⟩

/-- Whatever the host does, and however many reboots are asked for: the script logs in until it succeeds
and then reboots, each time, the last time too; it reports as many reboots as there were; it tries to log
in at most 241 times for each; and it ends early only when the host was out of reach for more than 1200
seconds. -/
theorem hostReboot_spec (w : TimedHost Command) (n : ℕ) :
    ∃ result log, main w n [] = .ok result log ∧ turns.Kept log ∧ turns.state log = false ∧
      reboots log = result.getD n ∧ logins log ≤ 241 * (reboots log + 1) ∧
      ∀ k, result = some k → OutOfReach w log ∧ ∃ r ∈ log, r.command = .echo s!"count: {k}" := by
  have hdate : turns.Kept ([] ++ w.after [] .date) ∧ turns.state ([] ++ w.after [] .date) = false :=
    kept_quiet kept_nil rfl (by simpa [TimedHost.after] using quiet_date _)
  have hmain : wp (main w n) (fun result log => ∃ new, log = w.after [] .date ++ new ∧
      Progress w (w.after [] .date) 0 n result new) (fun _ _ => False) [] := by
    rw [main, wp_bind, wp_output]
    exact wp_rounds w _ n 0 _ hdate.1 hdate.2
  cases h : main w n [] with
  | error e log =>
    rw [wp, h] at hmain
    exact hmain.elim
  | ok result log =>
    rw [wp, h] at hmain
    obtain ⟨new, rfl, hnew⟩ := hmain
    have hreboots : reboots (w.after [] .date ++ new) = reboots new := by
      rw [reboots_append]
      simp [reboots, TimedHost.after]
    have hlogins : logins (w.after [] .date ++ new) = logins new := by
      rw [logins_append]
      simp [logins, TimedHost.after]
    refine ⟨result, _, rfl, hnew.kept, hnew.turn, ?_, ?_, fun k hk => ?_⟩
    · simpa [hreboots] using hnew.reboots_eq
    · rw [hreboots, hlogins]
      exact hnew.logins_le
    · obtain ⟨hout, r, hr, hc⟩ := hnew.ended k hk
      exact ⟨hout, r, List.mem_append_right _ hr, hc⟩

end DcPerf.Soak.HostReboot
