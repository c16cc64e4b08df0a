import DcPerf.Soak.Proofs.Login

/-!
# How `reboot_attach.sh` ends

Every wait of the script is bounded, and the script ends only when one of them was in vain or the target
or the DPU refused: with the code 1 if the host did not come up, else with the status of the message.
-/

namespace DcPerf.Soak.RebootAttach

open DcPerf.Library

variable {w : TimedHost Command} {log log' : Log}

/-! ## Reasons to give up -/

/-- The host was not logged into for more than 1200 seconds. -/
def NotUp (w : TimedHost Command) (pre : Log) : Prop :=
  ∃ mid, GoesOn (fun r => ¬LoggedIn r) mid pre ∧ w.seconds mid + 1200 < w.seconds pre

/-- Eleven times in a row, a command on the target did not list the pattern. -/
def NotListed (c : Command) (pattern : String) (pre : Log) : Prop :=
  ∃ mid new, pre = mid ++ new ∧ new.length = 11 ∧
    ∀ r ∈ new, r.command = c ∧ grepEcho pattern r.reply.output = false

/-- The last command was `c`, with an answer that meets `bad`. -/
def Refused (c : Command) (bad : Reply → Prop) (pre : Log) : Prop :=
  ∃ mid reply, pre = mid ++ [⟨c, reply⟩] ∧ bad reply

/-- The script ends with a message for which there is a reason. -/
def Ended (w : TimedHost Command) (e : Exit) (log : Log) : Prop :=
  ∃ pre, log = w.after pre (.echo e.msg) ∧
    (e.code = 1 ∧ NotUp w pre ∨
      e.code = lastStatus log ∧
        (NotListed .startNewUbuntu27 "nqn.2025-01.baidu.boot:ubuntu27" pre ∨
          Refused (.bdevNvmeAttachController .nvmeUbuntu) (fun reply => reply.status ≠ 0) pre ∨
          NotListed .stopUsedUbuntu27 "nqn.2014-08.org.nvmexpress.discovery" pre ∨
          Refused .stopUsedUbuntu27
            (fun reply => grepEcho "nqn.2025-01.baidu.boot:ubuntu27" reply.output = true) pre))

theorem exitsFor_date : ExitsFor (Ended w) (date w) := fun _ => trivial

theorem wp_giveUp {text : String} {code : Option ℕ} {Q : Unit → Log → Prop}
    {E : Exit → Log → Prop} : wp (giveUp w text code) Q E log ↔
      E ⟨code.getD (w.answer log (.echo text)).status, text⟩ (w.after log (.echo text)) := by
  rw [giveUp, wp_bind, wp_status]
  rfl

/-- The command on the target is run until it lists the pattern, or eleven times in vain. -/
theorem wp_untilListed (c : Command) (pattern text : String) (left : ℕ) (mid failed : Log)
    (hfailed : ∀ r ∈ failed, r.command = c ∧ grepEcho pattern r.reply.output = false)
    (hleft : failed.length + left = 10) :
    wp (untilListed w c pattern text left)
      (fun output log' => ∃ pre reply, log' = pre ++ [⟨c, reply⟩] ∧ reply.output = output)
      (fun e log' => ∃ pre, log' = w.after pre (.echo e.msg) ∧ e.code = lastStatus log' ∧
        NotListed c pattern pre) (mid ++ failed) := by
  induction left generalizing failed with
  | zero =>
    rw [untilListed, wp_bind, wp_output, wp_bind]
    refine wp_onlyIf (fun h => ?_) fun h => ⟨_, _, rfl, rfl⟩
    rw [wp_giveUp]
    refine ⟨_, rfl, lastStatus_after.symm, mid, failed ++ [⟨c, w.answer (mid ++ failed) c⟩], ?_, ?_, ?_⟩
    · rw [TimedHost.after, List.append_assoc]
    · rw [List.length_append, List.length_singleton]
      omega
    · exact List.forall_mem_append.mpr ⟨hfailed, List.forall_mem_singleton.mpr ⟨rfl, h⟩⟩
  | succ left ih =>
    rw [untilListed, wp_bind, wp_output]
    refine wp_ite (fun h => ?_) fun h => ⟨_, _, rfl, rfl⟩
    rw [TimedHost.after, List.append_assoc]
    apply ih
    · exact List.forall_mem_append.mpr ⟨hfailed, List.forall_mem_singleton.mpr ⟨rfl, h⟩⟩
    · rw [List.length_append, List.length_singleton]
      omega

theorem wp_untilListed_eleven (c : Command) (pattern text : String) (log : Log) :
    wp (untilListed w c pattern text 10)
      (fun output log' => ∃ pre reply, log' = pre ++ [⟨c, reply⟩] ∧ reply.output = output)
      (fun e log' => ∃ pre, log' = w.after pre (.echo e.msg) ∧ e.code = lastStatus log' ∧
        NotListed c pattern pre) log := by
  have h := wp_untilListed (w := w) c pattern text 10 log [] (fun _ hr => nomatch hr) rfl
  rwa [List.append_nil] at h

/-! ## The parts -/

theorem exitsFor_remoteAttachDisk : ExitsFor (Ended w) (remoteAttachDisk w) := by
  intro log
  rw [remoteAttachDisk, wp_bind]
  refine wp_mono (wp_untilListed_eleven _ _ _ log) (fun output log' _ => ?_) ?_
  · rw [wp_bind, wp_status, wp_bind]
    refine wp_onlyIf (fun hrst => ?_) fun _ => trivial
    rw [wp_giveUp]
    exact ⟨_, rfl, Or.inr ⟨lastStatus_after.symm, Or.inr (Or.inl ⟨log', _, rfl, hrst⟩)⟩⟩
  · rintro e log' ⟨pre, hlog, hcode, hlisted⟩
    exact ⟨pre, hlog, Or.inr ⟨hcode, Or.inl hlisted⟩⟩

theorem exitsFor_remoteDetachDisk : ExitsFor (Ended w) (remoteDetachDisk w) := by
  refine (exitsFor_call _).bind fun _ log => ?_
  rw [wp_bind]
  refine wp_mono (wp_untilListed_eleven _ _ _ log) ?_ ?_
  · rintro output log' ⟨pre, reply, rfl, rfl⟩
    refine wp_onlyIf (fun hstill => ?_) fun _ => trivial
    rw [wp_giveUp]
    exact ⟨_, rfl, Or.inr ⟨lastStatus_after.symm, Or.inr (Or.inr (Or.inr ⟨pre, reply, rfl, hstill⟩))⟩⟩
  · rintro e log' ⟨pre, hlog, hcode, hlisted⟩
    exact ⟨pre, hlog, Or.inr ⟨hcode, Or.inr (Or.inr (Or.inl hlisted))⟩⟩

theorem exitsFor_bootUp (count : ℕ) (os : String) : ExitsFor (Ended w) (bootUp w count os) := by
  refine (exitsFor_call _).bind fun _ log => ?_
  rw [wp_bind, wp, waitForOsBootup_eq]
  obtain ⟨more, hmore, ⟨hloop, hover⟩ | ⟨slept, reply, -, hloop⟩⟩ := loginLoop_cases w log
  · rw [hloop]
    refine wp_ite (fun _ => trivial) fun _ => ?_
    rw [wp_giveUp]
    have hfailed : GoesOn (fun r => ¬LoggedIn r) log (log ++ more) :=
      goesOn_append fun r hr => (hmore r hr).not_loggedIn
    exact ⟨log ++ more, rfl, Or.inl ⟨rfl, log, hfailed, hover⟩⟩
  · rw [hloop]
    exact wp_ite (fun _ => trivial) fun hdown => absurd rfl hdown

theorem exitsFor_swapBdev (bdev : Bdev) : ExitsFor (Ended w) (swapBdev w bdev) :=
  (exitsFor_call _).bind fun _ => exitsFor_call _

theorem exitsFor_round (count : ℕ) : ExitsFor (Ended w) (round w count) := by
  refine exitsFor_date.bind fun start => (exitsFor_call _).bind fun _ => ?_
  refine exitsFor_remoteDetachDisk.bind fun _ => (exitsFor_call _).bind fun _ => ?_
  refine (exitsFor_call _).bind fun _ => (exitsFor_call _).bind fun _ => ?_
  refine (exitsFor_swapBdev _).bind fun _ => (exitsFor_call _).bind fun _ => ?_
  refine (exitsFor_bootUp count _).bind fun _ => (exitsFor_call _).bind fun _ => ?_
  refine (exitsFor_call _).bind fun _ => exitsFor_remoteAttachDisk.bind fun _ => ?_
  refine (exitsFor_swapBdev _).bind fun _ => (exitsFor_swapBdev _).bind fun _ => ?_
  refine (exitsFor_call _).bind fun _ => (exitsFor_bootUp count _).bind fun _ => ?_
  exact exitsFor_date.bind fun finish => exitsFor_call _

theorem exitsFor_setUp : ExitsFor (Ended w) (setUp w) := by
  have hsf : ExitsFor (Ended w) (setUpSfIf w) := (exitsFor_call _).bind fun _ =>
    (exitsFor_call _).bind fun _ => (exitsFor_call _).bind fun _ => exitsFor_call _
  have hsnap : ExitsFor (Ended w) (bootSnapService w) := (exitsFor_call _).bind fun _ =>
    exitsFor_date.bind fun _ => (exitsFor_modifyGet _).bind fun _ => exitsFor_call _
  exact hsf.bind fun _ => hsnap.bind fun _ => (exitsFor_call _).bind fun _ =>
    (exitsFor_call _).bind fun _ => exitsFor_remoteAttachDisk

/-- However the host, the DPU and the target answer, the script ends only for a reason: the host was not
logged into for more than 1200 seconds, which gives the code 1; or the target did not do what it was asked
in eleven attempts, or did not do all of it; or the DPU could not attach the disk. -/
theorem main_ended (w : TimedHost Command) (n : ℕ) {e : Exit} {log : Log}
    (h : main w n [] = .error e log) : Ended w e log := by
  have hmain : ExitsFor (Ended w) (main w n) :=
    exitsFor_setUp.bind fun _ => ExitsFor.rounds exitsFor_round _
  exact hmain.of_error h

/-- A host on which everything succeeds and nothing is printed. -/
def silentHost : TimedHost Command where
  second := 1
  second_pos := Nat.one_pos
  boot := 0
  answer := fun _ _ => ⟨0, [], 0⟩

theorem wp_untilListed_silent (text : String) (left : ℕ) (log : Log) :
    wp (untilListed silentHost .startNewUbuntu27 "nqn.2025-01.baidu.boot:ubuntu27" text left)
      (fun _ _ => False) (fun _ _ => True) log := by
  have hsilent : grepEcho "nqn.2025-01.baidu.boot:ubuntu27" [] = false := by decide
  induction left generalizing log with
  | zero =>
    rw [untilListed, wp_bind, wp_output, wp_bind]
    refine wp_onlyIf (fun _ => trivial) fun h => absurd hsilent h
  | succ left ih =>
    rw [untilListed, wp_bind, wp_output]
    exact wp_ite (fun _ => ih _) fun h => absurd hsilent h

theorem main_ended_silent : ∃ e log, main silentHost 0 [] = .error e log ∧ Ended silentHost e log := by
  have hany {α : Type} (m : Script Log α) (log : Log) : wp m (fun _ _ => True) (fun _ _ => True) log := by
    rw [wp_iff_finalState]
    trivial
  have hattach (log : Log) : wp (remoteAttachDisk silentHost) (fun _ _ => False) (fun _ _ => True) log := by
    rw [remoteAttachDisk, wp_bind]
    exact wp_mono (wp_untilListed_silent _ _ log) (fun _ _ h => h.elim) fun _ _ h => h
  have hsetUp : wp (setUp silentHost) (fun _ _ => False) (fun _ _ => True) [] := by
    rw [setUp, wp_bind]
    refine wp_mono (hany _ _) (fun _ log _ => ?_) fun _ _ h => h
    rw [wp_bind]
    refine wp_mono (hany _ _) (fun _ log _ => ?_) fun _ _ h => h
    rw [wp_bind, wp_call, wp_bind, wp_call]
    exact hattach _
  have hmain : wp (main silentHost 0) (fun _ _ => False) (fun _ _ => True) [] := by
    rw [main, wp_bind]
    exact wp_mono hsetUp (fun _ _ h => h.elim) fun _ _ h => h
  cases h : main silentHost 0 [] with
  | ok a log =>
    rw [wp, h] at hmain
    exact hmain.elim
  | error e log => exact ⟨e, log, rfl, main_ended silentHost 0 h⟩

end DcPerf.Soak.RebootAttach
