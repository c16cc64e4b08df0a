import DcPerf.Soak.Disks
import DcPerf.Soak.Proofs.SnapService
import DcPerf.Soak.RebootAttach

/-!
# The rounds of `reboot_attach.sh`

However the host, the DPU and the target answer, the script asks for nothing that makes no sense by what it
has asked for before. Where no refusal stands, that is what there is.
-/

namespace DcPerf.Soak.RebootAttach

open DcPerf.Library DcPerf.Library.Protocol

variable {w : TimedHost Command} {p : Disks → Prop} {b : Option Bdev} {u : Bool}

/-- What `VblkCtrl1` is backed by and whether `nvme_ubuntu` is attached, `nvme_rocky8` being attached. -/
structure At (b : Option Bdev) (u : Bool) (s : Disks) : Prop where
  backing : s.backing = b
  rocky : s.rocky = true
  ubuntu : s.ubuntu = u

/-! ## Commands that do not matter -/

/-- A command that is always allowed and changes nothing. -/
def Idle (r : Ran Command) : Prop := ∀ s : Disks, disks.asked.Allowed s r ∧ disks.asked.next s r = s

theorem idle_date (reply : Reply) : Idle ⟨.date, reply⟩ := fun _ => ⟨trivial, rfl⟩

theorem idle_sleep (n : ℕ) (reply : Reply) : Idle ⟨.sleep n, reply⟩ := fun _ => ⟨trivial, rfl⟩

theorem idle_echo (text : String) (reply : Reply) : Idle ⟨.echo text, reply⟩ := fun _ => ⟨trivial, rfl⟩

theorem idle_version (socket : Option String) (reply : Reply) : Idle ⟨.spdkGetVersion socket, reply⟩ :=
  fun _ => ⟨trivial, rfl⟩

theorem leads_idle {c : Command} (h : ∀ reply, Idle ⟨c, reply⟩) :
    disks.asked.Leads p (w.call c) fun _ => p := by
  refine Leads.call c fun s reply hp => ?_
  obtain ⟨hallowed, hnext⟩ := h reply s
  rw [hnext]
  exact ⟨hallowed, hp⟩

theorem leads_date : disks.asked.Leads p (date w) fun _ => p := by
  intro log hlog hp
  exact leads_idle idle_date log hlog hp

theorem leads_giveUp (text : String) (code : Option ℕ) {q : Unit → Disks → Prop} :
    disks.asked.Leads p (giveUp w text code) q := by
  have hecho : disks.asked.Leads p (w.status (.echo text)) fun _ => p :=
    Leads.status _ fun s reply hp => ⟨trivial, hp⟩
  exact hecho.bind fun rst => Leads.throw _

theorem leads_setUpSfIf : disks.asked.Leads p (setUpSfIf w) fun _ => p := by
  refine (leads_idle (c := .mlnxSf) fun _ _ => ⟨trivial, rfl⟩).bind fun _ => ?_
  refine (leads_idle (idle_sleep 3)).bind fun _ => ?_
  refine (leads_idle (c := .ipAddr) fun _ _ => ⟨trivial, rfl⟩).bind fun _ => ?_
  exact leads_idle (idle_sleep 5)

/-- The wait for the service does not touch the disks. -/
theorem goesOn_waitForService (start : ℕ) (log : Log) :
    GoesOn Idle log (waitForService w none start log).2 := by
  have hidle (r : Ran Command) (h : Unanswered none r) : Idle r := by
    obtain ⟨c, reply⟩ := r
    rcases h with rfl | rfl | ⟨rfl, -⟩
    · exact idle_date reply
    · exact idle_sleep 1 reply
    · exact idle_version none reply
  obtain ⟨log', hgoes, ⟨hwait, -⟩ | ⟨hwait, -⟩⟩ := waitForService_spec w none start log
  · rw [hwait]
    exact hgoes.mono hidle
  · rw [hwait]
    exact (hgoes.mono hidle).trans (goesOn_after (idle_version none _))

theorem leads_bootSnapService : disks.asked.Leads p (bootSnapService w) fun _ => p := by
  refine (leads_idle (c := .snapService) fun _ _ => ⟨trivial, rfl⟩).bind fun _ => ?_
  refine leads_date.bind fun start => ?_
  refine Leads.bind (q := fun _ => p) ?_ fun _ =>
    leads_idle (c := .snapLogLevelSet) fun _ _ => ⟨trivial, rfl⟩
  exact Leads.modifyGet fun s log _ => (goesOn_waitForService start log).mono fun r hr => hr s

/-! ## The host -/

/-- A host is waited for while its disk is there. -/
theorem leads_waitForOsBootup (hb : b = some .nvmeRocky8n1 ∨ b = some .nvmeUbuntun1) :
    disks.asked.Leads (At b u) (waitForOsBootup w) fun _ => At b u := by
  refine leads_date.bind fun start => Leads.modifyGet fun s log hs => ?_
  have hidle (r : Ran Command) (h : Idle r) : disks.asked.Allowed s r ∧ disks.asked.next s r = s := h s
  apply (login w).within_goesOn
  · rintro ⟨c, reply⟩ hc
    obtain rfl : c = .date := by simpa using hc
    exact hidle _ (idle_date reply)
  · intro log
    refine (goesOn_after (hidle _ (idle_sleep 5 _))).trans (goesOn_after ⟨?_, rfl⟩)
    show s.backing = _ ∨ s.backing = _
    rw [hs.backing]
    exact hb

theorem leads_bootUp (count : ℕ) (os : String)
    (hb : b = some .nvmeRocky8n1 ∨ b = some .nvmeUbuntun1) :
    disks.asked.Leads (At b u) (bootUp w count os) fun _ => At b u := by
  refine (leads_idle (idle_echo _)).bind fun _ => ?_
  refine (leads_waitForOsBootup hb).bind fun up => ?_
  exact Leads.ite (leads_idle (idle_echo _)) (leads_giveUp _ _)

/-! ## The disk on the target -/

theorem leads_untilListed {c : Command} {pattern text : String} {q : List Char → Disks → Prop}
    (h : ∀ s reply, p s → disks.asked.Allowed s ⟨c, reply⟩ ∧ p (disks.asked.next s ⟨c, reply⟩) ∧
      (grepEcho pattern reply.output = true → q reply.output (disks.asked.next s ⟨c, reply⟩))) (left : ℕ) :
    disks.asked.Leads p (untilListed w c pattern text left) q := by
  have hcall : disks.asked.Leads p (w.output c) fun output s => p s ∧ (grepEcho pattern output = true → q output s) :=
    Leads.output c fun s reply hp => ⟨(h s reply hp).1, (h s reply hp).2⟩
  induction left with
  | zero =>
    refine hcall.bind fun output => ?_
    by_cases hlisted : grepEcho pattern output = true
    · have honly : onlyIf (grepEcho pattern output = false) (giveUp w text none) = pure () := by
        rw [onlyIf, if_neg (by simp [hlisted])]
      rw [honly]
      exact Leads.pure output fun s hs => hs.2 hlisted
    · have honly : onlyIf (grepEcho pattern output = false) (giveUp w text none) = giveUp w text none := by
        rw [onlyIf, if_pos (by simpa using hlisted)]
      rw [honly]
      exact (leads_giveUp text none (q := fun _ _ => False)).bind fun _ =>
        (Leads.pure output fun _ hs => hs.elim)
  | succ left ih =>
    refine hcall.bind fun output => ?_
    by_cases hlisted : grepEcho pattern output = true
    · rw [if_neg (by simp [hlisted])]
      exact Leads.pure output fun s hs => hs.2 hlisted
    · rw [if_pos (by simpa using hlisted)]
      exact ih.mono (fun s hs => hs.1) fun _ _ hq => hq

/-- The subsystem is exported while nothing uses it, and then its disk is attached. -/
theorem leads_remoteAttachDisk : disks.asked.Leads (At b false) (remoteAttachDisk w) fun _ => At b true := by
  have hlisted : disks.asked.Leads (At b false) (untilListed w .startNewUbuntu27
      "nqn.2025-01.baidu.boot:ubuntu27" "remote failed to attach ubuntu img" 10)
      fun _ s => At b false s ∧ s.exported = true := by
    refine leads_untilListed (fun s reply hs => ⟨hs.ubuntu, ⟨hs.backing, hs.rocky, hs.ubuntu⟩, fun hgrep => ?_⟩) 10
    exact ⟨⟨hs.backing, hs.rocky, hs.ubuntu⟩, hgrep⟩
  have hattach : disks.asked.Leads (fun s => At b false s ∧ s.exported = true)
      (w.status (.bdevNvmeAttachController .nvmeUbuntu)) fun _ => At b true :=
    Leads.status _ fun s reply hs => ⟨⟨hs.1.ubuntu, hs.2⟩, hs.1.backing, hs.1.rocky, rfl⟩
  refine hlisted.bind fun _ => hattach.bind fun rst => ?_
  refine Leads.bind (q := fun _ => At b true) ?_ fun _ => leads_idle (idle_sleep 5)
  exact Leads.ite (leads_giveUp _ _) (Leads.pure _ fun s hs => hs)

/-- The disk is detached when no backing device is on it. -/
theorem leads_remoteDetachDisk :
    disks.asked.Leads (At none true) (remoteDetachDisk w) fun _ => At none false := by
  have hdetach : disks.asked.Leads (At none true) (w.call (.bdevNvmeDetachController .nvmeUbuntu))
      fun _ => At none false :=
    Leads.call _ fun s reply hs => ⟨⟨hs.ubuntu, hs.backing⟩, hs.backing, hs.rocky, rfl⟩
  have hlisted : disks.asked.Leads (At none false) (untilListed w .stopUsedUbuntu27
      "nqn.2014-08.org.nvmexpress.discovery" "remote failed to detach ubuntu img" 10)
      fun _ => At none false := by
    refine leads_untilListed (fun s reply hs => ⟨hs.ubuntu, ?_, fun _ => ?_⟩) 10
    · exact ⟨hs.backing, hs.rocky, hs.ubuntu⟩
    · exact ⟨hs.backing, hs.rocky, hs.ubuntu⟩
  refine hdetach.bind fun _ => hlisted.bind fun output => ?_
  exact Leads.ite (leads_giveUp _ _) (Leads.pure () fun s hs => hs)

/-! ## Rounds -/

theorem leads_detach {b : Bdev} : disks.asked.Leads (At (some b) u) (w.call .virtioBlkControllerBdevDetach)
    fun _ => At none u := by
  refine Leads.call _ fun s reply hs => ⟨?_, rfl, hs.rocky, hs.ubuntu⟩
  show s.backing ≠ none
  rw [hs.backing]
  exact Option.some_ne_none b

theorem leads_attach {bdev : Bdev} (hb : bdev = .nvmeUbuntun1 → u = true) :
    disks.asked.Leads (At none u) (w.call (.virtioBlkControllerBdevAttach bdev)) fun _ => At (some bdev) u := by
  refine Leads.call _ fun s reply hs => ⟨⟨hs.backing, ?_⟩, rfl, hs.rocky, hs.ubuntu⟩
  show s.Has bdev
  cases bdev with
  | null => trivial
  | nvmeRocky8n1 => exact hs.rocky
  | nvmeUbuntun1 => exact hs.ubuntu.trans (hb rfl)

/-- The backing device is replaced. -/
theorem leads_swapBdev {b bdev : Bdev} (hb : bdev = .nvmeUbuntun1 → u = true) :
    disks.asked.Leads (At (some b) u) (swapBdev w bdev) fun _ => At (some bdev) u :=
  leads_detach.bind fun _ => leads_attach hb

theorem leads_powerReset {b : Bdev} :
    disks.asked.Leads (At (some b) u) (w.call .powerReset) fun _ => At (some b) u := by
  refine Leads.call _ fun s reply hs => ⟨?_, hs.backing, hs.rocky, hs.ubuntu⟩
  show s.backing ≠ none
  rw [hs.backing]
  exact Option.some_ne_none b

/-- Between rounds the emulated disk is there, and `nvme_ubuntu` is attached. -/
def Ready (s : Disks) : Prop := ∃ b, At (some b) true s

theorem leads_round (count : ℕ) : disks.asked.Leads Ready (round w count) fun _ => Ready := by
  intro log hlog ⟨b, hb⟩
  refine Leads.bind (q := fun _ => At (some b) true) leads_date (fun start => ?_) log hlog hb
  refine leads_detach.bind fun _ => leads_remoteDetachDisk.bind fun _ => ?_
  refine (leads_attach (by decide)).bind fun _ => leads_powerReset.bind fun _ => ?_
  refine (leads_idle (idle_sleep 60)).bind fun _ => ?_
  refine (leads_swapBdev (by decide)).bind fun _ => leads_powerReset.bind fun _ => ?_
  refine (leads_bootUp count "OSB" (Or.inl rfl)).bind fun _ => ?_
  have hhalt : disks.asked.Leads (At (some .nvmeRocky8n1) false) (w.call .sshHalt)
      fun _ => At (some .nvmeRocky8n1) false :=
    Leads.call _ fun s reply hs => ⟨hs.backing, hs.backing, hs.rocky, hs.ubuntu⟩
  refine hhalt.bind fun _ => (leads_idle (idle_sleep 1)).bind fun _ => ?_
  refine leads_remoteAttachDisk.bind fun _ => ?_
  refine (leads_swapBdev (by decide)).bind fun _ => (leads_swapBdev fun _ => rfl).bind fun _ => ?_
  refine leads_powerReset.bind fun _ => (leads_bootUp count "OSA" (Or.inr rfl)).bind fun _ => ?_
  refine leads_date.bind fun finish => ?_
  exact (leads_idle (idle_echo _)).mono (fun s hs => ⟨_, hs⟩) fun _ _ h => h

theorem leads_setUp : disks.asked.Leads (· = disks.start) (setUp w) fun _ => Ready := by
  refine leads_setUpSfIf.bind fun _ => leads_bootSnapService.bind fun _ => ?_
  have hrocky : disks.asked.Leads (· = disks.start) (w.call (.bdevNvmeAttachController .nvmeRocky8))
      fun _ => (· = { disks.start with rocky := true }) := by
    refine Leads.call _ ?_
    rintro s reply rfl
    exact ⟨rfl, rfl⟩
  have hcreate : disks.asked.Leads (· = { disks.start with rocky := true })
      (w.call .virtioBlkControllerCreate) fun _ => At (some .null) false := by
    refine Leads.call _ ?_
    rintro s reply rfl
    exact ⟨rfl, rfl, rfl, rfl⟩
  refine hrocky.bind fun _ => hcreate.bind fun _ => ?_
  exact leads_remoteAttachDisk.mono (fun s hs => hs) fun _ s hs => ⟨_, hs⟩

theorem leads_main (n : ℕ) : disks.asked.Leads (· = disks.start) (main w n) fun _ => Ready :=
  leads_setUp.bind fun _ => Leads.rounds (fun count => leads_round count) n

/-! ## What there is -/

/-- All that a command can do. -/
theorem next_cases (s : Disks) (r : Ran Command) :
    (∃ listed, disks.next s r = { s with exported := listed }) ∨ disks.next s r = s ∨
      disks.next s r = s.grant r.command := by
  obtain ⟨c, reply⟩ := r
  have hother : (if reply.status = 0 then s.grant c else s) = s ∨
      (if reply.status = 0 then s.grant c else s) = s.grant c := by
    by_cases hstatus : reply.status = 0
    · exact Or.inr (if_pos hstatus)
    · exact Or.inl (if_neg hstatus)
  cases c with
  | startNewUbuntu27 => exact Or.inl ⟨_, rfl⟩
  | stopUsedUbuntu27 => exact Or.inl ⟨_, rfl⟩
  | _ => exact Or.inr hother

theorem backing_grant (s : Disks) {c : Command} (h : aboutBacking c = false) :
    (s.grant c).backing = s.backing := by
  cases c with
  | virtioBlkControllerCreate => cases h
  | virtioBlkControllerBdevAttach bdev => cases h
  | virtioBlkControllerBdevDetach => cases h
  | bdevNvmeAttachController name => cases name <;> rfl
  | bdevNvmeDetachController name => cases name <;> rfl
  | _ => rfl

/-- What a request that is granted leaves as the backing device. -/
def backingAfter : Command → Option Bdev
  | .virtioBlkControllerCreate => some .null
  | .virtioBlkControllerBdevAttach bdev => some bdev
  | _ => none

theorem backing_of_granted {log : Log} (h : LastGranted aboutBacking log) :
    (disks.state log).backing = (disks.asked.state log).backing := by
  refine part_asked Disks.backing (fun r => backingAfter r.command) (fun s r hr => ?_) (fun s r hr hstatus => ?_) h
  · rcases next_cases s r with ⟨listed, hnext⟩ | hnext | hnext
    · rw [hnext]
    · rw [hnext]
    · rw [hnext, backing_grant s hr]
  · obtain ⟨c, status, output, took⟩ := r
    obtain rfl : status = 0 := hstatus
    cases c with
    | virtioBlkControllerCreate => rfl
    | virtioBlkControllerBdevAttach bdev => rfl
    | virtioBlkControllerBdevDetach => rfl
    | _ => cases hr

/-- Whether an NVMe controller is attached. -/
def nvme (name : Nvme) (s : Disks) : Bool :=
  match name with
  | .nvmeRocky8 => s.rocky
  | .nvmeUbuntu => s.ubuntu

theorem nvme_grant (s : Disks) {name : Nvme} {c : Command} (h : aboutNvme name c = false) :
    nvme name (s.grant c) = nvme name s := by
  cases c with
  | bdevNvmeAttachController name' => cases name <;> cases name' <;> first | rfl | cases h
  | bdevNvmeDetachController name' => cases name <;> cases name' <;> first | rfl | cases h
  | _ => cases name <;> rfl

/-- Whether a request that is granted leaves an NVMe controller attached. -/
def attachedAfter : Command → Bool
  | .bdevNvmeAttachController _ => true
  | _ => false

theorem nvme_of_granted {name : Nvme} {log : Log} (h : LastGranted (aboutNvme name) log) :
    nvme name (disks.state log) = nvme name (disks.asked.state log) := by
  refine part_asked (nvme name) (fun r => attachedAfter r.command) (fun s r hr => ?_) (fun s r hr hstatus => ?_) h
  · rcases next_cases s r with ⟨listed, hnext⟩ | hnext | hnext
    · rw [hnext]
      cases name <;> rfl
    · rw [hnext]
    · rw [hnext, nvme_grant s hr]
  · obtain ⟨c, status, output, took⟩ := r
    obtain rfl : status = 0 := hstatus
    cases c with
    | bdevNvmeAttachController name' =>
      obtain rfl : name' = name := of_decide_eq_true hr
      cases name' <;> rfl
    | bdevNvmeDetachController name' =>
      obtain rfl : name' = name := of_decide_eq_true hr
      cases name' <;> rfl
    | _ => cases hr

theorem exported_grant (s : Disks) (c : Command) : (s.grant c).exported = s.exported := by
  cases c with
  | bdevNvmeAttachController name => cases name <;> rfl
  | bdevNvmeDetachController name => cases name <;> rfl
  | _ => rfl

/-- What the target lists does not depend on what the DPU refuses. -/
theorem exported_eq (log : Log) : (disks.state log).exported = (disks.asked.state log).exported := by
  refine part_asked_of_output Disks.exported fun s t r hst => ?_
  obtain ⟨c, reply⟩ := r
  have hother : Disks.exported (if reply.status = 0 then s.grant c else s) =
      (t.grant c).exported := by
    rw [exported_grant, ← hst]
    by_cases hstatus : reply.status = 0
    · rw [if_pos hstatus, exported_grant]
    · rw [if_neg hstatus]
  cases c with
  | startNewUbuntu27 => rfl
  | stopUsedUbuntu27 => rfl
  | _ => exact hother

/-- Where no refusal stands, there is what was asked for. -/
theorem state_of_settled {log : Log} (h : Settled log) : disks.state log = disks.asked.state log := by
  have hbacking := backing_of_granted h.backing
  have hrocky : (disks.state log).rocky = (disks.asked.state log).rocky := nvme_of_granted (h.nvme .nvmeRocky8)
  have hubuntu : (disks.state log).ubuntu = (disks.asked.state log).ubuntu := nvme_of_granted (h.nvme .nvmeUbuntu)
  have hexported := exported_eq log
  cases hs : disks.state log
  cases ht : disks.asked.state log
  rw [hs, ht] at hbacking hrocky hubuntu hexported
  exact Disks.mk.injEq .. ▸ ⟨hbacking, hrocky, hubuntu, hexported⟩

/-- However the host, the DPU and the target answer and however many rounds there are, every command makes
sense by what has been asked for before it. It makes sense by what there is as well, unless the last request
about the emulated disk, or the last one about an NVMe controller, was refused. -/
theorem history_kept (w : TimedHost Command) (n : ℕ) : disks.asked.Kept (history w n) ∧
    Always (fun pre r => Settled pre → disks.Allowed (disks.state pre) r) (history w n) := by
  have hkept : disks.asked.Kept (history w n) :=
    wp_finalState (wp_mono (leads_main n [] kept_nil rfl) (fun _ _ h => h.1) fun _ _ h => h)
  exact ⟨hkept, always_allowed_of_asked (fun _ _ h => h) (fun _ => state_of_settled) hkept⟩

end DcPerf.Soak.RebootAttach
