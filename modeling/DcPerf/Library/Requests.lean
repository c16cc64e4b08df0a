import DcPerf.Library.Timed

/-!
# Requests that may be refused

A script that does not look at the status of a request goes on as if it had been granted. What there is
follows the replies; what was asked for is what there would be if none had been a refusal. A part of the
state is as it was asked for if the last request about it was granted.
-/

namespace DcPerf.Library

variable {κ σ β : Type}

/-- A command as if it had succeeded. -/
def Ran.granted (r : Ran κ) : Ran κ := ⟨r.command, { r.reply with status := 0 }⟩

theorem Ran.granted_eq {r : Ran κ} (h : r.reply.status = 0) : r.granted = r := by
  obtain ⟨c, status, output, took⟩ := r
  obtain rfl : status = 0 := h
  rfl

/-- The last command of a kind, if there was one, has succeeded. -/
def LastGranted (about : κ → Bool) (log : List (Ran κ)) : Prop :=
  ∀ r ∈ (log.filter fun r => about r.command).getLast?, r.reply.status = 0

theorem lastGranted_snoc_about {about : κ → Bool} {log : List (Ran κ)} {r : Ran κ}
    (h : about r.command = true) : LastGranted about (log ++ [r]) ↔ r.reply.status = 0 := by
  have hfilter : (log ++ [r]).filter (fun r => about r.command) =
      log.filter (fun r => about r.command) ++ [r] := by simp [h]
  unfold LastGranted
  rw [hfilter, List.getLast?_concat]
  simp

theorem lastGranted_snoc_other {about : κ → Bool} {log : List (Ran κ)} {r : Ran κ}
    (h : about r.command = false) : LastGranted about (log ++ [r]) ↔ LastGranted about log := by
  have hfilter : (log ++ [r]).filter (fun r => about r.command) =
      log.filter fun r => about r.command := by simp [h]
  unfold LastGranted
  rw [hfilter]

namespace Protocol

variable {P : Protocol σ (Ran κ)} {log : List (Ran κ)}

/-- What was asked for, refused or not. -/
def asked (P : Protocol σ (Ran κ)) : Protocol σ (Ran κ) where
  start := P.start
  next s r := P.next s r.granted
  Allowed s r := P.Allowed s r.granted

/-- A part of the state that is set by the commands of a kind, and by no others. -/
theorem part_asked {about : κ → Bool} (part : σ → β) (value : Ran κ → β)
    (hother : ∀ s r, about r.command = false → part (P.next s r) = part s)
    (habout : ∀ s r, about r.command = true → r.reply.status = 0 → part (P.next s r) = value r)
    (h : LastGranted about log) : part (P.state log) = part (P.asked.state log) := by
  induction log using List.reverseRecOn with
  | nil => rfl
  | append_singleton log r ih =>
    rw [state_append, state_append]
    show part (P.next (P.state log) r) = part (P.next (P.asked.state log) r.granted)
    cases hr : about r.command with
    | false => rw [hother _ r hr, hother _ r.granted hr, ih ((lastGranted_snoc_other hr).mp h)]
    | true =>
      have hstatus := (lastGranted_snoc_about hr).mp h
      rw [Ran.granted_eq hstatus, habout _ r hr hstatus, habout _ r hr hstatus]

/-- A part of the state that no refusal changes. -/
theorem part_asked_of_output (part : σ → β)
    (h : ∀ s t r, part s = part t → part (P.next s r) = part (P.next t r.granted)) :
    part (P.state log) = part (P.asked.state log) := by
  induction log using List.reverseRecOn with
  | nil => rfl
  | append_singleton log r ih =>
    rw [state_append, state_append]
    exact h _ _ r ih

/-- A command that makes sense by what was asked for makes sense where that is what there is. -/
theorem always_allowed_of_asked {Settled : List (Ran κ) → Prop}
    (hallowed : ∀ s r, P.Allowed s r.granted → P.Allowed s r)
    (hstate : ∀ log, Settled log → P.state log = P.asked.state log) (h : P.asked.Kept log) :
    Always (fun pre r => Settled pre → P.Allowed (P.state pre) r) log := by
  refine h.mono fun pre r hr hpre => hallowed _ r ?_
  rw [hstate pre hpre]
  exact hr

end Protocol

end DcPerf.Library
