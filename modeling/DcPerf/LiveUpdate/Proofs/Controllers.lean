import DcPerf.LiveUpdate.Proofs.Counts

/-!
# The commands about controllers

The commands that suspend, create and destroy controllers, and attach and detach their namespaces,
are sent whatever the manager remembers. In every run they are an initial part of those that the
plan fixes, and all of them when the run returns.
-/

namespace DcPerf.LiveUpdate

open DcPerf.Library

/-- The command about a controller that an event sends. -/
def Event.controllerCmd? (e : Event) : Option Cmd :=
  e.cmd?.filter fun c => c.rpc.kind = .controller

/-- The commands that the plan fixes. -/
def fixedCmds (src : Source) : List Cmd := (planOf src).filterMap Action.fixed

section Log

theorem controllerCmd_sent {c : Cmd} (ok : Bool) (h : c.rpc.kind = .controller) :
    (Event.sent c ok).controllerCmd? = some c := by
  simp [Event.controllerCmd?, Event.cmd?, h]

theorem controllerCmd_eq_some {e : Event} {c : Cmd} (h : e.controllerCmd? = some c) :
    e.cmd? = some c ∧ c.rpc.kind = .controller := by
  simpa [Event.controllerCmd?, Option.filter_eq_some_iff] using h

theorem filterMap_controllerCmd (l : List Event) : l.filterMap Event.controllerCmd? =
    (l.filterMap Event.removalCmd?).filter fun c => c.rpc.kind = .controller := by
  rw [List.filter_filterMap]
  refine List.filterMap_congr fun e _ => ?_
  cases hc : e.cmd? with
  | none => simp [Event.controllerCmd?, Event.removalCmd?, hc]
  | some c =>
    by_cases hk : c.rpc.kind = .controller
    · simp [Event.controllerCmd?, Event.removalCmd?, hc, hk, Option.filter]
    · by_cases hk' : c.rpc.kind = .bdevDelete
      · simp [Event.controllerCmd?, Event.removalCmd?, hc, hk', Option.filter]
      · simp [Event.controllerCmd?, Event.removalCmd?, hc, hk, hk', Option.filter]

/-- The commands about controllers are those that the plan fixes. -/
theorem filter_walk_removalCmds {src : Source} {done : List Action}
    (h : ∀ a ∈ done, a ∈ plan (managerOf src)) :
    (walk (removalCmds src) done).filter (fun c => c.rpc.kind = .controller) =
      done.filterMap Action.fixed := by
  induction done using List.reverseRecOn with
  | nil => rfl
  | append_singleton done a ih =>
    have hdone := ih fun x hx => h x (List.mem_append_left _ hx)
    have ha : a ∈ plan (managerOf src) := h a (by simp)
    have hfixed : a.fixed.toList.filter (fun c => c.rpc.kind = .controller) = a.fixed.toList := by
      refine List.filter_eq_self.mpr fun c hc => ?_
      simpa using fixed_kind ha (Option.mem_toList.mp hc)
    have hdel : (a.drops.toList.flatMap (deletions src (dropped done))).filter
        (fun c => c.rpc.kind = .controller) = [] := by
      refine List.filter_eq_nil_iff.mpr fun c hc => ?_
      obtain ⟨b, -, hc⟩ := List.mem_flatMap.mp hc
      simp [(deletions_kind c hc).kind.1]
    rw [walk_snoc, List.filter_append, hdone, removalCmds, List.filter_append, hfixed, hdel,
      List.filterMap_append]
    cases hf : a.fixed <;> simp [hf]

end Log

/-- The commands about controllers in a run are those of the actions that it reaches. -/
theorem run_reached_controllers (w : World) (answers : ℕ → Bool) :
    Halted w (finalState (run w answers)) ∧
      (finalState (run w answers)).log.filterMap Event.controllerCmd? <+:
        (reached w.src).filterMap Action.fixed := by
  obtain ⟨hh, hl⟩ := run_reached w answers
  have hplan : ∀ a ∈ reached w.src, a ∈ plan (managerOf w.src) := fun _ ha =>
    (List.takeWhile_prefix _).subset ha
  rw [filterMap_controllerCmd, ← filter_walk_removalCmds hplan]
  exact ⟨hh, hl.filter _⟩

theorem run_controllers (w : World) (answers : ℕ → Bool) :
    Halted w (finalState (run w answers)) ∧
      (finalState (run w answers)).log.filterMap Event.controllerCmd? <+: fixedCmds w.src := by
  obtain ⟨hh, hl⟩ := run_reached_controllers w answers
  exact ⟨hh, hl.trans ((List.takeWhile_prefix _).filterMap _)⟩

theorem run_returned_controllers {w : World} {answers : ℕ → Bool} (h : Returned (run w answers)) :
    Steady w answers (finalState (run w answers)) ∧
      (finalState (run w answers)).log.filterMap Event.controllerCmd? = fixedCmds w.src := by
  obtain ⟨hs, hl⟩ := run_returned_removals h
  refine ⟨hs, ?_⟩
  rw [filterMap_controllerCmd, hl, fixedCmds]
  exact filter_walk_removalCmds fun _ ha => ha

/-! ## From the plan to the log -/

section Lift

variable {w : World} {answers : ℕ → Bool} {k : Sock} {p : Rpc → Bool}

/-- The command `c` sends `k` an RPC with `p`. -/
def Cmd.is (k : Sock) (p : Rpc → Bool) (c : Cmd) : Bool := c.sock = k && p c.rpc

theorem sends_eq (hp : ∀ r, p r = true → r.kind = .controller) (e : Event) :
    e.sends k p = e.controllerCmd?.any (Cmd.is k p) := by
  cases e with
  | asked => rfl
  | sent c ok =>
    by_cases hk : c.rpc.kind = .controller
    · rw [controllerCmd_sent ok hk]
      by_cases hs : c.sock = k <;> simp [Event.sends, Event.rpcTo, Cmd.is, hs]
    · have hpc : p c.rpc = false := by
        by_contra hpc
        exact hk (hp c.rpc (by simpa using hpc))
      by_cases hs : c.sock = k <;>
        simp [Event.sends, Event.rpcTo, Event.controllerCmd?, Event.cmd?, hk, hs, hpc]

theorem countP_sends (hp : ∀ r, p r = true → r.kind = .controller) (l : List Event) :
    l.countP (Event.sends k p) = (l.filterMap Event.controllerCmd?).countP (Cmd.is k p) := by
  rw [List.countP_filterMap]
  congr 1
  funext e
  rw [sends_eq hp]
  cases e.controllerCmd? <;> rfl

/-- A run sends no command about a controller more often than the plan has it. -/
theorem run_countP_le (hp : ∀ r, p r = true → r.kind = .controller) :
    (finalState (run w answers)).log.countP (Event.sends k p) ≤
      (fixedCmds w.src).countP (Cmd.is k p) := by
  rw [countP_sends hp]
  exact (run_controllers w answers).2.sublist.countP_le

theorem run_countP_eq (hp : ∀ r, p r = true → r.kind = .controller)
    (h : Returned (run w answers)) :
    (finalState (run w answers)).log.countP (Event.does k p) =
      (fixedCmds w.src).countP (Cmd.is k p) := by
  obtain ⟨hs, hl⟩ := run_returned_controllers h
  rw [← hl, ← countP_sends hp]
  refine List.countP_congr fun e he => ?_
  simp [Event.does, hs.ok e he]

/-- A command about a controller that the plan puts after another one is sent after the other has
succeeded. -/
theorem run_follows {k' : Sock} {p' : Rpc → Bool}
    (hp : ∀ r, p r = true → r.kind = .controller) (hp' : ∀ r, p' r = true → r.kind = .controller)
    (h : Always (Follows (Cmd.is k p) (Cmd.is k' p')) (fixedCmds w.src)) :
    Always (fun pre e => e.sends k p = true → ∃ x ∈ pre, x.does k' p' = true)
      (finalState (run w answers)).log := by
  obtain ⟨hh, hl⟩ := run_controllers w answers
  refine ((always_filterMap.mp (h.of_prefix hl)).and hh.ok).mono ?_
  rintro pre e ⟨he, hok⟩ hsend
  rw [sends_eq hp] at hsend
  obtain ⟨c, hc, hcp⟩ := (Option.any_eq_true _ _).mp hsend
  obtain ⟨c', hc', hp''⟩ := he c hc hcp
  obtain ⟨x, hx, hxc⟩ := List.mem_filterMap.mp hc'
  refine ⟨x, hx, ?_⟩
  rw [Event.does, hok x hx, sends_eq hp', hxc]
  exact hp''

end Lift

end DcPerf.LiveUpdate
