import DcPerf.Library.History
import DcPerf.Library.Script

/-!
# Protocols

A protocol says in what states an event may happen and where it leads. A script keeps the protocol if
every event that it adds to the history may happen when it does. `Protocol.Leads` is a triple for
scripts: what holds of the state before, and what of the state after.
-/

namespace DcPerf.Library

/-- States, and the events that may happen in them. -/
structure Protocol (σ ε : Type) where
  start : σ
  next : σ → ε → σ
  Allowed : σ → ε → Prop

namespace Protocol

variable {σ ε α β : Type} {P : Protocol σ ε} {p p' : σ → Prop} {q q' : α → σ → Prop}
  {log log' : List ε} {e : ε}

/-- The state that a history leads to. -/
def state (P : Protocol σ ε) (log : List ε) : σ := log.foldl P.next P.start

/-- Every event was allowed when it happened. -/
def Kept (P : Protocol σ ε) (log : List ε) : Prop := Always (fun pre e => P.Allowed (P.state pre) e) log

@[simp] theorem state_nil : P.state [] = P.start := rfl

@[simp] theorem state_append (log : List ε) (e : ε) : P.state (log ++ [e]) = P.next (P.state log) e := by
  simp [state]

theorem kept_nil : P.Kept [] := always_nil

theorem kept_append : P.Kept (log ++ [e]) ↔ P.Kept log ∧ P.Allowed (P.state log) e := always_snoc

/-- The events may happen one after the other, from a state on. -/
def Admits (P : Protocol σ ε) : σ → List ε → Prop
  | _, [] => True
  | s, e :: es => P.Allowed s e ∧ P.Admits (P.next s e) es

theorem state_concat (log new : List ε) : P.state (log ++ new) = new.foldl P.next (P.state log) := by
  simp [state]

theorem kept_concat {new : List ε} : P.Kept (log ++ new) ↔ P.Kept log ∧ P.Admits (P.state log) new := by
  induction new generalizing log with
  | nil => simp [Admits]
  | cons e new ih =>
    have hsplit : log ++ e :: new = log ++ [e] ++ new := by simp
    rw [hsplit, ih, kept_append, state_append, and_assoc]
    rfl

/-- Events that are allowed in a state and leave it as it is. -/
theorem kept_goesOn {s : σ} (hlog : P.Kept log) (hs : P.state log = s)
    (h : GoesOn (fun e => P.Allowed s e ∧ P.next s e = s) log log') :
    P.Kept log' ∧ P.state log' = s := by
  obtain ⟨more, rfl, hmore⟩ := h
  induction more using List.reverseRecOn with
  | nil => simpa using ⟨hlog, hs⟩
  | append_singleton more e ih =>
    obtain ⟨hkept, hstate⟩ := ih fun x hx => hmore x (List.mem_append_left _ hx)
    obtain ⟨hallowed, hnext⟩ := hmore e (by simp)
    rw [← List.append_assoc]
    refine ⟨kept_append.mpr ⟨hkept, ?_⟩, ?_⟩
    · rw [hstate]
      exact hallowed
    · rw [state_append, hstate, hnext]

/-! ## Triples -/

/-- From a history that keeps the protocol and leads to a state with `p`, the script goes on to one that
keeps the protocol, and leads to a state with `q` if the script does not exit. -/
def Leads (P : Protocol σ ε) (p : σ → Prop) (m : Script (List ε) α) (q : α → σ → Prop) : Prop :=
  ∀ log, P.Kept log → p (P.state log) →
    wp m (fun a log' => P.Kept log' ∧ q a (P.state log')) (fun _ log' => P.Kept log') log

theorem Leads.pure (a : α) (h : ∀ s, p s → q a s) : P.Leads p (Pure.pure a) q :=
  fun log hlog hp => ⟨hlog, h (P.state log) hp⟩

theorem Leads.throw (e : Exit) : P.Leads p (MonadExcept.throw e : Script (List ε) α) q :=
  fun _ hlog _ => hlog

theorem Leads.bind {m : Script (List ε) α} {f : α → Script (List ε) β} {r : β → σ → Prop}
    (hm : P.Leads p m q) (hf : ∀ a, P.Leads (q a) (f a) r) : P.Leads p (m >>= f) r := by
  intro log hlog hp
  rw [wp_bind]
  exact wp_mono (hm log hlog hp) (fun a log' h => hf a log' h.1 h.2) fun _ _ h => h

theorem Leads.mono {m : Script (List ε) α} (h : P.Leads p' m q') (hp : ∀ s, p s → p' s)
    (hq : ∀ a s, q' a s → q a s) : P.Leads p m q := fun log hlog hpre =>
  wp_mono (h log hlog (hp _ hpre)) (fun a _ h => ⟨h.1, hq a _ h.2⟩) fun _ _ h => h

theorem Leads.ite {c : Prop} [Decidable c] {m m' : Script (List ε) α} (hm : P.Leads p m q)
    (hm' : P.Leads p m' q) : P.Leads p (if c then m else m') q := fun log hlog hp =>
  wp_ite (fun _ => hm log hlog hp) fun _ => hm' log hlog hp

/-- Rounds that lead back to where they start keep the protocol, however many there are. -/
theorem Leads.rounds {f : ℕ → Script (List ε) Unit} (h : ∀ n, P.Leads p (f n) fun _ => p) (n : ℕ) :
    P.Leads p ((List.range n).forM f) fun _ => p := by
  suffices hall : ∀ ns : List ℕ, P.Leads p (ns.forM f) fun _ => p from hall _
  intro ns
  induction ns with
  | nil => exact Leads.pure PUnit.unit fun _ hp => hp
  | cons n ns ih =>
    rw [forM_cons]
    exact (h n).bind fun _ => ih

end Protocol

end DcPerf.Library
