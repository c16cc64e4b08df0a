import DcPerf.Library.Abortable

/-!
# Scripts that end with an exit code

A script is a program that an exit aborts; a script that runs to its end exits with 0. Rules for
what holds when a script exits with success.
-/

namespace DcPerf.Library

variable {σ α : Type}

/-- An exit before the end of the script. -/
structure Exit where
  code : ℕ
  msg : String
  deriving DecidableEq

abbrev Script (σ α : Type) := EStateM Exit σ α

/-- The exit code of a run. -/
def exitCode : EStateM.Result Exit σ α → ℕ
  | .ok _ _ => 0
  | .error e _ => e.code

/-- Exit unless a test succeeds. -/
def orExit (c : Bool) (e : Exit) : Script σ Unit := if c then pure () else throw e

/-- A command under a condition. -/
def onlyIf (c : Prop) [Decidable c] (m : Script σ Unit) : Script σ Unit := if c then m else pure ()

variable {m m' : Script σ α} {Q : α → σ → Prop} {E : Exit → σ → Prop} {s : σ}

theorem wp_set {Q : PUnit → σ → Prop} (t : σ) : wp (set t : Script σ PUnit) Q E s ↔ Q ⟨⟩ t :=
  Iff.rfl

theorem wp_ite {c : Prop} [Decidable c] (hm : c → wp m Q E s) (hm' : ¬ c → wp m' Q E s) :
    wp (if c then m else m') Q E s := by
  by_cases h : c
  · rw [if_pos h]
    exact hm h
  · rw [if_neg h]
    exact hm' h

theorem wp_onlyIf {c : Prop} [Decidable c] {m : Script σ Unit} {Q : Unit → σ → Prop}
    (hm : c → wp m Q E s) (hn : ¬ c → Q () s) : wp (onlyIf c m) Q E s :=
  wp_ite hm hn

theorem wp_orExit {c : Bool} {e : Exit} {Q : Unit → σ → Prop} (hQ : c = true → Q () s)
    (hE : c = false → E e s) : wp (orExit c e) Q E s := by
  cases c with
  | true => exact hQ rfl
  | false => exact hE rfl

theorem wp_orExit_iff {c : Bool} {e : Exit} {Q : Unit → σ → Prop} :
    wp (orExit c e) Q E s ↔ if c = true then Q () s else E e s := by
  cases c <;> rfl

/-- Where an exit is fine, what is done matters only if there is none. -/
theorem ite_iff_imp {c A B : Prop} [Decidable c] (h : B) : (if c then A else B) ↔ (c → A) := by
  by_cases hc : c <;> simp [hc, h]

/-- Where an exit is not, there has to be none. -/
theorem ite_iff_and {c A B : Prop} [Decidable c] (h : ¬B) : (if c then A else B) ↔ c ∧ A := by
  by_cases hc : c <;> simp [hc, h]

theorem returned_orExit {c : Bool} {e : Exit} :
    Returned ((orExit c e : Script σ Unit) s) ↔ c = true := by
  cases c with
  | true => exact ⟨fun _ => rfl, fun _ => ⟨(), s, rfl⟩⟩
  | false => exact ⟨fun ⟨_, _, h⟩ => (nomatch h), fun h => (nomatch h)⟩

theorem returned_orExit_bind {c : Bool} {e : Exit} {f : Unit → Script σ α} :
    Returned ((orExit c e >>= f) s) ↔ c = true ∧ Returned (f () s) := by
  cases c with
  | true => exact ⟨fun h => ⟨rfl, h⟩, fun h => h.2⟩
  | false => exact ⟨fun ⟨_, _, h⟩ => (nomatch h), fun h => (nomatch h.1)⟩

/-- What holds at the end and at every exit with success holds when the script exits with 0. -/
theorem wp_exitCode {P : σ → Prop} (h : wp m (fun _ => P) (fun e s => e.code = 0 → P s) s)
    (h0 : exitCode (m s) = 0) : P (finalState (m s)) := by
  unfold wp at h
  cases hm : m s with
  | ok a s' => rw [hm] at h; exact h
  | error e s' =>
    rw [hm] at h h0
    exact h h0

/-! ## Parts of a script -/

section Respects

variable {R R' : σ → σ → Prop} (hR : Composes R R')
include hR

theorem Respects.orExit (c : Bool) (e : Exit) : Respects R R' (orExit c e : Script σ Unit) :=
  Respects.ite (.pure hR ()) (.throw hR e)

theorem Respects.onlyIf {c : Prop} [Decidable c] {m : Script σ Unit} (h : Respects R R' m) :
    Respects R R' (onlyIf c m) :=
  Respects.ite h (.pure hR ())

end Respects

end DcPerf.Library
