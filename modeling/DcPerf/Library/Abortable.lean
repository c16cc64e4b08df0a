import Mathlib.Data.List.Basic

/-!
# Programs that may be aborted

A program over a state `σ` that may raise an exception `ε` and keeps the state when it does: Lean's
`EStateM`. This module gives the rules by which such programs are verified. `wp m Q E s` says that
`m`, started in `s`, returns in a state that meets `Q` or is aborted in a state that meets `E`; a
loop over a list is verified with an invariant that is indexed by the elements already done.
-/

namespace DcPerf.Library

variable {ε σ α β : Type}

/-- The state in which a run ends, by returning or by raising. -/
def finalState : EStateM.Result ε σ α → σ
  | .ok _ s => s
  | .error _ s => s

/-- The run returned. -/
def Returned (r : EStateM.Result ε σ α) : Prop := ∃ a s, r = .ok a s

instance (r : EStateM.Result ε σ α) : Decidable (Returned r) :=
  match r with
  | .ok a s => isTrue ⟨a, s, rfl⟩
  | .error _ _ => isFalse fun ⟨_, _, h⟩ => nomatch h

/-- The program `m` started in `s` ends in a state that meets `Q`, or is aborted in one that
meets `E`. -/
def wp (m : EStateM ε σ α) (Q : α → σ → Prop) (E : ε → σ → Prop) (s : σ) : Prop :=
  match m s with
  | .ok a s' => Q a s'
  | .error e s' => E e s'

variable {Q Q' : α → σ → Prop} {E E' : ε → σ → Prop} {s : σ}

@[simp] theorem wp_pure (a : α) : wp (pure a : EStateM ε σ α) Q E s ↔ Q a s := Iff.rfl

@[simp] theorem wp_throw (e : ε) : wp (throw e : EStateM ε σ α) Q E s ↔ E e s := Iff.rfl

@[simp] theorem wp_get {Q : σ → σ → Prop} : wp (get : EStateM ε σ σ) Q E s ↔ Q s s := Iff.rfl

@[simp] theorem wp_bind {m : EStateM ε σ α} {f : α → EStateM ε σ β} {Q : β → σ → Prop} :
    wp (m >>= f) Q E s ↔ wp m (fun a => wp (f a) Q E) E s := by
  simp only [wp, bind, EStateM.bind]
  cases m s <;> rfl

/-- A larger postcondition is met as well. -/
theorem wp_mono {m : EStateM ε σ α} (h : wp m Q E s) (hQ : ∀ a s', Q a s' → Q' a s')
    (hE : ∀ e s', E e s' → E' e s') : wp m Q' E' s := by
  unfold wp at *
  cases hm : m s with
  | ok a s' => rw [hm] at h; exact hQ a s' h
  | error e s' => rw [hm] at h; exact hE e s' h

/-- Two postconditions are met together. -/
theorem wp_and {m : EStateM ε σ α} (h : wp m Q E s) (h' : wp m Q' E' s) :
    wp m (fun a s' => Q a s' ∧ Q' a s') (fun e s' => E e s' ∧ E' e s') s := by
  unfold wp at *
  cases hm : m s with
  | ok a s' => rw [hm] at h h'; exact ⟨h, h'⟩
  | error e s' => rw [hm] at h h'; exact ⟨h, h'⟩

/-- Only the state at the end matters. -/
theorem wp_iff_finalState {m : EStateM ε σ α} {P : σ → Prop} :
    wp m (fun _ => P) (fun _ => P) s ↔ P (finalState (m s)) := by
  unfold wp
  cases m s <;> rfl

/-- What holds after returning and after an abort holds in the final state. -/
theorem wp_finalState {m : EStateM ε σ α} {P : σ → Prop} (h : wp m (fun _ => P) (fun _ => P) s) :
    P (finalState (m s)) :=
  wp_iff_finalState.mp h

theorem wp_congr {m : EStateM ε σ α} (h : ∀ a t, Q a t ↔ Q' a t) : wp m Q E s ↔ wp m Q' E s :=
  ⟨fun hm => wp_mono hm (fun a t => (h a t).mp) fun _ _ h => h,
    fun hm => wp_mono hm (fun a t => (h a t).mpr) fun _ _ h => h⟩

/-- What holds after returning holds in the final state of a run that returns. -/
theorem wp_returned {m : EStateM ε σ α} {P : σ → Prop} (h : wp m (fun _ => P) E s)
    (hr : Returned (m s)) : P (finalState (m s)) := by
  obtain ⟨a, s', hm⟩ := hr
  rw [wp, hm] at h
  rw [hm]
  exact h

/-- A program that cannot be aborted returns. -/
theorem returned_of_wp {m : EStateM ε σ α} (h : wp m Q (fun _ _ => False) s) : Returned (m s) := by
  unfold wp at h
  cases hm : m s with
  | ok a s' => exact ⟨a, s', rfl⟩
  | error e s' => rw [hm] at h; exact h.elim

/-- What a return implies holds after it. -/
theorem wp_and_of_returned {m : EStateM ε σ α} {P : Prop} (hm : wp m Q E s)
    (hP : Returned (m s) → P) : wp m (fun a t => Q a t ∧ P) E s := by
  unfold wp at *
  cases h : m s with
  | ok a t =>
    rw [h] at hm
    exact ⟨hm, hP ⟨a, t, h⟩⟩
  | error e t =>
    rw [h] at hm
    exact hm

/-- A program returns only if its first part does. -/
theorem Returned.of_bind {m : EStateM ε σ α} {f : α → EStateM ε σ β}
    (h : Returned ((m >>= f) s)) : Returned (m s) := by
  cases hm : m s with
  | ok a t => exact ⟨a, t, rfl⟩
  | error e t =>
    obtain ⟨b, u, hb⟩ := h
    have herror : (m >>= f) s = .error e t := by simp [bind, EStateM.bind, hm]
    rw [herror] at hb
    cases hb

/-- A program that changes nothing, and may be aborted, leads to what holds when it returns. -/
theorem wp_iff_of_unchanged {m : EStateM ε σ α} {P : Prop}
    (hm : wp m (fun _ t => t = s) (fun _ t => t = s) s) (hE : ∀ e, E e s) (hQ : ∀ a, Q a s ↔ P) :
    wp m Q E s ↔ (Returned (m s) → P) := by
  unfold wp at *
  cases h : m s with
  | ok a t =>
    rw [h] at hm
    obtain rfl := hm
    exact ⟨fun hq _ => (hQ a).mp hq, fun hp => (hQ a).mpr (hp ⟨a, t, rfl⟩)⟩
  | error e t =>
    rw [h] at hm
    obtain rfl := hm
    refine ⟨?_, fun _ => hE e⟩
    rintro - ⟨a, u, hok⟩
    cases hok

/-! ## Relations between the start and the end of a program -/

/-- The relations `R`, between the start of a program and its end, and `R'`, between its start and
its abort, fit together: a part of the program that returns may be followed by another one. -/
structure Composes (R R' : σ → σ → Prop) : Prop where
  refl : ∀ s, R s s
  trans : ∀ {s t u}, R s t → R t u → R s u
  abort : ∀ {s t u}, R s t → R' t u → R' s u
  weaken : ∀ {s t}, R s t → R' s t

/-- From every state, `m` returns in a state that `R` relates to it or is aborted in one that `R'`
relates to it. -/
def Respects (R R' : σ → σ → Prop) (m : EStateM ε σ α) : Prop :=
  ∀ s, wp m (fun _ s' => R s s') (fun _ s' => R' s s') s

section Respects

variable {R R' : σ → σ → Prop} (hR : Composes R R')
include hR

theorem Respects.pure (a : α) : Respects R R' (pure a : EStateM ε σ α) := fun s => hR.refl s

theorem Respects.throw (e : ε) : Respects R R' (throw e : EStateM ε σ α) :=
  fun s => hR.weaken (hR.refl s)

theorem Respects.get : Respects R R' (get : EStateM ε σ σ) := fun s => hR.refl s

theorem Respects.bind {m : EStateM ε σ α} {f : α → EStateM ε σ β} (hm : Respects R R' m)
    (hf : ∀ a, Respects R R' (f a)) : Respects R R' (m >>= f) := by
  intro s
  rw [wp_bind]
  refine wp_mono (hm s) ?_ fun _ _ h => h
  intro a t hst
  exact wp_mono (hf a t) (fun _ _ h => hR.trans hst h) fun _ _ h => hR.abort hst h

theorem Respects.forM {f : β → EStateM ε σ PUnit} (hf : ∀ x, Respects R R' (f x)) (xs : List β) :
    Respects R R' (xs.forM f) := by
  induction xs with
  | nil => exact Respects.pure hR _
  | cons x xs ih => exact Respects.bind hR (hf x) fun _ => ih

omit hR in
theorem Respects.ite {c : Prop} [Decidable c] {m m' : EStateM ε σ α} (hm : Respects R R' m)
    (hm' : Respects R R' m') : Respects R R' (if c then m else m') := by
  split
  · exact hm
  · exact hm'

end Respects

/-! ## Loops -/

/-- The rule for a loop over a list: the invariant holds at the start, and each element done from a
state that meets the invariant extends it. -/
theorem wp_forM {I : List β → σ → Prop} {f : β → EStateM ε σ PUnit} {xs : List β}
    (hstep : ∀ done x rest, xs = done ++ x :: rest → ∀ s, I done s →
      wp (f x) (fun _ s' => I (done ++ [x]) s') E s) (h0 : I [] s) :
    wp (xs.forM f) (fun _ s' => I xs s') E s := by
  -- Induction on what is left of the list, for every part already done.
  suffices h : ∀ rest done s, xs = done ++ rest → I done s →
      wp (rest.forM f) (fun _ s' => I xs s') E s from h xs [] s rfl h0
  intro rest
  induction rest with
  | nil =>
    intro done s hxs hI
    rw [List.append_nil] at hxs
    subst hxs
    exact hI
  | cons x rest ih =>
    intro done s hxs hI
    show wp (f x >>= fun _ => rest.forM f) _ E s
    rw [wp_bind]
    refine wp_mono (hstep done x rest hxs s hI) ?_ fun _ _ h => h
    intro _ s' hI'
    exact ih (done ++ [x]) s' (by simp [hxs]) hI'

/-- A loop over a concatenation. -/
theorem forM_append (f : β → EStateM ε σ PUnit) (xs ys : List β) :
    (xs ++ ys).forM f = xs.forM f >>= fun _ => ys.forM f := by
  induction xs with
  | nil => rfl
  | cons x xs ih =>
    show (f x >>= fun _ => (xs ++ ys).forM f) = (f x >>= fun _ => xs.forM f) >>= fun _ => ys.forM f
    rw [ih, bind_assoc]

/-- A loop over the lists that another list is mapped to. -/
theorem forM_flatMap (f : β → EStateM ε σ PUnit) (g : α → List β) (xs : List α) :
    (xs.flatMap g).forM f = xs.forM fun x => (g x).forM f := by
  induction xs with
  | nil => rfl
  | cons x xs ih =>
    rw [List.flatMap_cons, forM_append, ih]
    rfl

theorem forM_nil (f : β → EStateM ε σ PUnit) : [].forM f = pure ⟨⟩ := rfl

theorem forM_cons (f : β → EStateM ε σ PUnit) (x : β) (xs : List β) :
    (x :: xs).forM f = f x >>= fun _ => xs.forM f := rfl

/-- A loop over one element. -/
theorem forM_singleton (f : β → EStateM ε σ PUnit) (x : β) : [x].forM f = f x := by
  show (f x >>= fun _ => pure ⟨⟩) = f x
  simp

end DcPerf.Library
