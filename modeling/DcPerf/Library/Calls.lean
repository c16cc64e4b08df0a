import Mathlib.Logic.Function.Basic

/-!
# Call stacks and the maps that mirror them

Contexts call functions and return from them, each on a stack of its own; an observer sees the calls
and the returns as they are interleaved, and keeps a map with an entry for the key of a context. The
map mirrors the stacks (`Mirrors`) when it holds for every key what is to be known of the stack of
its context. Contexts may share a key: then the map has room for one of them only.
-/

namespace DcPerf.Library

variable {χ κ φ β : Type}

/-! ## What a stack tracks -/

/-- What the innermost frame with a value has; `v f below` is the value of the frame `f` on top of
the frames `below`. -/
def tracked (v : φ → List φ → Option β) : List φ → Option β
  | [] => none
  | f :: below => (v f below).or (tracked v below)

/-- The frames with `own` lie on stacks that track nothing. -/
def Single (own : φ → Prop) (v : φ → List φ → Option β) : List φ → Prop
  | [] => True
  | f :: below => (own f → tracked v below = none) ∧ Single own v below

variable {v : φ → List φ → Option β} {own : φ → Prop}

@[simp] theorem tracked_nil : tracked v [] = none := rfl

theorem tracked_cons (f : φ) (below : List φ) :
    tracked v (f :: below) = (v f below).or (tracked v below) := rfl

theorem tracked_cons_none {f : φ} {below : List φ} (h : v f below = none) :
    tracked v (f :: below) = tracked v below := by
  rw [tracked_cons, h, Option.none_or]

theorem tracked_cons_some {f : φ} {below : List φ} {b : β} (h : v f below = some b) :
    tracked v (f :: below) = some b := by
  rw [tracked_cons, h, Option.some_or]

/-- A stack on which nothing has a value tracks nothing. -/
theorem tracked_eq_none {stk : List φ} :
    tracked v stk = none ↔ ∀ above f below, stk = above ++ f :: below → v f below = none := by
  induction stk with
  | nil => simp
  | cons g rest ih =>
    rw [tracked_cons, Option.or_eq_none_iff, ih]
    constructor
    · rintro ⟨hg, hrest⟩ above f below h
      cases above with
      | nil =>
        obtain ⟨rfl, rfl⟩ := List.cons.inj h
        exact hg
      | cons x above => exact hrest above f below (List.cons.inj h).2
    · intro h
      exact ⟨h [] g rest rfl, fun above f below hrest => h (g :: above) f below (by rw [hrest]; rfl)⟩

/-- What is tracked belongs to a frame. -/
theorem exists_of_tracked {stk : List φ} {b : β} (h : tracked v stk = some b) :
    ∃ above f below, stk = above ++ f :: below ∧ v f below = some b := by
  induction stk with
  | nil => cases h
  | cons g rest ih =>
    rcases Option.or_eq_some_iff.mp h with hg | ⟨-, hrest⟩
    · exact ⟨[], g, rest, rfl, hg⟩
    · obtain ⟨above, f, below, rfl, hf⟩ := ih hrest
      exact ⟨g :: above, f, below, rfl, hf⟩

/-- On a stack with one frame of its kind at most, a frame's value is what the stack tracks. -/
theorem tracked_eq_some (hown : ∀ f below b, v f below = some b → own f) {stk : List φ}
    (hs : Single own v stk) {b : β} :
    tracked v stk = some b ↔ ∃ above f below, stk = above ++ f :: below ∧ v f below = some b := by
  refine ⟨exists_of_tracked, ?_⟩
  rintro ⟨above, f, below, rfl, hf⟩
  induction above with
  | nil => exact tracked_cons_some hf
  | cons g above ih =>
    have hrest := ih hs.2
    cases hg : v g (above ++ f :: below) with
    | none =>
      exact (tracked_cons_none hg).trans hrest
    | some b' =>
      have hnone : tracked v (above ++ f :: below) = none := hs.1 (hown _ _ _ hg)
      rw [hnone] at hrest
      cases hrest

/-! ## Maps -/

section Mirrors

variable {key : χ → κ} {g : List φ → β} {stackOf : χ → List φ} {m : κ → β} {c : χ}

/-- The map has what `g` makes of the stacks in use, and elsewhere what it makes of an empty one. -/
structure Mirrors (key : χ → κ) (g : List φ → β) (stackOf : χ → List φ) (m : κ → β) : Prop where
  busy : ∀ c, stackOf c ≠ [] → m (key c) = g (stackOf c)
  idle : ∀ k, (∀ c, key c = k → stackOf c = []) → m k = g []

/-- No other context with the key of `c` is in use. -/
def Alone (key : χ → κ) (stackOf : χ → List φ) (c : χ) : Prop :=
  ∀ c', key c' = key c → c' ≠ c → stackOf c' = []

/-- Of the contexts with one key, one at most is in use. -/
def Exclusive (key : χ → κ) (stackOf : χ → List φ) : Prop :=
  ∀ c, stackOf c ≠ [] → Alone key stackOf c

theorem Mirrors.empty (key : χ → κ) (g : List φ → β) :
    Mirrors key g (fun _ => []) fun _ => g [] :=
  ⟨fun _ h => absurd rfl h, fun _ _ => rfl⟩

/-- The map answers for a context that is alone with its key. -/
theorem Mirrors.read (h : Mirrors key g stackOf m) (hc : Alone key stackOf c) :
    m (key c) = g (stackOf c) := by
  by_cases hs : stackOf c = []
  · rw [hs]
    refine h.idle _ fun c' hk => ?_
    by_cases hcc : c' = c
    · rw [hcc, hs]
    · exact hc c' hk hcc
  · exact h.busy c hs

/-- A step of one context changes the map at its key only. -/
theorem Mirrors.update [DecidableEq χ] (h : Mirrors key g stackOf m) (hc : Alone key stackOf c)
    {stk : List φ} {m' : κ → β} (hother : ∀ k, k ≠ key c → m' k = m k)
    (hkey : m' (key c) = g stk) : Mirrors key g (Function.update stackOf c stk) m' := by
  constructor
  · intro c' hs
    by_cases hcc : c' = c
    · rw [hcc, Function.update_self, hkey]
    · rw [Function.update_of_ne hcc] at hs ⊢
      rw [hother _ fun hk => hs (hc c' hk hcc)]
      exact h.busy c' hs
  · intro k hk
    by_cases hkc : k = key c
    · have hstk := hk c hkc.symm
      rw [Function.update_self] at hstk
      rw [hkc, hkey, hstk]
    · rw [hother k hkc]
      refine h.idle k fun c' hc' => ?_
      have hcc : c' ≠ c := by
        rintro rfl
        exact hkc hc'.symm
      simpa [Function.update_of_ne hcc] using hk c' hc'

/-- When the stacks come to nothing, the map is as at the start. -/
theorem Mirrors.eq_empty (h : Mirrors key g stackOf m) (hall : ∀ c, g (stackOf c) = g []) :
    m = fun _ => g [] := by
  funext k
  by_cases hk : ∀ c, key c = k → stackOf c = []
  · exact h.idle k hk
  · obtain ⟨c, hc⟩ := not_forall.mp hk
    obtain ⟨rfl, hs⟩ := Classical.not_imp.mp hc
    rw [h.busy c hs, hall c]

theorem exclusive_nil (key : χ → κ) : Exclusive key fun _ => ([] : List φ) :=
  fun _ _ _ _ _ => rfl

theorem Exclusive.update [DecidableEq χ] (h : Exclusive key stackOf) (hc : Alone key stackOf c)
    (stk : List φ) : Exclusive key (Function.update stackOf c stk) := by
  intro c₁ h₁ c₂ hk hne
  by_cases h₂c : c₂ = c
  · subst h₂c
    rw [Function.update_of_ne hne.symm] at h₁
    exact absurd (hc c₁ hk.symm hne.symm) h₁
  · rw [Function.update_of_ne h₂c]
    by_cases h₁c : c₁ = c
    · subst h₁c
      exact hc c₂ hk h₂c
    · rw [Function.update_of_ne h₁c] at h₁
      exact h c₁ h₁ c₂ hk hne

/-- Contexts with keys of their own do not meet. -/
theorem alone_of_injective (hkey : Function.Injective key) : Alone key stackOf c :=
  fun _ hk hne => absurd (hkey hk) hne

end Mirrors

end DcPerf.Library
