import Mathlib.Data.List.Forall2
import Mathlib.Data.List.Induction

/-!
# Scans whose last match wins

A scan goes through a whole list and replaces what it has found by every match. Where no two elements
match, what it finds depends neither on the order of the list nor on anything but the match.
-/

namespace DcPerf.Library

variable {α β σ : Type} {p : α → Prop} {q : β → Prop} [DecidablePred p] [DecidablePred q]
  {l l' : List α} {x : α}

/-- The last element with `p`. -/
def scan (p : α → Prop) [DecidablePred p] (l : List α) : Option α :=
  l.foldl (fun found x => if p x then some x else found) none

/-- No two elements have `p`. -/
def AtMostOne (p : α → Prop) (l : List α) : Prop := l.Pairwise fun x y => ¬(p x ∧ p y)

@[simp] theorem scan_nil : scan p [] = none := rfl

theorem scan_snoc : scan p (l ++ [x]) = if p x then some x else scan p l := by
  simp [scan]

/-- A first element is found if nothing after it is. -/
theorem scan_cons : scan p (x :: l) = (scan p l).or (if p x then some x else none) := by
  induction l using List.reverseRecOn with
  | nil => simp [scan]
  | append_singleton l y ih =>
    rw [← List.cons_append, scan_snoc, scan_snoc, ih]
    by_cases hy : p y
    · rw [if_pos hy, if_pos hy, Option.some_or]
    · rw [if_neg hy, if_neg hy]

theorem scan_eq_none : scan p l = none ↔ ∀ x ∈ l, ¬p x := by
  induction l using List.reverseRecOn with
  | nil => simp
  | append_singleton l y ih =>
    rw [scan_snoc]
    by_cases hy : p y
    · rw [if_pos hy]
      constructor
      · intro h
        cases h
      · intro h
        exact absurd hy (h y (by simp))
    · rw [if_neg hy, ih]
      constructor
      · intro h x hx
        rcases List.mem_append.mp hx with hx | hx
        · exact h x hx
        · rwa [List.mem_singleton.mp hx]
      · intro h x hx
        exact h x (List.mem_append_left _ hx)

/-- The elements with `p` that come before the one found. -/
theorem filter_of_scan (h : scan p l = some x) : ∃ before, l.filter p = before ++ [x] := by
  induction l using List.reverseRecOn with
  | nil => cases h
  | append_singleton l y ih =>
    rw [scan_snoc] at h
    rw [List.filter_append]
    by_cases hy : p y
    · rw [if_pos hy] at h
      obtain rfl := Option.some.inj h
      exact ⟨l.filter p, by simp [hy]⟩
    · rw [if_neg hy] at h
      obtain ⟨before, hbefore⟩ := ih h
      exact ⟨before, by simp [hbefore, hy]⟩

theorem mem_of_scan (h : scan p l = some x) : x ∈ l ∧ p x := by
  obtain ⟨before, hbefore⟩ := filter_of_scan h
  have hx : x ∈ l.filter p := by simp [hbefore]
  exact ⟨(List.mem_filter.mp hx).1, by simpa using (List.mem_filter.mp hx).2⟩

/-- A loop whose state stands for what the scan has found so far. -/
theorem foldl_scan {step : σ → α → σ} (state : Option α → σ)
    (h : ∀ found, ∀ x ∈ l, step (state found) x = state (if p x then some x else found)) :
    l.foldl step (state none) = state (scan p l) := by
  induction l using List.reverseRecOn with
  | nil => rfl
  | append_singleton l y ih =>
    have hprev := ih fun found x hx => h found x (List.mem_append_left _ hx)
    rw [List.foldl_concat, hprev, h _ y (by simp), scan_snoc]

/-! ## At most one match -/

/-- The one match. -/
theorem AtMostOne.filter (h : AtMostOne p l) (hx : scan p l = some x) : l.filter p = [x] := by
  obtain ⟨before, hbefore⟩ := filter_of_scan hx
  cases before with
  | nil => exact hbefore
  | cons y before =>
    have hpair : (l.filter p).Pairwise fun x y => ¬(p x ∧ p y) := List.Pairwise.filter _ h
    have hall : ∀ z ∈ l.filter p, p z := by
      intro z hz
      simpa using (List.mem_filter.mp hz).2
    rw [hbefore] at hpair hall
    have hyx := (List.pairwise_cons.mp hpair).1 x (by simp)
    exact absurd ⟨hall y (by simp), hall x (by simp)⟩ hyx

theorem scan_of_filter (h : l.filter p = [x]) : scan p l = some x := by
  cases hs : scan p l with
  | none =>
    have hnone := scan_eq_none.mp hs
    have hx : x ∈ l.filter p := by simp [h]
    exact absurd (by simpa using (List.mem_filter.mp hx).2) (hnone x (List.mem_filter.mp hx).1)
  | some y =>
    obtain ⟨before, hbefore⟩ := filter_of_scan hs
    rw [h] at hbefore
    have hlast := congrArg List.getLast? hbefore
    simpa using hlast.symm

/-- The order does not matter. -/
theorem AtMostOne.scan_perm (h : AtMostOne p l) (hperm : l.Perm l') : scan p l' = scan p l := by
  cases hs : scan p l with
  | none =>
    rw [scan_eq_none] at hs ⊢
    intro x hx
    exact hs x (hperm.mem_iff.mpr hx)
  | some x =>
    have hfilter : (l.filter p).Perm (l'.filter p) := hperm.filter _
    rw [h.filter hs] at hfilter
    exact scan_of_filter (List.singleton_perm.mp hfilter).symm

/-- Elements that match alike, and agree in what is read off them, are found alike. -/
theorem scan_forall₂ {γ : Type} {f : α → γ} {g : β → γ} {m : List β}
    (h : List.Forall₂ (fun x y => (p x ↔ q y) ∧ f x = g y) l m) :
    (scan p l).map f = (scan q m).map g := by
  induction h with
  | nil => rfl
  | @cons x y l m hxy _ ih =>
    rw [scan_cons, scan_cons, Option.map_or, Option.map_or, ih]
    by_cases hx : p x
    · rw [if_pos hx, if_pos (hxy.1.mp hx), Option.map_some, Option.map_some, hxy.2]
    · rw [if_neg hx, if_neg (mt hxy.1.mpr hx), Option.map_none, Option.map_none]

end DcPerf.Library
