import DcPerf.Library.History
import Mathlib.Data.List.Count

/-!
# Lifetimes of resources

A log says which resources a program acquires, uses and releases. A disciplined program acquires
nothing twice and touches nothing that it does not hold; a balanced one has released everything in
the end.
-/

namespace DcPerf.Library

/-- What a program does with a resource. -/
inductive Use (ι : Type) where
  | acquire (i : ι)
  | use (i : ι)
  | release (i : ι)
  deriving DecidableEq

variable {ι : Type} {l : List (Use ι)} {i : ι}

/-- The resource is held after a log. -/
def Held (pre : List (Use ι)) (i : ι) : Prop := .acquire i ∈ pre ∧ .release i ∉ pre

/-- What may follow a log. -/
def Allowed (pre : List (Use ι)) : Use ι → Prop
  | .acquire i => .acquire i ∉ pre
  | .use i => Held pre i
  | .release i => Held pre i

/-- Every resource is released, and none is touched when it is not held. -/
structure Balanced (l : List (Use ι)) : Prop where
  disciplined : Always Allowed l
  released : ∀ i, .acquire i ∈ l → .release i ∈ l

/-- A resource that is released was acquired. -/
theorem acquire_mem (h : Always Allowed l) (hr : .release i ∈ l) : .acquire i ∈ l := by
  obtain ⟨pre, post, rfl⟩ := List.append_of_mem hr
  have hheld := h pre _ post rfl
  exact List.mem_append_left _ hheld.1

/-! ## What is held -/

/-- A disciplined log after which exactly the resources of `rs` are held. -/
structure Holding (l : List (Use ι)) (rs : List ι) : Prop where
  disciplined : Always Allowed l
  held : ∀ i, Held l i ↔ i ∈ rs
  nodup : rs.Nodup

variable {rs : List ι}

theorem holding_nil : Holding ([] : List (Use ι)) [] :=
  ⟨always_nil, by simp [Held], List.nodup_nil⟩

theorem Holding.acquire (h : Holding l rs) (hnew : .acquire i ∉ l) :
    Holding (l ++ [.acquire i]) (i :: rs) := by
  have hfree : i ∉ rs := by
    rw [← h.held i]
    intro hheld
    exact hnew hheld.1
  refine ⟨always_snoc.mpr ⟨h.disciplined, hnew⟩, ?_, List.nodup_cons.mpr ⟨hfree, h.nodup⟩⟩
  intro j
  have hj := h.held j
  unfold Held at hj ⊢
  by_cases hji : j = i
  · subst hji
    have hrel : .release j ∉ l := fun hr => hnew (acquire_mem h.disciplined hr)
    simp [hrel]
  · simp [hji, ← hj]

theorem Holding.use (h : Holding l rs) (hi : i ∈ rs) : Holding (l ++ [.use i]) rs := by
  refine ⟨always_snoc.mpr ⟨h.disciplined, (h.held i).mpr hi⟩, ?_, h.nodup⟩
  intro j
  have hj := h.held j
  unfold Held at hj ⊢
  simp [← hj]

/-- Any number of uses of what is held. -/
theorem Holding.uses {l' : List (Use ι)} (h : Holding l rs) (hl' : ∀ u ∈ l', ∃ i ∈ rs, u = .use i) :
    Holding (l ++ l') rs := by
  induction l' generalizing l with
  | nil => rwa [List.append_nil]
  | cons u l' ih =>
    obtain ⟨i, hi, rfl⟩ := hl' u List.mem_cons_self
    have hrest := ih (h.use hi) fun u hu => hl' u (List.mem_cons_of_mem _ hu)
    rwa [List.append_assoc] at hrest

theorem Holding.release (h : Holding l (i :: rs)) : Holding (l ++ [.release i]) rs := by
  obtain ⟨hfree, hnodup⟩ := List.nodup_cons.mp h.nodup
  have hi := (h.held i).mpr List.mem_cons_self
  refine ⟨always_snoc.mpr ⟨h.disciplined, hi⟩, ?_, hnodup⟩
  intro j
  have hj := h.held j
  unfold Held at hj ⊢
  by_cases hji : j = i
  · subst hji
    simp [hfree]
  · simp [hji] at hj
    simp [hji, ← hj]

/-- When nothing is held the log is balanced. -/
theorem Holding.balanced (h : Holding l []) : Balanced l := by
  refine ⟨h.disciplined, ?_⟩
  intro i hi
  by_contra hr
  exact List.not_mem_nil ((h.held i).mp ⟨hi, hr⟩)

/-! ## Counting -/

variable [DecidableEq ι]

/-- Nothing is released twice. -/
theorem count_release_le (h : Always Allowed l) (i : ι) : l.count (.release i) ≤ 1 := by
  have honce : Always (fun pre e => (e == .release i) = true →
      ∀ x ∈ pre, (x == .release i) = false) l := by
    refine h.mono ?_
    intro pre e hallowed he x hx
    rw [beq_iff_eq] at he
    subst he
    rw [beq_eq_false_iff_ne]
    intro hxe
    subst hxe
    exact hallowed.2 hx
  exact always_once_iff.mp honce

/-- What is acquired is released exactly once. -/
theorem Balanced.count_release (h : Balanced l) (hi : .acquire i ∈ l) :
    l.count (.release i) = 1 := by
  have hle := count_release_le h.disciplined i
  have hpos := List.count_pos_iff.mpr (h.released i hi)
  omega

end DcPerf.Library
