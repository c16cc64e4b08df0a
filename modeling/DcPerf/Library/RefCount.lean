import Mathlib.Data.Finset.Card
import Mathlib.Data.List.Count
import Mathlib.Data.List.Induction

/-!
# Reference counts on two levels

Objects have users and may belong to a group. An object is free when all of its users have been
released; a group is free when all of its objects are. Both are found out by counting: an object
keeps the number of its users, a group the number of its objects, and every release takes one off
the count of the object, and one off the count of its group when the object's count reaches zero.

The state of the counts is a function of the list of releases so far, in which every release stands
for the object that loses a user. The group may have been given a larger number than it has
objects; then it never becomes free.
-/

namespace DcPerf.Library

/-- The counts before the first release. -/
structure Pool (β γ : Type) [DecidableEq β] [DecidableEq γ] where
  objects : Finset β
  count : β → ℕ
  group : β → Option γ
  size : γ → ℕ
  grouped : ∀ b g, group b = some g → b ∈ objects
  bounded : ∀ g, (objects.filter fun b => group b = some g).card ≤ size g

namespace Pool

variable {β γ : Type} [DecidableEq β] [DecidableEq γ] (p : Pool β γ)

/-- The objects of a group. -/
def members (g : γ) : Finset β := p.objects.filter fun b => p.group b = some g

/-- All users of an object have been released. -/
def Drained (l : List β) (b : β) : Prop := 0 < p.count b ∧ p.count b ≤ l.count b

instance (l : List β) (b : β) : Decidable (p.Drained l b) :=
  inferInstanceAs (Decidable (_ ∧ _))

/-- The objects of a group whose users have all been released. -/
def drained (l : List β) (g : γ) : Finset β := (p.members g).filter (p.Drained l)

/-- The count of an object. It goes below zero when there are more releases than users. -/
def used (l : List β) (b : β) : ℤ := p.count b - l.count b

/-- The count of a group. -/
def groupUsed (l : List β) (g : γ) : ℤ := p.size g - (p.drained l g).card

/-- The next release, of a user of `b`, makes `b` free. -/
def Frees (l : List β) (b : β) : Prop := l.count b + 1 = p.count b

instance (l : List β) (b : β) : Decidable (p.Frees l b) := inferInstanceAs (Decidable (_ = _))

/-- The next release, of a user of `b`, makes the group `g` free. -/
def FreesGroup (l : List β) (b : β) (g : γ) : Prop :=
  p.Frees l b ∧ p.group b = some g ∧ (p.drained l g).card + 1 = p.size g

instance (l : List β) (b : β) (g : γ) : Decidable (p.FreesGroup l b g) :=
  inferInstanceAs (Decidable (_ ∧ _ ∧ _))

/-- The group is free. A group that was given no size never is. -/
def Freed (l : List β) (g : γ) : Prop := 0 < p.size g ∧ (p.drained l g).card = p.size g

instance (l : List β) (g : γ) : Decidable (p.Freed l g) := inferInstanceAs (Decidable (_ ∧ _))

variable {p} {l pre post : List β} {b b' : β} {g : γ}

@[simp] theorem mem_members : b ∈ p.members g ↔ p.group b = some g := by
  rw [members, Finset.mem_filter]
  constructor
  · intro h
    exact h.2
  · intro h
    exact ⟨p.grouped b g h, h⟩

@[simp] theorem mem_drained : b ∈ p.drained l g ↔ p.group b = some g ∧ p.Drained l b := by
  simp [drained]

@[simp] theorem used_nil (b : β) : p.used [] b = p.count b := by simp [used]

@[simp] theorem groupUsed_nil (g : γ) : p.groupUsed [] g = p.size g := by
  have hnone : p.drained [] g = ∅ := by
    ext b
    simp [Drained]
    omega
  simp [groupUsed, hnone]

theorem count_snoc (l : List β) (b b' : β) :
    (l ++ [b]).count b' = if b' = b then l.count b' + 1 else l.count b' := by
  by_cases h : b' = b
  · subst h
    simp
  · have h' : b ≠ b' := fun e => h e.symm
    simp [h, h', List.count_append]

theorem used_snoc (l : List β) (b b' : β) :
    p.used (l ++ [b]) b' = if b' = b then p.used l b' - 1 else p.used l b' := by
  unfold used
  rw [count_snoc]
  split <;> omega

/-- The count says when an object becomes free. -/
theorem frees_iff : p.Frees l b ↔ p.used l b = 1 := by
  unfold Frees used
  omega

theorem drained_snoc_iff :
    p.Drained (l ++ [b]) b' ↔ p.Drained l b' ∨ b' = b ∧ p.Frees l b := by
  unfold Drained Frees
  rw [count_snoc]
  by_cases h : b' = b
  · subst h
    simp only [if_true, true_and]
    omega
  · simp [h]

theorem not_drained_of_frees (h : p.Frees l b) : ¬p.Drained l b := by
  unfold Frees at h
  unfold Drained
  omega

theorem drained_snoc_of_not (h : ¬(p.Frees l b ∧ p.group b = some g)) :
    p.drained (l ++ [b]) g = p.drained l g := by
  ext b'
  rw [mem_drained, mem_drained, drained_snoc_iff]
  constructor
  · rintro ⟨hb', hd | ⟨rfl, hf⟩⟩
    · exact ⟨hb', hd⟩
    · exact absurd ⟨hf, hb'⟩ h
  · rintro ⟨hb', hd⟩
    exact ⟨hb', .inl hd⟩

/-- A release that makes no object of the group free leaves the count of the group. -/
theorem groupUsed_snoc_of_not (h : ¬(p.Frees l b ∧ p.group b = some g)) :
    p.groupUsed (l ++ [b]) g = p.groupUsed l g := by
  rw [groupUsed, groupUsed, drained_snoc_of_not h]

theorem card_drained_snoc (hf : p.Frees l b) (hg : p.group b = some g) :
    (p.drained (l ++ [b]) g).card = (p.drained l g).card + 1 := by
  have hins : p.drained (l ++ [b]) g = insert b (p.drained l g) := by
    ext b'
    rw [Finset.mem_insert, mem_drained, mem_drained, drained_snoc_iff]
    constructor
    · rintro ⟨hb', hd | ⟨rfl, -⟩⟩
      · exact .inr ⟨hb', hd⟩
      · exact .inl rfl
    · rintro (rfl | ⟨hb', hd⟩)
      · exact ⟨hg, .inr ⟨rfl, hf⟩⟩
      · exact ⟨hb', .inl hd⟩
  have hnot : b ∉ p.drained l g := fun hb => not_drained_of_frees hf (mem_drained.mp hb).2
  rw [hins, Finset.card_insert_of_notMem hnot]

/-- A release that makes an object of the group free takes one off its count. -/
theorem groupUsed_snoc (hf : p.Frees l b) (hg : p.group b = some g) :
    p.groupUsed (l ++ [b]) g = p.groupUsed l g - 1 := by
  have hcard := card_drained_snoc hf hg
  unfold groupUsed
  omega

/-- The count says when a group becomes free. -/
theorem freesGroup_iff (hf : p.Frees l b) (hg : p.group b = some g) :
    p.FreesGroup l b g ↔ p.groupUsed l g = 1 := by
  unfold FreesGroup groupUsed
  constructor
  · rintro ⟨-, -, h⟩
    omega
  · intro h
    exact ⟨hf, hg, by omega⟩

/-- When a group becomes free, so is each of its objects. -/
theorem drained_of_freesGroup (h : p.FreesGroup l b g) (hb' : b' ∈ p.members g) :
    p.Drained (l ++ [b]) b' := by
  obtain ⟨hf, hg, hsize⟩ := h
  have hsub : p.drained (l ++ [b]) g ⊆ p.members g := Finset.filter_subset _ _
  have hcard : (p.members g).card ≤ (p.drained (l ++ [b]) g).card := by
    have hbound := p.bounded g
    rw [card_drained_snoc hf hg, hsize]
    exact hbound
  have heq := Finset.eq_of_subset_of_card_le hsub hcard
  rw [← heq] at hb'
  exact (mem_drained.mp hb').2

/-! ## Groups that are free -/

theorem drained_card_le (l : List β) (g : γ) : (p.drained l g).card ≤ p.size g :=
  (Finset.card_le_card (Finset.filter_subset _ _)).trans (p.bounded g)

/-- A group is free from the release on that makes it free. -/
theorem freed_snoc_iff :
    p.Freed (l ++ [b]) g ↔ p.Freed l g ∨ p.FreesGroup l b g := by
  unfold Freed FreesGroup
  by_cases h : p.Frees l b ∧ p.group b = some g
  · have hcard := card_drained_snoc h.1 h.2
    have hle := drained_card_le (p := p) (l ++ [b]) g
    rw [hcard] at hle
    rw [hcard]
    constructor
    · rintro ⟨-, hsize⟩
      exact .inr ⟨h.1, h.2, hsize⟩
    · rintro (⟨-, hsize⟩ | ⟨-, -, hsize⟩)
      · omega
      · exact ⟨by omega, hsize⟩
  · rw [drained_snoc_of_not h]
    constructor
    · exact .inl
    · rintro (hfree | ⟨hf, hg, -⟩)
      · exact hfree
      · exact absurd ⟨hf, hg⟩ h

theorem not_freed_of_freesGroup (h : p.FreesGroup l b g) : ¬p.Freed l g := by
  obtain ⟨-, -, hsize⟩ := h
  rintro ⟨-, hfree⟩
  omega

/-- A group that knows its size is free when its objects are. -/
theorem freed_iff (hsize : p.size g = (p.members g).card) :
    p.Freed l g ↔ (p.members g).Nonempty ∧ ∀ b ∈ p.members g, p.Drained l b := by
  unfold Freed
  rw [hsize, Finset.card_pos]
  constructor
  · rintro ⟨hne, hcard⟩
    refine ⟨hne, fun b hb => ?_⟩
    have heq := Finset.eq_of_subset_of_card_le (Finset.filter_subset _ _) hcard.ge
    rw [← heq] at hb
    exact (mem_drained.mp hb).2
  · rintro ⟨hne, hall⟩
    have heq : p.drained l g = p.members g := Finset.filter_true_of_mem hall
    exact ⟨hne, by rw [heq]⟩

/-! ## As many releases as users -/

section Exact

/-- When an object has as many releases as users, the one that makes it free is its last. -/
theorem not_mem_of_frees (hl : l = pre ++ b :: post) (hc : l.count b = p.count b)
    (h : p.Frees pre b) : b ∉ post := by
  unfold Frees at h
  rw [hl, List.count_append, List.count_cons_self] at hc
  have hzero : post.count b = 0 := by omega
  exact List.count_eq_zero.mp hzero

/-- When each object of a group has as many releases as users, the release that makes the group free
is the last one in the group. -/
theorem not_mem_of_freesGroup (hl : l = pre ++ b :: post)
    (hc : ∀ b ∈ p.members g, l.count b = p.count b) (h : p.FreesGroup pre b g) :
    ∀ b ∈ p.members g, b ∉ post := by
  intro b' hb'
  have hd := (drained_of_freesGroup h hb').2
  have hcount := hc b' hb'
  have hsplit : l = (pre ++ [b]) ++ post := by simp [hl]
  rw [hsplit, List.count_append] at hcount
  have hzero : post.count b' = 0 := by omega
  exact List.count_eq_zero.mp hzero

end Exact

end Pool

end DcPerf.Library
