import Mathlib.Data.List.Induction
import Mathlib.Data.List.Nodup

/-!
# Objects that are created unless they exist

Elements are added to a list one after the other, each only if the list has no element with its key
yet. Of several elements with one key the first one wins, and which one that is does not depend on
what is added later.
-/

namespace DcPerf.Library

variable {α κ : Type} [DecidableEq κ] {key : α → κ} {l xs : List α} {x : α} {k : κ}

/-- Add `x`, unless there is an element with its key. -/
def addNew (key : α → κ) (l : List α) (x : α) : List α := if key x ∈ l.map key then l else l ++ [x]

/-- Add the elements of a list in turn. -/
def addAll (key : α → κ) (l xs : List α) : List α := xs.foldl (addNew key) l

/-- The first element with the key of `x`. -/
def firstWith (key : α → κ) (l : List α) (x : α) : Option α := l.find? fun y => key y = key x

theorem addNew_of_mem (h : key x ∈ l.map key) : addNew key l x = l := if_pos h

theorem addNew_of_not_mem (h : key x ∉ l.map key) : addNew key l x = l ++ [x] := if_neg h

@[simp] theorem addAll_nil : addAll key l [] = l := rfl

theorem addAll_snoc : addAll key l (xs ++ [x]) = addNew key (addAll key l xs) x := by
  simp [addAll]

theorem keys_addNew : k ∈ (addNew key l x).map key ↔ k ∈ l.map key ∨ k = key x := by
  by_cases h : key x ∈ l.map key
  · rw [addNew_of_mem h]
    constructor
    · intro hk
      exact .inl hk
    · rintro (hk | rfl)
      · exact hk
      · exact h
  · rw [addNew_of_not_mem h, List.map_append, List.mem_append, List.map_singleton,
      List.mem_singleton]

/-- Every key that was there or is added is there in the end. -/
theorem keys_addAll : k ∈ (addAll key l xs).map key ↔ k ∈ l.map key ∨ k ∈ xs.map key := by
  induction xs using List.reverseRecOn with
  | nil => simp
  | append_singleton xs x ih =>
    rw [addAll_snoc, keys_addNew, ih, List.map_append, List.mem_append, List.map_singleton,
      List.mem_singleton, or_assoc]

/-- No key is added twice. -/
theorem nodup_addAll (h : (l.map key).Nodup) : ((addAll key l xs).map key).Nodup := by
  induction xs using List.reverseRecOn with
  | nil => exact h
  | append_singleton xs x ih =>
    rw [addAll_snoc]
    by_cases hx : key x ∈ (addAll key l xs).map key
    · rw [addNew_of_mem hx]
      exact ih
    · rw [addNew_of_not_mem hx, List.map_append, List.map_singleton]
      exact List.nodup_append.mpr ⟨ih, List.nodup_singleton _, fun a ha b hb hab =>
        hx (List.mem_singleton.mp hb ▸ hab ▸ ha)⟩

theorem mem_addNew {y : α} : x ∈ addNew key l y ↔ x ∈ l ∨ x = y ∧ key y ∉ l.map key := by
  by_cases h : key y ∈ l.map key
  · rw [addNew_of_mem h]
    constructor
    · exact .inl
    · rintro (hx | ⟨-, hy⟩)
      · exact hx
      · exact absurd h hy
  · rw [addNew_of_not_mem h, List.mem_append, List.mem_singleton]
    constructor
    · exact fun hx => hx.imp_right fun hxy => ⟨hxy, h⟩
    · exact fun hx => hx.imp_right And.left

theorem firstWith_eq_none : firstWith key l x = none ↔ key x ∉ l.map key := by
  simp [firstWith]

/-- The first element with its key stays the first one, and a last element is the first one if no
other has its key. -/
theorem firstWith_snoc {y : α} : firstWith key (l ++ [y]) x = some x ↔
    firstWith key l x = some x ∨ x = y ∧ key y ∉ l.map key := by
  have happ : firstWith key (l ++ [y]) x =
      (firstWith key l x).or ([y].find? fun z => key z = key x) := List.find?_append
  rw [happ]
  cases hf : firstWith key l x with
  | some z =>
    have hmem : key x ∈ l.map key := by
      by_contra h
      rw [firstWith_eq_none.mpr h] at hf
      cases hf
    rw [Option.some_or]
    constructor
    · exact .inl
    · rintro (h | ⟨rfl, h⟩)
      · exact h
      · exact absurd hmem h
  | none =>
    have hmem : key x ∉ l.map key := firstWith_eq_none.mp hf
    rw [Option.none_or, List.find?_singleton]
    by_cases hk : key y = key x
    · simp only [hk, decide_true, if_true, Option.some.injEq]
      constructor
      · rintro rfl
        exact .inr ⟨rfl, hmem⟩
      · rintro (h | ⟨rfl, -⟩)
        · cases h
        · rfl
    · have hxy : x ≠ y := fun h => hk (by rw [h])
      simp [hk, hxy]

/-- An element that was there before, or the first one with its key, is there in the end; no other
one is. -/
theorem mem_addAll : x ∈ addAll key l xs ↔ x ∈ l ∨ firstWith key (l ++ xs) x = some x := by
  induction xs using List.reverseRecOn with
  | nil =>
    rw [addAll_nil, List.append_nil]
    constructor
    · exact .inl
    · rintro (h | h)
      · exact h
      · exact List.mem_of_find?_eq_some h
  | append_singleton xs y ih =>
    have hkeys : key y ∈ (addAll key l xs).map key ↔ key y ∈ (l ++ xs).map key := by
      rw [keys_addAll, List.map_append, List.mem_append]
    rw [addAll_snoc, mem_addNew, ih, ← List.append_assoc, firstWith_snoc, hkeys, or_assoc]

/-- Nothing else is added. -/
theorem addAll_subset (h : x ∈ addAll key l xs) : x ∈ l ∨ x ∈ xs := by
  rcases mem_addAll.mp h with h | h
  · exact .inl h
  · exact List.mem_append.mp (List.mem_of_find?_eq_some h)

/-- What comes after an element with the key decides nothing. -/
theorem firstWith_append {ys : List α} (h : key x ∈ l.map key) :
    firstWith key (l ++ ys) x = firstWith key l x := by
  have happ : firstWith key (l ++ ys) x =
      (firstWith key l x).or (ys.find? fun z => key z = key x) := List.find?_append
  rw [happ]
  cases hf : firstWith key l x with
  | some z => rfl
  | none => exact absurd h (firstWith_eq_none.mp hf)

/-- Where the key determines the element, every element is the first one with its key. -/
theorem firstWith_eq_self (hx : x ∈ l) (h : ∀ y ∈ l, key y = key x → y = x) :
    firstWith key l x = some x := by
  unfold firstWith
  cases hf : l.find? fun y => key y = key x with
  | none => exact absurd (List.find?_eq_none.mp hf x hx) (by simp)
  | some y => rw [h y (List.mem_of_find?_eq_some hf) (by simpa using List.find?_some hf)]

/-- Of a list without duplicates, the one element that a predicate picks out. -/
theorem filter_eq_singleton {p : α → Bool} (hn : l.Nodup)
    (hx : x ∈ l) (hp : p x = true) (h : ∀ y ∈ l, p y = true → y = x) : l.filter p = [x] := by
  refine List.perm_singleton.mp ((List.perm_ext_iff_of_nodup (hn.filter p)
    (List.nodup_singleton x)).mpr fun y => ?_)
  rw [List.mem_filter, List.mem_singleton]
  constructor
  · rintro ⟨hy, hpy⟩
    exact h y hy hpy
  · rintro rfl
    exact ⟨hx, hp⟩

end DcPerf.Library
