import Mathlib.Algebra.GroupWithZero.Nat
import Mathlib.Data.List.AList
import Mathlib.Data.List.Induction

/-!
# Dictionaries

The dictionaries of a scripting language: a finite map with one entry for each key. They are
Mathlib's association lists; only the operations such a language writes as `d[k] = v`,
`d[k].field = v` and `{key(x): val(x) for x in l}` are added here. The order of the entries, which
Python keeps and `AList` does not, is never observed.
-/

namespace DcPerf.Library

variable {κ α β : Type} [DecidableEq κ]

/-- A dictionary from keys `κ` to values `α`. -/
abbrev Dict (κ α : Type) := AList fun _ : κ => α

namespace Dict

/-- `d[k] = v`. -/
abbrev set (d : Dict κ α) (k : κ) (v : α) : Dict κ α := AList.insert k v d

/-- Rewrite the value at `k`, if there is one. -/
def modify (d : Dict κ α) (k : κ) (f : α → α) : Dict κ α :=
  match d.lookup k with
  | some v => d.set k (f v)
  | none => d

/-- `{key(x): val(x) for x in l}`: of two elements with one key, the later one counts. -/
def ofList (key : β → κ) (val : β → α) (l : List β) : Dict κ α :=
  l.foldl (fun d x => d.set (key x) (val x)) ∅

/-- The values of the dictionary that satisfy `p`, counted. -/
def countValues (d : Dict κ α) (p : α → Bool) : ℕ := d.entries.countP fun e => p e.2

/-! ## Lookups -/

theorem lookup_set (d : Dict κ α) (k k' : κ) (v : α) :
    (d.set k v).lookup k' = if k' = k then some v else d.lookup k' := by
  by_cases h : k' = k
  · subst h; simp
  · simp [h]

theorem lookup_modify (d : Dict κ α) (k k' : κ) (f : α → α) :
    (d.modify k f).lookup k' = if k' = k then (d.lookup k').map f else d.lookup k' := by
  unfold modify
  cases hd : d.lookup k with
  | none =>
    by_cases h : k' = k
    · subst h; simp [hd]
    · simp [h]
  | some v =>
    simp only [lookup_set]
    by_cases h : k' = k
    · subst h; simp [hd]
    · simp [h]

theorem lookup_foldl_set (key : β → κ) (val : β → α) (l : List β) (d : Dict κ α) (k : κ) :
    (l.foldl (fun d x => d.set (key x) (val x)) d).lookup k =
      ((l.reverse.find? fun x => key x = k).map val).or (d.lookup k) := by
  induction l generalizing d with
  | nil => simp
  | cons x l ih =>
    rw [List.foldl_cons, ih, lookup_set, List.reverse_cons, List.find?_append]
    by_cases h : key x = k
    · cases l.reverse.find? fun x => key x = k <;> simp [h]
    · have h' : ¬ k = key x := fun e => h e.symm
      cases l.reverse.find? fun x => key x = k <;> simp [h, h']

/-- A comprehension looked up: the last element with the key. -/
theorem lookup_ofList (key : β → κ) (val : β → α) (l : List β) (k : κ) :
    (ofList key val l).lookup k = (l.reverse.find? fun x => key x = k).map val := by
  simp [ofList, lookup_foldl_set]

/-- Every entry of a comprehension comes from an element of the list. -/
theorem exists_of_lookup_ofList {key : β → κ} {val : β → α} {l : List β} {k : κ} {v : α}
    (h : (ofList key val l).lookup k = some v) : ∃ x ∈ l, key x = k ∧ val x = v := by
  rw [lookup_ofList, Option.map_eq_some_iff] at h
  obtain ⟨x, hx, hv⟩ := h
  exact ⟨x, by simpa using List.mem_of_find?_eq_some hx, by simpa using List.find?_some hx, hv⟩

/-- Every element of the list has its key in the comprehension. -/
theorem exists_lookup_ofList {key : β → κ} {val : β → α} {l : List β} {x : β} (hx : x ∈ l) :
    ∃ v, (ofList key val l).lookup (key x) = some v := by
  rw [lookup_ofList]
  cases h : l.reverse.find? fun y => key y = key x with
  | none =>
    exact absurd (List.find?_eq_none.mp h x (by simpa using hx)) (by simp)
  | some y => exact ⟨val y, by simp⟩

/-- With one element for each key, the entries are those of the list. -/
theorem entries_ofList {key : β → κ} {val : β → α} {l : List β} (hn : (l.map key).Nodup) :
    (ofList key val l).entries.Perm (l.map fun x => ⟨key x, val x⟩) := by
  induction l using List.reverseRecOn with
  | nil => exact List.Perm.refl _
  | append_singleton l x ih =>
    rw [List.map_append, List.map_singleton] at hn
    obtain ⟨hl, -, hdisjoint⟩ := List.nodup_append.mp hn
    have hsnoc : ofList key val (l ++ [x]) = (ofList key val l).set (key x) (val x) := by
      simp [ofList]
    have hx : key x ∉ ofList key val l := by
      rw [← AList.lookup_eq_none, lookup_ofList, Option.map_eq_none_iff, List.find?_eq_none]
      intro y hy hkey
      have hmem : key y ∈ l.map key := List.mem_map_of_mem (List.mem_reverse.mp hy)
      exact hdisjoint (key y) hmem (key x) (by simp) (of_decide_eq_true hkey)
    rw [hsnoc, AList.entries_insert_of_notMem hx, List.map_append, List.map_singleton]
    exact ((ih hl).cons _).trans (List.perm_append_singleton _ _).symm

theorem lookup_ofList_iff {key : β → κ} {val : β → α} {l : List β} (hn : (l.map key).Nodup) {k : κ}
    {v : α} : (ofList key val l).lookup k = some v ↔ ∃ x ∈ l, key x = k ∧ val x = v := by
  rw [← Option.mem_def, AList.mem_lookup_iff, (entries_ofList hn).mem_iff, List.mem_map]
  simp

/-! ## Counting -/

/-- The values of a dictionary with one element for each key, counted. -/
theorem countValues_ofList {key : β → κ} {val : β → α} {l : List β} (hn : (l.map key).Nodup)
    (p : α → Bool) : (ofList key val l).countValues p = l.countP fun x => p (val x) := by
  rw [countValues, (entries_ofList hn).countP_eq, List.countP_map]
  rfl

/-- Of two tests that count the same, one cannot be stronger than the other. -/
theorem of_countP_eq {p q : α → Bool} {l : List α} (h : ∀ x ∈ l, p x = true → q x = true)
    (heq : l.countP p = l.countP q) : ∀ x ∈ l, q x = true → p x = true := by
  induction l with
  | nil => simp
  | cons a l ih =>
    have hle : l.countP p ≤ l.countP q :=
      List.countP_mono_left fun x hx => h x (List.mem_cons_of_mem a hx)
    have ha := h a List.mem_cons_self
    rw [List.countP_cons, List.countP_cons] at heq
    intro x hx hq
    rcases List.mem_cons.mp hx with rfl | hx
    · by_contra hp
      rw [if_neg hp, if_pos hq] at heq
      omega
    · refine ih (fun y hy => h y (List.mem_cons_of_mem a hy)) ?_ x hx hq
      by_cases hp : p a = true
      · rw [if_pos hp, if_pos (ha hp)] at heq
        omega
      · rw [if_neg hp] at heq
        split at heq
        · omega
        · omega

theorem countP_le_sum (f : α → ℕ) (l : List α) : (l.countP fun x => 0 < f x) ≤ (l.map f).sum := by
  induction l with
  | nil => simp
  | cons a l ih =>
    rw [List.countP_cons, List.map_cons, List.sum_cons]
    split
    · rename_i ha
      have hpos : 0 < f a := of_decide_eq_true ha
      omega
    · omega

theorem sum_eq_countP {f : α → ℕ} {p : α → Bool} {l : List α}
    (h : ∀ x ∈ l, f x = if p x = true then 1 else 0) : (l.map f).sum = l.countP p := by
  induction l with
  | nil => rfl
  | cons a l ih =>
    have hrest := ih fun x hx => h x (List.mem_cons_of_mem a hx)
    rw [List.map_cons, List.sum_cons, List.countP_cons, hrest, h a List.mem_cons_self, Nat.add_comm]

/-- The values of a dictionary are counted by its keys. -/
theorem countValues_eq (d : Dict κ α) (p : α → Bool) {ks : List κ} (hn : ks.Nodup)
    (hk : ∀ k, (d.lookup k).isSome = true → k ∈ ks) :
    d.countValues p = ks.countP fun k => (d.lookup k).any p := by
  have hkeys : d.countValues p = d.keys.countP fun k => (d.lookup k).any p := by
    rw [countValues, AList.keys, List.keys, List.countP_map]
    refine List.countP_congr fun e he => ?_
    have hl : d.lookup e.1 = some e.2 := AList.mem_lookup_iff.mpr he
    simp [hl]
  rw [hkeys, List.countP_eq_length_filter, List.countP_eq_length_filter]
  refine List.Perm.length_eq ((List.perm_ext_iff_of_nodup (d.keys_nodup.filter _)
    (hn.filter _)).mpr fun k => ?_)
  rw [List.mem_filter, List.mem_filter]
  constructor
  · rintro ⟨hmem, hp⟩
    exact ⟨hk k (AList.lookup_isSome.mpr (AList.mem_keys.mpr hmem)), hp⟩
  · rintro ⟨-, hp⟩
    obtain ⟨v, hv, -⟩ := (Option.any_eq_true _ _).mp hp
    exact ⟨AList.mem_keys.mp (AList.lookup_isSome.mp (by simp [hv])), hp⟩

end Dict

end DcPerf.Library
