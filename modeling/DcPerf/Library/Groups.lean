import Mathlib.Data.List.Nodup

/-!
# Groups of equal size

Elements are dealt out in their order into groups of `g`: the `m`-th goes to place `m % g` of group
`m / g`.
-/

namespace DcPerf.Library

variable {α : Type} {g k m n : ℕ}

/-- Going through full groups, and through each from its start, is going through the elements. -/
theorem flatMap_range_groups (f : ℕ → ℕ → α) (g k : ℕ) :
    (List.range k).flatMap (fun i => (List.range g).map (f i)) =
      (List.range (k * g)).map fun m => f (m / g) (m % g) := by
  induction k with
  | zero => simp
  | succ k ih =>
    have hgroup : (List.range g).map (f k) =
        ((List.range g).map (k * g + ·)).map fun m => f (m / g) (m % g) := by
      rw [List.map_map]
      refine List.map_congr_left fun j hj => ?_
      have hlt : j < g := List.mem_range.mp hj
      have hdiv : (k * g + j) / g = k := by
        rw [Nat.mul_comm, Nat.mul_add_div (by omega), Nat.div_eq_of_lt hlt, Nat.add_zero]
      have hmod : (k * g + j) % g = j := by
        rw [Nat.mul_comm, Nat.mul_add_mod, Nat.mod_eq_of_lt hlt]
      simp [hdiv, hmod]
    rw [List.range_succ, List.flatMap_append, ih, List.flatMap_singleton, hgroup, ← List.map_append,
      Nat.succ_mul, List.range_add]

/-- Elements at one place of one group are the same one. -/
theorem eq_of_div_mod (hdiv : m / g = n / g) (hmod : m % g = n % g) : m = n := by
  rw [← Nat.div_add_mod m g, ← Nat.div_add_mod n g, hdiv, hmod]

/-- A later element is in a later group, or at a later place of the same one. -/
theorem div_mod_lt (h : m < n) : m / g < n / g ∨ m / g = n / g ∧ m % g < n % g := by
  have hle : m / g ≤ n / g := Nat.div_le_div_right (Nat.le_of_lt h)
  rcases Nat.lt_or_eq_of_le hle with hlt | heq
  · exact .inl hlt
  · right
    have hm := Nat.div_add_mod m g
    have hn := Nat.div_add_mod n g
    rw [heq] at hm
    exact ⟨heq, by omega⟩

/-- Full groups use up the elements if there is no rest. -/
theorem le_div_mul_iff : n ≤ n / g * g ↔ g ∣ n := by
  constructor
  · intro h
    refine ⟨n / g, ?_⟩
    rw [Nat.mul_comm]
    exact Nat.le_antisymm h (Nat.div_mul_le_self n g)
  · intro h
    exact Nat.le_of_eq (Nat.div_mul_cancel h).symm

/-! ## The beginning of a list -/

/-- The elements of a list that its beginning does not have. -/
theorem filter_count_take [DecidableEq α] {l : List α} (hl : l.Nodup) (k : ℕ) :
    l.filter (fun x => (l.take k).count x = 0) = l.drop k := by
  have hdisjoint := List.disjoint_take_drop hl (Nat.le_refl k)
  have htake : ∀ x ∈ l.take k, ¬decide ((l.take k).count x = 0) = true := by
    intro x hx
    have hpos := List.count_pos_iff.mpr hx
    simp
    omega
  have hdrop : ∀ x ∈ l.drop k, decide ((l.take k).count x = 0) = true := by
    intro x hx
    exact decide_eq_true (List.count_eq_zero_of_not_mem fun hmem => hdisjoint hmem hx)
  have hsplit : l.filter (fun x => (l.take k).count x = 0) =
      (l.take k ++ l.drop k).filter (fun x => (l.take k).count x = 0) := by
    rw [List.take_append_drop]
  rw [hsplit, List.filter_append, List.filter_eq_nil_iff.mpr htake, List.filter_eq_self.mpr hdrop,
    List.nil_append]

/-- Only all of a list has each of its elements. -/
theorem count_take_eq_one_iff [DecidableEq α] {l : List α} (hl : l.Nodup) {k : ℕ} :
    (∀ x ∈ l, (l.take k).count x = 1) ↔ l.length ≤ k := by
  constructor
  · intro h
    have hdrop : l.drop k = [] := by
      rw [← filter_count_take hl k, List.filter_eq_nil_iff]
      intro x hx
      simp [h x hx]
    exact List.drop_eq_nil_iff.mp hdrop
  · intro h x hx
    rw [List.take_of_length_le h]
    exact List.count_eq_one_of_mem hl hx

end DcPerf.Library
