import Mathlib.Data.Seq.Basic

/-!
# Filling a list from sequences

A list of limited length is filled with the elements of one sequence after another, each of which may
be endless. What it holds in the end is the beginning of their concatenation.
-/

namespace DcPerf.Library

open Stream' (Seq)

variable {α β : Type}

/-! ## Elements by their number -/

/-- The elements that `f` gives from the `k`-th on, up to the first that is missing. -/
def elements (f : ℕ → Option α) (k : ℕ) : Seq α := Seq.corec (fun k => (f k).map (·, k + 1)) k

theorem elements_none {f : ℕ → Option α} {k : ℕ} (h : f k = none) : elements f k = Seq.nil :=
  Seq.corec_nil _ _ (by simp [h])

theorem elements_some {f : ℕ → Option α} {k : ℕ} {a : α} (h : f k = some a) :
    elements f k = Seq.cons a (elements f (k + 1)) :=
  Seq.corec_cons (by simp [h])

/-! ## Taking from a concatenation -/

theorem take_append (n : ℕ) (s t : Seq α) :
    (s.append t).take n = s.take n ++ t.take (n - (s.take n).length) := by
  induction n generalizing s with
  | zero => simp
  | succ n ih =>
    cases s with
    | nil => simp
    | cons a s =>
      rw [Seq.cons_append, Seq.take_succ_cons, Seq.take_succ_cons, ih, List.cons_append,
        List.length_cons, Nat.add_sub_add_right]

/-- One sequence after another. -/
def concat (ss : List (Seq α)) : Seq α := ss.foldr Seq.append Seq.nil

@[simp] theorem concat_nil : concat ([] : List (Seq α)) = Seq.nil := rfl

@[simp] theorem concat_cons (s : Seq α) (ss : List (Seq α)) :
    concat (s :: ss) = s.append (concat ss) := rfl

/-! ## Filling -/

/-- The list with as many elements of the sequence as there is room for. -/
def fill (size : ℕ) (l : List α) (s : Seq α) : List α := l ++ s.take (size - l.length)

@[simp] theorem fill_nil (size : ℕ) (l : List α) : fill size l Seq.nil = l := by
  simp [fill]

theorem fill_empty (size : ℕ) (s : Seq α) : fill size [] s = s.take size := by
  simp [fill]

theorem fill_cons {size : ℕ} {l : List α} (h : l.length < size) (a : α) (s : Seq α) :
    fill size l (Seq.cons a s) = fill size (l ++ [a]) s := by
  have hroom : size - l.length = (size - (l ++ [a]).length) + 1 := by
    rw [List.length_append, List.length_singleton]
    omega
  unfold fill
  rw [hroom, Seq.take_succ_cons, List.append_assoc, List.singleton_append]

theorem length_fill_cons_pos {size : ℕ} (h : 0 < size) (a : α) (s : Seq α) :
    0 < (fill size [] (Seq.cons a s)).length := by
  rw [fill_cons (by simpa using h), fill, List.length_append, List.nil_append, List.length_singleton]
  omega

/-- Nothing is added when there is no room left. -/
theorem fill_full {size : ℕ} {l : List α} (h : size ≤ l.length) (s : Seq α) :
    fill size l s = l := by
  simp [fill, Nat.sub_eq_zero_of_le h]

theorem fill_fill (size : ℕ) (l : List α) (s t : Seq α) :
    fill size (fill size l s) t = fill size l (s.append t) := by
  unfold fill
  rw [take_append, List.append_assoc, List.length_append, Nat.sub_add_eq]

/-- Filling with one sequence after the other is filling with their concatenation. -/
theorem foldl_fill (size : ℕ) (f : β → Seq α) (l : List α) (xs : List β) :
    xs.foldl (fun l x => fill size l (f x)) l = fill size l (concat (xs.map f)) := by
  induction xs generalizing l with
  | nil => simp
  | cons x xs ih => rw [List.foldl_cons, ih, fill_fill, List.map_cons, concat_cons]

end DcPerf.Library
