import Mathlib.Data.List.Basic
import Mathlib.Data.Nat.Notation

/-!
# Repeated values left out

A listing shows a value with its index if it differs from the one before. For the first value that is
repeated there is a mark, and for the others there is nothing. The values can be found again if their
number is known.
-/

namespace DcPerf.Library.Elision

variable {α : Type} [DecidableEq α] {i j : ℕ} {p x : α} {xs : List α}

inductive Entry (α : Type) where
  | shown (i : ℕ) (x : α)
  | mark
  deriving DecidableEq

/-- The listing of values from an index on. `prev` is the value before, if there is one, and `marked`
tells whether it has been marked as repeated. -/
def listing (i : ℕ) (prev : Option α) (marked : Bool) : List α → List (Entry α)
  | [] => []
  | x :: xs =>
    if prev = some x then
      (if marked then [] else [.mark]) ++ listing (i + 1) prev true xs
    else .shown i x :: listing (i + 1) (some x) false xs

/-- The values that are shown, with their indices. -/
def shown (es : List (Entry α)) : List (ℕ × α) :=
  es.filterMap fun
    | .shown i x => some (i, x)
    | .mark => none

/-- The values up to an index, from those that are shown: each one stays until the next. -/
def expand (last : ℕ) : List (ℕ × α) → List α
  | [] => []
  | [(i, x)] => List.replicate (last - i) x
  | (i, x) :: (j, y) :: es => List.replicate (j - i) x ++ expand last ((j, y) :: es)

omit [DecidableEq α] in
@[simp] theorem shown_append (es fs : List (Entry α)) : shown (es ++ fs) = shown es ++ shown fs :=
  List.filterMap_append

theorem listing_same (i : ℕ) (marked : Bool) (xs : List α) :
    shown (listing i (some p) marked (p :: xs)) = shown (listing (i + 1) (some p) true xs) := by
  rw [listing, if_pos rfl, shown_append]
  cases marked with
  | false => rfl
  | true => rfl

theorem listing_other {prev : Option α} (h : prev ≠ some x) (i : ℕ) (marked : Bool) (xs : List α) :
    shown (listing i prev marked (x :: xs)) = (i, x) :: shown (listing (i + 1) (some x) false xs) := by
  rw [listing, if_neg h]
  rfl

/-- The values after one that is shown and has stayed since. -/
theorem expand_listing_some (marked : Bool) (h : j ≤ i) (xs : List α) :
    expand (i + xs.length) ((j, p) :: shown (listing i (some p) marked xs)) =
      List.replicate (i - j) p ++ xs := by
  induction xs generalizing i j p marked with
  | nil =>
    rw [List.append_nil]
    rfl
  | cons x xs ih =>
    have hlast : i + (x :: xs).length = i + 1 + xs.length := by
      rw [List.length_cons]
      omega
    rw [hlast]
    by_cases hx : p = x
    · subst hx
      have hcount : i + 1 - j = i - j + 1 := by omega
      rw [listing_same, ih true (by omega), hcount, List.replicate_succ', List.append_assoc]
      rfl
    · have hrest := ih (p := x) (j := i) false (Nat.le_succ i)
      have hone : i + 1 - i = 1 := by omega
      rw [hone] at hrest
      rw [listing_other (by simpa using hx), expand, hrest]
      rfl

/-- A listing is complete: its reader finds all values. -/
theorem expand_listing (i : ℕ) (xs : List α) :
    expand (i + xs.length) (shown (listing i none false xs)) = xs := by
  cases xs with
  | nil => rfl
  | cons x xs =>
    have hlast : i + (x :: xs).length = i + 1 + xs.length := by
      rw [List.length_cons]
      omega
    have hone : i + 1 - i = 1 := by omega
    rw [listing_other (by simp), hlast, expand_listing_some false (Nat.le_succ i), hone]
    rfl

/-- The indices that are shown are those of values. -/
theorem shown_lt {prev : Option α} {marked : Bool} (h : (j, x) ∈ shown (listing i prev marked xs)) :
    i ≤ j ∧ j < i + xs.length := by
  induction xs generalizing i prev marked with
  | nil => cases h
  | cons y xs ih =>
    rw [List.length_cons]
    by_cases hy : prev = some y
    · subst hy
      rw [listing_same] at h
      have hj := ih h
      omega
    · rw [listing_other hy] at h
      rcases List.mem_cons.mp h with heq | hmem
      · obtain rfl : j = i := congrArg Prod.fst heq
        omega
      · have hj := ih hmem
        omega

end DcPerf.Library.Elision
