import DcPerf.Library.Scopes
import DcPerf.Tracing.Maps

/-!
# Marks of functions in progress

`@in_f[tid] = 1` at the call of `f`, and `delete(@in_f[tid])` at its return: the map is what an observer
notes who follows `f` by the mark 1.
-/

namespace DcPerf.Tracing

open DcPerf.Library DcPerf.Library.Transit

variable {τ φ : Type} [DecidableEq τ] {p : φ → Prop} [DecidablePred p] {pre : List (Transit τ φ)} {tid : τ}

/-- The mark of the calls with `p`. -/
def mark (p : φ → Prop) [DecidablePred p] (f : φ) : Option (BitVec 64) := if p f then some 1 else none

theorem mark_eq_some {f : φ} {b : BitVec 64} (h : mark p f = some b) : p f ∧ b = 1 := by
  obtain ⟨hf, hb⟩ := Option.ite_none_right_eq_some.mp h
  exact ⟨hf, (Option.some.inj hb).symm⟩

theorem innermost_mark (calls : List φ) : innermost (mark p) calls ≠ none ↔ ∃ g ∈ calls, p g := by
  induction calls with
  | nil => simp
  | cons g below ih =>
    by_cases hg : p g
    · have hmark : mark p g = some 1 := if_pos hg
      simp [innermost_cons_some hmark, hg]
    · have hmark : mark p g = none := if_neg hg
      simp [innermost_cons_none hmark, ih, hg]

/-- An entry is the mark. -/
theorem noted_mark (h : Nested pre) (hne : noted (mark p) pre tid ≠ none) :
    noted (mark p) pre tid = some 1 := by
  obtain ⟨b, hb⟩ := Option.ne_none_iff_exists'.mp hne
  obtain ⟨g, -, hg⟩ := List.exists_of_findSome?_eq_some (innermost_of_noted h hb)
  rw [hb, (mark_eq_some hg).2]

/-- `/@in_f[tid]/` asks whether there is an entry. -/
theorem fetch_noted_mark (h : Nested pre) (tid : τ) :
    BpfMap.fetch (noted (mark p) pre) tid ≠ 0 ↔ noted (mark p) pre tid ≠ none := by
  show (noted (mark p) pre tid).getD 0 ≠ 0 ↔ _
  constructor
  · intro hfetch hnone
    rw [hnone] at hfetch
    exact hfetch rfl
  · intro hne
    rw [noted_mark h hne]
    decide

/-- Where the script has not lost sight of `f`, it finds `f` in progress. -/
theorem fetch_of_inSight (h : Nested pre) (hl : ¬Blind (mark p) pre tid) :
    BpfMap.fetch (noted (mark p) pre) tid ≠ 0 ↔ ∃ g ∈ inProgress pre tid, p g := by
  rw [fetch_noted_mark h, noted_of_not_blind h hl, innermost_mark]

/-- Where it has, it finds nothing. -/
theorem fetch_of_lostSight (h : Nested pre) (hl : Blind (mark p) pre tid) :
    ¬BpfMap.fetch (noted (mark p) pre) tid ≠ 0 := by
  rw [fetch_noted_mark h, noted_of_blind h hl]
  exact fun hne => hne rfl

end DcPerf.Tracing
