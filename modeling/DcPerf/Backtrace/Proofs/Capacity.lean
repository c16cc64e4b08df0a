import DcPerf.Backtrace.Proofs.Lines
import Mathlib.Data.List.Nodup

/-!
# The backtrace has room for its lines

Between two addresses the lines recorded so far fill the buffer up to `size`, and what is left of it
is the capacity of the next search. Destroying the backtrace frees each string once.
-/

namespace DcPerf.Backtrace

open DcPerf.Library

/-- The call leaves the buffer as large as it is. -/
structure LineCall.Fits (c : LineCall) : Prop where
  nonneg : 0 ≤ c.base
  le : c.base ≤ backtraceMax
  capacity : c.capacity = backtraceMax - c.base
  turns : (c.turns : ℤ) ≤ c.capacity
  count : c.count = c.turns

/-- The state between two addresses: `rs` has been recorded. -/
structure Created (rs : List Record) (strip : ℤ) (s : Creation) : Prop where
  filled : Filled s.bckt.buf rs
  size : s.bckt.size = rs.length
  position : s.bckt.position = strip
  calls : ∀ c ∈ s.calls, c.Fits

variable {rs new : List Record} {strip : ℤ} {s : Creation} {frame : Frame} {loading : Loading}
  {buf : Buffer}

theorem created_start (strip : ℤ) : Created [] strip (createStart strip) :=
  ⟨filled_empty, rfl, rfl, by simp [createStart]⟩

/-- A call that has found the lines `new` fits. -/
theorem fits_of_searching {search : Search} (hle : rs.length ≤ backtraceMax)
    (h : Searching rs search new) (hbase : search.base = rs.length) :
    (LineCall.mk rs.length (backtraceMax - rs.length) (search.asked.countP (· = .inliner))
      search.count).Fits := by
  have hroom := h.room
  have hcount := h.count
  have hbound := h.le
  refine ⟨by simp, ?_, rfl, ?_, ?_⟩
  · dsimp only
    omega
  · dsimp only
    rw [h.turns]
    omega
  · dsimp only
    rw [h.turns, hcount]

/-- An address whose module is loaded adds the lines that its search has found. -/
theorem created_searched (h : Created rs strip s) (n : ℕ)
    (hsearch : Searching rs (s.search frame loading) new) :
    Created (rs ++ new) strip (s.searched n frame loading) := by
  have hbase : (s.search frame loading).base = rs.length := hsearch.base
  refine ⟨hsearch.filled, ?_, h.position, ?_⟩
  · show s.bckt.size + (s.search frame loading).count = _
    rw [h.size, hsearch.count, List.length_append]
    omega
  · intro c hc
    rcases List.mem_append.mp hc with hc | hc
    · exact h.calls c hc
    · rw [List.mem_singleton.mp hc, h.size]
      exact fits_of_searching h.filled.le hsearch hbase

/-- An address without lines changes nothing but the loading. -/
theorem created_skipped (h : Created rs strip s) (loading : Loading) :
    Created rs strip { s with loading := loading } :=
  ⟨h.filled, h.size, h.position, h.calls⟩

theorem Created.search (h : Created rs strip s) (frame : Frame) (loading : Loading) :
    ∃ new, Searching rs (s.search frame loading) new := by
  unfold Creation.search
  rw [h.size]
  exact searching_getLineInfo h.filled frame.bfd loading.file frame.garbage loading.log

/-- Every address adds lines, as far as there is room. -/
theorem created_step (h : Created rs strip s) (exe : String) (n : ℕ) (frame : Frame) :
    ∃ new, Created (rs ++ new) strip (createStep exe s n frame) := by
  obtain ⟨dl, -, heq⟩ | ⟨dl, loading, -, -, heq⟩ | ⟨dl, loading, -, -, heq⟩ :=
    createStep_cases exe s n frame
  · rw [heq]
    exact ⟨[], by simpa using created_skipped h _⟩
  · rw [heq]
    exact ⟨[], by simpa using created_skipped h _⟩
  · obtain ⟨new, hnew⟩ := h.search frame loading
    rw [heq]
    exact ⟨new, created_searched h n hnew⟩

theorem created_loop (h : Created rs strip s) (exe : String) (n : ℕ) (frames : List Frame) :
    ∃ new, Created (rs ++ new) strip (createLoop exe s n frames) := by
  induction frames generalizing rs s n with
  | nil => exact ⟨[], by rwa [List.append_nil]⟩
  | cons frame frames ih =>
    obtain ⟨new, hstep⟩ := created_step h exe n frame
    obtain ⟨more, hloop⟩ := ih hstep (n + 1)
    rw [List.append_assoc] at hloop
    exact ⟨_, hloop⟩

theorem created_create (exe : String) (frames : List Frame) (strip : ℤ) :
    ∃ rs, Created rs strip (debugBacktraceCreate exe frames strip) :=
  created_loop (created_start strip) exe 0 frames

/-! ## What is written and initialised -/

/-- A filled buffer is initialised up to its length. -/
theorem Filled.isSome_at (h : Filled buf rs) {i : ℤ} (hi : 0 ≤ i) (hlt : i < backtraceMax) :
    (buf.at i).isSome ↔ i < rs.length := by
  obtain ⟨k, rfl⟩ := Int.eq_ofNat_of_zero_le hi
  unfold Buffer.at
  rw [if_pos hi, Int.toNat_natCast]
  by_cases hk : k < rs.length
  · obtain ⟨ln, hln⟩ := h.filled k hk
    simp [hln.entry, hk]
  · rw [h.unset k (by omega) (by omega)]
    simp [hk]

theorem Filled.writes_lt (h : Filled buf rs) : ∀ i ∈ buf.writes, 0 ≤ i ∧ i < backtraceMax := by
  intro i hi
  have hle := h.le
  rw [h.writes] at hi
  obtain ⟨k, hk, rfl⟩ := List.mem_map.mp hi
  rw [List.mem_range] at hk
  exact ⟨Int.natCast_nonneg k, by simp only [Int.ofNat_eq_natCast]; omega⟩

theorem Filled.writes_nodup (h : Filled buf rs) : buf.writes.Nodup := by
  rw [h.writes]
  have hinj : Function.Injective Int.ofNat := fun _ _ hab => Int.ofNat.inj hab
  exact List.nodup_range.map hinj

/-! ## What is freed -/

/-- The strings of `n` lines, function before file. -/
theorem perm_range_flatMap (n : ℕ) :
    ((List.range n).flatMap fun i => [2 * i + 1, 2 * i]).Perm (List.range (2 * n)) := by
  induction n with
  | zero => rfl
  | succ n ih =>
    have hrange : List.range (2 * (n + 1)) = List.range (2 * n) ++ [2 * n, 2 * n + 1] := by
      rw [Nat.mul_succ, List.range_succ, List.range_succ, List.append_assoc]
      rfl
    rw [List.range_succ, List.flatMap_append, hrange, List.flatMap_singleton]
    exact ih.append (List.Perm.swap _ _ _)

/-- Destroying a backtrace frees every string that was allocated, and each once. -/
theorem debugBacktraceDestroy_perm {bckt : Bckt} (h : Filled bckt.buf rs)
    (hsize : bckt.size = rs.length) :
    (debugBacktraceDestroy bckt).Perm (List.range bckt.buf.strings) := by
  have heq : debugBacktraceDestroy bckt =
      (List.range rs.length).flatMap fun i => [2 * i + 1, 2 * i] := by
    unfold debugBacktraceDestroy
    rw [hsize, Int.toNat_natCast]
    apply List.flatMap_congr
    intro i hi
    obtain ⟨ln, hln⟩ := h.filled i (List.mem_range.mp hi)
    simp [Buffer.at, hln.entry, hln.file, hln.function]
  rw [heq, h.strings]
  exact perm_range_flatMap rs.length

/-- The buffer is never overrun. After every number of addresses the size is within the array; every
call of `get_line_info` gets what is left of it and ends within that; each index is written once, the
entries below the size are the initialised ones, and destroying the backtrace frees each of their
strings once. -/
theorem debugBacktraceCreate_fits (exe : String) (frames : List Frame) (strip : ℤ) :
    (∀ pre : List Frame, 0 ≤ (debugBacktraceCreate exe pre strip).bckt.size ∧
      (debugBacktraceCreate exe pre strip).bckt.size ≤ backtraceMax) ∧
    let s := debugBacktraceCreate exe frames strip
    (∀ c ∈ s.calls, c.Fits) ∧
      (∀ i ∈ s.bckt.buf.writes, 0 ≤ i ∧ i < backtraceMax) ∧ s.bckt.buf.writes.Nodup ∧
      (∀ i : ℤ, 0 ≤ i → i < backtraceMax → ((s.bckt.buf.at i).isSome ↔ i < s.bckt.size)) ∧
      (debugBacktraceDestroy s.bckt).Perm (List.range s.bckt.buf.strings) := by
  constructor
  · intro pre
    obtain ⟨rs, hrs⟩ := created_create exe pre strip
    have hle := hrs.filled.le
    rw [hrs.size]
    exact ⟨Int.natCast_nonneg _, by omega⟩
  · obtain ⟨rs, hrs⟩ := created_create exe frames strip
    refine ⟨hrs.calls, hrs.filled.writes_lt, hrs.filled.writes_nodup, ?_, ?_⟩
    · intro i hi hlt
      rw [hrs.size]
      exact hrs.filled.isSome_at hi hlt
    · exact debugBacktraceDestroy_perm hrs.filled hrs.size

end DcPerf.Backtrace
