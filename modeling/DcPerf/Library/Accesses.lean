import DcPerf.Library.Bytes

/-!
# Accesses to a mapped memory

What a program does to a memory that it has mapped, as a list of loads and stores. Positions are
distances from the mapped address.
-/

namespace DcPerf.Library

inductive Access where
  | load (pos width : ℕ)
  | store (pos : ℕ) (bytes : List Byte)
  deriving DecidableEq

namespace Access

variable {a : ℕ}

def pos : Access → ℕ
  | load pos _ => pos
  | store pos _ => pos

def width : Access → ℕ
  | load _ width => width
  | store _ bytes => bytes.length

/-- The memory after an access. -/
def apply (mem : Memory) : Access → Memory
  | load _ _ => mem
  | store pos bytes => mem.write pos bytes

theorem apply_of_not (mem : Memory) (x : Access) (h : ¬(x.pos ≤ a ∧ a < x.pos + x.width)) :
    x.apply mem a = mem a := by
  cases x with
  | load pos width => rfl
  | store pos bs => exact Memory.write_of_not h

/-- A byte that no access reaches stays. -/
theorem foldl_apply_of_not (as : List Access) (mem : Memory)
    (h : ∀ x ∈ as, ¬(x.pos ≤ a ∧ a < x.pos + x.width)) : as.foldl apply mem a = mem a := by
  induction as generalizing mem with
  | nil => rfl
  | cons x as ih =>
    rw [List.foldl_cons, ih _ fun y hy => h y (List.mem_cons_of_mem _ hy)]
    exact apply_of_not mem x (h x List.mem_cons_self)

/-- Loads leave the memory as it is. -/
theorem foldl_loads (mem : Memory) (ps : List (ℕ × ℕ)) :
    (ps.map fun p => load p.1 p.2).foldl apply mem = mem := by
  induction ps with
  | nil => rfl
  | cons p ps ih => exact ih

end Access

end DcPerf.Library
