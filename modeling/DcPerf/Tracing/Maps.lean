import Mathlib.Logic.Function.Basic

/-!
# The maps of a tracing script

The scripts keep what they have seen in maps from keys to 64-bit values. An entry that is not there
reads as 0.
-/

namespace DcPerf.Tracing

variable {κ : Type}

abbrev BpfMap (κ : Type) := κ → Option (BitVec 64)

namespace BpfMap

variable [DecidableEq κ]

/-- `@m[k]` -/
def fetch (m : BpfMap κ) (k : κ) : BitVec 64 := (m k).getD 0

/-- `@m[k] = v` -/
def set (m : BpfMap κ) (k : κ) (v : BitVec 64) : BpfMap κ := Function.update m k (some v)

/-- `delete(@m[k])` -/
def delete (m : BpfMap κ) (k : κ) : BpfMap κ := Function.update m k none

variable {m : BpfMap κ} {k k' : κ} {v : BitVec 64}

@[simp] theorem set_self : m.set k v k = some v := Function.update_self k _ m

theorem set_of_ne (h : k' ≠ k) : m.set k v k' = m k' := Function.update_of_ne h _ m

@[simp] theorem delete_self : m.delete k k = none := Function.update_self k _ m

theorem delete_of_ne (h : k' ≠ k) : m.delete k k' = m k' := Function.update_of_ne h _ m

end BpfMap

/-- What every line says of the moment it was printed in: `nsecs`, `comm` and `pid`. -/
structure Stamp where
  ns : BitVec 64
  comm : String
  pid : BitVec 32
  deriving DecidableEq

end DcPerf.Tracing
