import DcPerf.PciDebug.Language

/-!
# What a command touches

A command touches a block of items, one after the other. It is careful if the block lies within the
region that is being debugged.
-/

namespace DcPerf.PciDebug

open DcPerf.Library

/-- The access lies within the region of the device. -/
def InRegion (dev : Device) (a : Access) : Prop :=
  dev.offset.toNat ≤ a.pos ∧ a.pos + a.width ≤ dev.offset.toNat + dev.size.toNat

/-- Items that follow one another. -/
structure Block where
  addr : BitVec 32
  size : ℕ
  count : ℕ
  deriving DecidableEq

/-- The block that a command touches. -/
def Command.block (dev : Device) : Command → Option Block
  | nothing => none
  | help => none
  | display width addr len =>
    if dev.size < addr then none
    else (itemSize width).map fun n => ⟨addr, n, (dumped (dev.clip addr len) n).length⟩
  | change width addr _ => if dev.size < addr then none else (itemSize width).map fun n => ⟨addr, n, 1⟩
  | fill width addr _ len _ =>
    if dev.size < addr then none
    else (itemSize width).map fun n => ⟨addr, n, (filled (dev.clip addr len) n).length⟩
  | showEndian => none
  | setEndian _ => none
  | quit => none
  | invalid => none

def Command.writes : Command → Bool
  | change _ _ _ => true
  | fill _ _ _ _ _ => true
  | _ => false

/-- The word whose low bytes a command writes to an item. -/
def Command.value : Command → ℕ → BitVec 32
  | change _ _ val, _ => val
  | fill _ _ val _ inc, i => val + BitVec.ofNat 32 i * inc
  | _, _ => 0

namespace Block

variable (dev : Device) (b : Block)

/-- The distance of an item from the mapped address; addresses wrap. -/
def pos (i : ℕ) : ℕ := dev.posOf (b.addr + BitVec.ofNat 32 (b.size * i))

/-- The first byte, as a distance from the mapped address. -/
def first : ℕ := dev.posOf b.addr

/-- The bytes in all. -/
def extent : ℕ := b.size * b.count

def Fits : Prop := b.count = 0 ∨ b.addr.toNat + b.extent ≤ dev.size.toNat

instance : Decidable (b.Fits dev) := inferInstanceAs (Decidable (_ ∨ _))

/-- The byte belongs to an item of the block. -/
def Covers (a : ℕ) : Prop := ∃ i < b.count, b.pos dev i ≤ a ∧ a < b.pos dev i + b.size

/-- Two blocks have no byte in common. -/
def Apart (b' : Block) : Prop := ∀ a, b.Covers dev a → ¬b'.Covers dev a

end Block

/-- What a command touches lies within the region. -/
def Command.Careful (dev : Device) (c : Command) : Prop := ∀ b ∈ c.block dev, b.Fits dev

/-- The block that a command writes to. -/
def Command.target (dev : Device) (c : Command) : Option Block :=
  if c.writes then c.block dev else none

end DcPerf.PciDebug
