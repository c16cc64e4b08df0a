import DcPerf.Library.ShiftRegister
import Mathlib.Algebra.BigOperators.Group.Finset.Basic

/-!
# The frame check sequence of `intel_set_fcs.c`

`calculate_fcs` as the C code computes it, the frame that `main` sends, and the polynomials in which
IEEE 802.3 states what a frame check sequence is.
-/

namespace DcPerf.Ethernet

open DcPerf.Library Polynomial

/-- The inner loop's body. -/
def shiftCrc (crc : BitVec 32) : BitVec 32 :=
  if crc &&& 1#32 ≠ 0#32 then (crc >>> 1) ^^^ 0xEDB88320#32 else crc >>> 1

/-- The outer loop's body: `crc ^= data[i]` and eight turns of the inner loop. -/
def addByte (crc : BitVec 32) (byte : BitVec 8) : BitVec 32 :=
  (List.range 8).foldl (fun crc _ => shiftCrc crc) (crc ^^^ byte.setWidth 32)

def calculateFcs (data : List (BitVec 8)) : BitVec 32 :=
  ~~~ data.foldl addByte 0xFFFFFFFF#32

/-! ## What `main` sends -/

/-- The bytes that `memcpy` stores for a word on a little-endian host. -/
def wordBytes (word : BitVec 32) : List (BitVec 8) :=
  [word.extractLsb' 0 8, word.extractLsb' 8 8, word.extractLsb' 16 8, word.extractLsb' 24 8]

/-- A packet followed by its checksum. -/
def withFcs (packet : List (BitVec 8)) : List (BitVec 8) := packet ++ wordBytes (calculateFcs packet)

/-- The `struct ethhdr` of the packet: `h_dest`, `h_source` and `h_proto` in network order. -/
def ethHeader : List (BitVec 8) :=
  [0x66#8, 0x77#8, 0x88#8, 0x99#8, 0xAA#8, 0xBB#8,
   0x00#8, 0x11#8, 0x22#8, 0x33#8, 0x44#8, 0x55#8,
   0x08#8, 0x00#8]

/-- The header and a payload of a hundred `'A'`. -/
def packet : List (BitVec 8) := ethHeader ++ List.replicate 100 0x41#8

/-- The bytes given to `sendto`. -/
def sentFrame : List (BitVec 8) := withFcs packet

/-! ## The standard's polynomials -/

/-- What a receiver finds when it runs the checksum over a whole frame. -/
def residue : BitVec 32 := 0x2144DF1C#32

/-- The generator of IEEE 802.3. -/
noncomputable def ieeePoly : (ZMod 2)[X] :=
  X ^ 32 + X ^ 26 + X ^ 23 + X ^ 22 + X ^ 16 + X ^ 12 + X ^ 11 + X ^ 10 + X ^ 8 + X ^ 7 + X ^ 5 +
    X ^ 4 + X ^ 2 + X + 1

/-- Thirty-two ones, the initial value of the register. -/
noncomputable def onesPoly : (ZMod 2)[X] := ∑ i ∈ Finset.range 32, X ^ i

/-- The polynomial of a byte sequence, each byte read from its lowest bit. -/
noncomputable def messagePoly (data : List (BitVec 8)) : (ZMod 2)[X] := bitPoly (sentBits data)

end DcPerf.Ethernet
