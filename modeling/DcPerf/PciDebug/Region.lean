import DcPerf.Library.Accesses

/-!
# The mapped region of `pci_debug.c`

The device that is being debugged, and the functions that read and write its memory through the
mapping. The functions take a word in the byte order that their name says, on a host of either order.
-/

namespace DcPerf.PciDebug

open DcPerf.Library

/-- `device_t`, as far as the commands use it. `maddr` is the memory from the mapped address on. -/
structure Device where
  bar : BitVec 32
  maddr : Memory
  size : BitVec 32
  offset : BitVec 32

/-- The device, and how it is accessed. -/
structure Machine where
  dev : Device
  /-- `big_endian` -/
  bigEndian : Bool
  /-- The accesses made so far, at their distance from the mapped address. -/
  accesses : List Access

structure State extends Machine where
  /-- What has been printed so far. -/
  out : List Char

/-- The distance of `dev->addr + addr` from the mapped address. -/
def Device.posOf (dev : Device) (addr : BitVec 32) : ℕ := dev.offset.toNat + addr.toNat

/-- A device with a region of 256 bytes, before any access. -/
def sample : State :=
  { dev := ⟨0, fun _ => 0, 256, 0⟩, bigEndian := false, accesses := [], out := [] }

namespace State

def print (s : State) (text : List Char) : State := { s with out := s.out ++ text }

/-- A store to `dev->addr + addr`. -/
def store (s : State) (addr : BitVec 32) (bs : List Byte) : State :=
  { s with
    dev := { s.dev with maddr := s.dev.maddr.write (s.dev.posOf addr) bs }
    accesses := s.accesses ++ [.store (s.dev.posOf addr) bs] }

/-- A load of `n` bytes from `dev->addr + addr`. -/
def load (s : State) (addr : BitVec 32) (n : ℕ) : List Byte × State :=
  (s.dev.maddr.read (s.dev.posOf addr) n,
    { s with accesses := s.accesses ++ [.load (s.dev.posOf addr) n] })

end State

/-! ## Raw pointer access -/

variable (host : ByteOrder)

def write8 (s : State) (addr : BitVec 32) (data : BitVec 8) : State := s.store addr (host.bytes 1 data)

def read8 (s : State) (addr : BitVec 32) : BitVec 8 × State :=
  let (bs, s) := s.load addr 1
  (host.word 1 bs, s)

/-- The little-endian writes swap on a host that is not little-endian. -/
def writeLe (n : ℕ) (s : State) (addr : BitVec 32) (data : BitVec (8 * n)) : State :=
  let data := if host ≠ .little then bswap n data else data
  s.store addr (host.bytes n data)

def readLe (n : ℕ) (s : State) (addr : BitVec 32) : BitVec (8 * n) × State :=
  let (bs, s) := s.load addr n
  let data := host.word n bs
  (if host ≠ .little then bswap n data else data, s)

/-- The big-endian writes swap on a little-endian host. -/
def writeBe (n : ℕ) (s : State) (addr : BitVec 32) (data : BitVec (8 * n)) : State :=
  let data := if host = .little then bswap n data else data
  s.store addr (host.bytes n data)

def readBe (n : ℕ) (s : State) (addr : BitVec 32) : BitVec (8 * n) × State :=
  let (bs, s) := s.load addr n
  let data := host.word n bs
  (if host = .little then bswap n data else data, s)

def writeLe16 (s : State) (addr : BitVec 32) (data : BitVec 16) : State := writeLe host 2 s addr data

def readLe16 (s : State) (addr : BitVec 32) : BitVec 16 × State := readLe host 2 s addr

def writeBe16 (s : State) (addr : BitVec 32) (data : BitVec 16) : State := writeBe host 2 s addr data

def readBe16 (s : State) (addr : BitVec 32) : BitVec 16 × State := readBe host 2 s addr

def writeLe32 (s : State) (addr : BitVec 32) (data : BitVec 32) : State := writeLe host 4 s addr data

def readLe32 (s : State) (addr : BitVec 32) : BitVec 32 × State := readLe host 4 s addr

def writeBe32 (s : State) (addr : BitVec 32) (data : BitVec 32) : State := writeBe host 4 s addr data

def readBe32 (s : State) (addr : BitVec 32) : BitVec 32 × State := readBe host 4 s addr

end DcPerf.PciDebug
