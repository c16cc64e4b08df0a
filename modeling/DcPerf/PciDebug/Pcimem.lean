import DcPerf.Library.Elision
import DcPerf.PciDebug.Main

/-!
# `pcimem.c`

The tool maps the pages of a resource file that an offset lies in, reads items from there on and prints
them, and then writes to the last of them if there is a value to write. Products of two `int`s are not
cut.
-/

namespace DcPerf.PciDebug.Pcimem

open DcPerf.Library DcPerf.Library.Scanf

/-- The calls that the tool makes. -/
structure System where
  /-- `open`: a file descriptor -/
  openFile : List Char → Except Failure ℤ
  /-- `mmap` of a file from a position on: the address, and the memory there. -/
  mmap : List Char → BitVec 64 → ℤ → Except Failure (BitVec 64 × Memory)
  munmap : Except Failure Unit
  /-- `sysconf(_SC_PAGE_SIZE)` -/
  pageSize : BitVec 64

/-- A system on which all calls succeed. -/
def sampleSystem : System :=
  { openFile := fun _ => .ok 3
    mmap := fun _ _ _ => .ok (0x7000, fun _ => 0)
    munmap := .ok ()
    pageSize := 4096 }

/-- The width of an access type. -/
def typeWidth (accessType : Char) : Option ℕ :=
  if accessType = 'b' then some 1
  else if accessType = 'h' then some 2
  else if accessType = 'w' then some 4
  else if accessType = 'd' then some 8
  else none

/-- What the arguments ask for. -/
structure Request where
  filename : List Char
  /-- `target`, an `off_t` -/
  target : BitVec 64
  accessType : Char
  /-- `items_count`, an `int` -/
  itemsCount : BitVec 32
  data : Option (List Char)

/-- `access_type` and `items_count`. The end of a string reads as the character 0. -/
def parseType (arg : List Char) : Char × BitVec 32 :=
  ((arg.headD '\x00').toLower,
    if arg[1]? = some '*' then (strtoul0 (arg.drop 2)).setWidth 32 else 1)

/-- The arguments after the name of the program. -/
def parseArgs : List (List Char) → Option Request
  | filename :: offset :: rest =>
    let (accessType, itemsCount) :=
      match rest with
      | [] => ('w', 1#32)
      | arg :: _ => parseType arg
    some ⟨filename, strtoul0 offset, accessType, itemsCount, rest[1]?⟩
  | _ => none

/-- How a run ends. -/
structure Run where
  exit : ℤ
  out : List Char
  err : List Char
  /-- The memory from the mapped address on, and the accesses to it. -/
  maddr : Memory
  accesses : List Access

/-! ## The mapping -/

/-- `target_base` -/
def targetBase (sys : System) (target : BitVec 64) : BitVec 64 := target &&& ~~~(sys.pageSize - 1)

/-- `target + items_count*type_width - target_base` -/
def span (sys : System) (r : Request) (width : ℕ) : ℤ :=
  (r.target + BitVec.ofInt 64 (r.itemsCount.toInt * width) - targetBase sys r.target).toInt

/-- `map_size`, an `int` -/
def mapSize (sys : System) (r : Request) (width : ℕ) : ℤ :=
  if 4096 < span sys r width then (BitVec.ofInt 32 (span sys r width)).toInt else 4096

/-- The distance of `virt_addr` from `map_base`. -/
def posOf (sys : System) (r : Request) (width i : ℕ) : ℕ :=
  (r.target + BitVec.ofNat 64 (i * width) - targetBase sys r.target).toNat

/-! ## Reading -/

/-- `prev_read_result`, `read_result_dupped` and what has been printed. -/
structure Dump where
  prevReadResult : BitVec 64
  readResultDupped : Bool
  out : List Char

/-- The line of an item. -/
def itemLine (target : BitVec 64) (width i : ℕ) (readResult : BitVec 64) : List Char :=
  ['0', 'x'] ++ paddedHex 4 ((target + BitVec.ofNat 64 (i * width)).setWidth 32).toNat ++
    [':', ' ', '0', 'x'] ++ paddedHex (2 * width) readResult.toNat ++ ['\n']

/-- The value of an item. -/
def readItem (host : ByteOrder) (sys : System) (r : Request) (width : ℕ) (mem : Memory) (i : ℕ) :
    BitVec 64 :=
  (host.word width (mem.read (posOf sys r width i) width)).setWidth 64

/-- A turn of the loop. -/
def dumpItem (host : ByteOrder) (sys : System) (r : Request) (width : ℕ) (mem : Memory) (s : Dump)
    (i : ℕ) : Dump :=
  let readResult := readItem host sys r width mem i
  let s :=
    if readResult ≠ s.prevReadResult ∨ i = 0 then
      { s with out := s.out ++ itemLine r.target width i readResult, readResultDupped := false }
    else
      { s with
        out := if s.readResultDupped then s.out else s.out ++ "...\n".toList
        readResultDupped := true }
  { s with prevReadResult := readResult }

def itemsRead (r : Request) : ℕ := r.itemsCount.toInt.toNat

def dumpLoop (host : ByteOrder) (sys : System) (r : Request) (width : ℕ) (mem : Memory) : List Char :=
  ((List.range (itemsRead r)).foldl (dumpItem host sys r width mem) ⟨0, false, []⟩).out

/-! ## Writing -/

/-- The write to the last item and what it prints. -/
def writeLast (host : ByteOrder) (sys : System) (r : Request) (width : ℕ) (mem : Memory)
    (data : List Char) : Memory × List Char × List Access :=
  let pos := posOf sys r width (itemsRead r - 1)
  let writeval := strtoul0 data
  let bytes := host.bytes width (writeval.setWidth (8 * width))
  let mem := mem.write pos bytes
  let readResult := host.word width (mem.read pos width)
  (mem, "Written 0x".toList ++ paddedHex width writeval.toNat ++ "; readback 0x".toList ++
    blankHex width readResult.toNat ++ ['\n'], [.store pos bytes, .load pos width])

/-! ## The program -/

def usageText (argv0 : List Char) : List Char :=
  "\nUsage:\t".toList ++ argv0 ++
    (" \x7b sysfile \x7d \x7b offset \x7d [ type*count [ data ] ]\n" ++
      "\tsys file: sysfs file for the pci resource to act on\n" ++
      "\toffset  : offset into pci memory region to act upon\n" ++
      "\ttype    : access operation type : [b]yte, [h]alfword, [w]ord, [d]ouble-word\n" ++
      "\t*count  : number of items to read:  w*100 will dump 100 words\n" ++
      "\tdata    : data to be written\n\n").toList

/-- `PRINT_ERROR` -/
def printError (line : ℕ) (f : Failure) : List Char :=
  "Error at line ".toList ++ (toString line).toList ++ ", file pcimem.c (".toList ++
    (toString f.errno).toList ++ ") [".toList ++ f.text ++ "]\n".toList

/-- What is printed before the items: after the file has been opened, and after it has been mapped. -/
def openedText (sys : System) (r : Request) (width : ℕ) (fd : ℤ) : List Char :=
  r.filename ++ " opened.\nTarget offset is 0x".toList ++ lowerHex 1 (r.target.setWidth 32).toNat ++
    ", page size is ".toList ++ (toString sys.pageSize.toInt).toList ++ "\nmmap(0, ".toList ++
    (toString (mapSize sys r width)).toList ++ ", 0x3, 0x1, ".toList ++ (toString fd).toList ++
    ", 0x".toList ++ lowerHex 1 (r.target.setWidth 32).toNat ++ ")\n".toList

def mappedText (address : BitVec 64) : List Char :=
  "PCI Memory mapped to address 0x".toList ++ lowerHex 8 address.toNat ++ ".\n".toList

/-- A run with the arguments that it is given. There is none if a value is to be written and no item was
read: then the address that is written to is not defined. -/
def main (host : ByteOrder) (sys : System) (argv0 : List Char) (args : List (List Char)) : Option Run :=
  match parseArgs args with
  | none => some ⟨1, [], usageText argv0, fun _ => 0, []⟩
  | some r =>
    match typeWidth r.accessType with
    | none =>
      some ⟨2, [], "Illegal data type '".toList ++ r.accessType :: "'.\n".toList, fun _ => 0, []⟩
    | some width =>
      match sys.openFile r.filename with
      | .error f => some ⟨1, [], printError 82 f, fun _ => 0, []⟩
      | .ok fd =>
        let out := openedText sys r width fd
        match sys.mmap r.filename (targetBase sys r.target) (mapSize sys r width) with
        | .error f => some ⟨1, out, printError 95 f, fun _ => 0, []⟩
        | .ok (address, mem) =>
          let out := out ++ mappedText address ++ dumpLoop host sys r width mem
          let loads := (List.range (itemsRead r)).map fun i => Access.load (posOf sys r width i) width
          let finish (mem : Memory) (out : List Char) (accesses : List Access) : Run :=
            match sys.munmap with
            | .error f => ⟨1, out, printError 161 f, mem, accesses⟩
            | .ok _ => ⟨0, out, [], mem, accesses⟩
          match r.data with
          | none => some (finish mem out loads)
          | some data =>
            if itemsRead r = 0 then none
            else
              let (mem, text, accesses) := writeLast host sys r width mem data
              some (finish mem (out ++ text) (loads ++ accesses))

end DcPerf.PciDebug.Pcimem
