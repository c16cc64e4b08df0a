import DcPerf.PciDebug.Bounds

/-!
# The start of `pci_debug.c`

The debugger takes a slot as `lspci` prints it, maps the resource file of one of its regions, and finds
out from the configuration space where the region starts in the first page. What the system does is a
parameter.
-/

namespace DcPerf.PciDebug

open DcPerf.Library DcPerf.Library.Scanf

/-- A call that failed: `errno`, and what `strerror` says about it. -/
structure Failure where
  errno : ℤ
  text : List Char

/-- The calls that the debugger makes on files. -/
structure System where
  /-- `open` -/
  openFile : List Char → Except Failure Unit
  /-- `fstat`, of which `st_size` is used. -/
  fstat : List Char → Except Failure (BitVec 64)
  /-- `mmap` of the first bytes of a file. -/
  mmap : List Char → BitVec 32 → Option Memory
  /-- Whether `lseek` to a position succeeds. -/
  lseek : List Char → BitVec 32 → Bool
  /-- `read` of four bytes from a position; there may be fewer. -/
  read : List Char → BitVec 32 → Option (List Byte)
  /-- The lines of a file, if `fopen` succeeds. -/
  lines : List Char → Option (List (List Char))

/-- An option as `getopt` returns it. -/
inductive Opt where
  | b (optarg : List Char)
  | V
  | h
  | q
  | v (optarg : List Char)
  | s (optarg : List Char)
  | f (optarg : List Char)
  | unknown

/-- What the options set. -/
structure Options where
  bar : BitVec 32
  settings : Settings
  slot : Option (List Char)
  cmdFilePath : Option (List Char)

/-- `atoi` -/
def atoi (text : List Char) : BitVec 32 :=
  match takeNumber .dec none (text.dropWhile isSpace) with
  | some (n, _) => n
  | none => 0

def usageText : List Char :=
  ("\nUsage: pci_debug -s <device>\n" ++
    "  -h            Help (this message)\n" ++
    "  -V            display version\n" ++
    "  -s <device>   Slot/device (as per lspci)\n" ++
    "  -b <BAR>      Base address region (BAR) to access, eg. 0 for BAR0\n" ++
    "  -q            Quit after send a command file\n" ++
    "  -v <level>    Verbosity (0 to 3 - Default is 3)\n" ++
    "  -f <file> \t  Use commands file to play before display prompt\n\n").toList

/-- The loop over the options. An error is what has been printed. -/
def optionLoop (o : Options) : List Opt → Except (List Char) Options
  | [] => .ok o
  | .b optarg :: opts => optionLoop { o with bar := atoi optarg } opts
  | .V :: _ => .error "pci_debug v1.0\n".toList
  | .h :: _ => .error usageText
  | .q :: opts => optionLoop { o with settings := { o.settings with quit := true } } opts
  | .v optarg :: opts =>
    optionLoop { o with settings := { o.settings with verbosity := (atoi optarg).toInt } } opts
  | .s optarg :: opts => optionLoop { o with slot := some optarg } opts
  | .f optarg :: opts => optionLoop { o with cmdFilePath := some optarg } opts
  | .unknown :: _ => .error usageText

def defaults : Options := ⟨0, ⟨3, false⟩, none, none⟩

/-- The bus, the slot and the function. -/
def parseSlot (slot : List Char) : Option (BitVec 32 × BitVec 32 × BitVec 32) :=
  match sscanf slot [.number .hex (some 2), .lit ':', .number .hex (some 2), .lit '.',
    .number .hex (some 1)] with
  | ⟨3, [.int bus, .int dev, .int function]⟩ => some (bus, dev, function)
  | _ => none

/-- `/sys/bus/pci/devices/%04x:%02x:%02x.%1x/`; the domain is never set. -/
def deviceDir (bus dev function : BitVec 32) : List Char :=
  "/sys/bus/pci/devices/".toList ++ lowerHex 4 0 ++ ':' :: lowerHex 2 bus.toNat ++
    ':' :: lowerHex 2 dev.toNat ++ '.' :: lowerHex 1 function.toNat ++ ['/']

/-- At most 98 characters are kept. -/
def resourceName (bus dev function bar : BitVec 32) : List Char :=
  (deviceDir bus dev function ++ "resource".toList ++ (toString bar.toInt).toList).take 98

def configName (bus dev function : BitVec 32) : List Char :=
  (deviceDir bus dev function ++ "config".toList).take 98

def openError (name : List Char) (f : Failure) : List Char :=
  "Open failed for file '".toList ++ name ++ "': errno ".toList ++ (toString f.errno).toList ++
    ", ".toList ++ f.text ++ ['\n']

/-- `dev->offset` -/
def offsetOf (phys : BitVec 32) : BitVec 32 := (phys &&& 0xFFFFFFF0) % 0x1000

/-- A device that has been mapped, and the address that its region has. -/
structure Mapped where
  dev : Device
  phys : BitVec 32

/-- The address of the region, from the configuration space. It is not checked whether the file is open,
but then `lseek` fails. -/
def readPhys (host : ByteOrder) (sys : System) (bar bus slot function : BitVec 32) :
    Except (List Char) (BitVec 32) :=
  let configname := configName bus slot function
  let pos : BitVec 32 := 0x10 + 4 * bar
  let status : ℤ := match sys.openFile configname with
    | .error _ => -1
    | .ok _ => if sys.lseek configname pos then pos.toInt else -1
  if status < 0 then .error "Error: configuration space lseek failed\n".toList
  else
    match sys.read configname pos with
    | none => .error "Error: configuration space read failed\n".toList
    | some bs => .ok (host.word 4 (bs ++ List.replicate (4 - bs.length) 0))

/-- The region is mapped. -/
def mapRegion (host : ByteOrder) (sys : System) (bar bus slot function : BitVec 32) :
    Except (List Char) Mapped :=
  let filename := resourceName bus slot function bar
  match sys.openFile filename with
  | .error f => .error (openError filename f)
  | .ok _ =>
    match sys.fstat filename with
    | .error f => .error ("fstat() failed: errno ".toList ++ (toString f.errno).toList ++
        ", ".toList ++ f.text ++ ['\n'])
    | .ok size =>
      let size : BitVec 32 := size.setWidth 32
      match sys.mmap filename size with
      | none => .error "BARs that are I/O ports are not supported by this tool\n".toList
      | some maddr =>
        match readPhys host sys bar bus slot function with
        | .error text => .error text
        | .ok phys => .ok ⟨⟨bar, maddr, size, offsetOf phys⟩, phys⟩

/-- The lines that are printed first. -/
def greeting (verbosity : ℤ) (dev : Device) : List Char :=
  (if 3 ≤ verbosity then
    "\nPCI debug\n---------\n\n".toList ++
      " - accessing BAR".toList ++ (toString dev.bar.toInt).toList ++ ['\n'] ++
      " - region size is ".toList ++ (toString dev.size.toInt).toList ++ "-bytes\n".toList ++
      " - offset into region is ".toList ++ (toString dev.offset.toInt).toList ++ "-bytes\n".toList ++
      helpText
  else []) ++
    if verbosity = 1 then
      "\nAccessing BAR".toList ++ (toString dev.bar.toInt).toList ++ ['\n']
    else []

/-- The device and the settings that a session starts with. -/
def start (host : ByteOrder) (sys : System) (opts : List Opt) :
    Except (List Char) (Options × Mapped) := do
  let o ← optionLoop defaults opts
  let slot ← match o.slot with
    | none => throw usageText
    | some slot => pure slot
  let (bus, dev, function) ← match parseSlot slot with
    | none => throw ("Error parsing slot information!\n".toList ++ usageText)
    | some device => pure device
  return (o, ← mapRegion host sys o.bar bus dev function)

/-- The accesses start in little-endian mode. -/
def initial (verbosity : ℤ) (dev : Device) : State :=
  { dev := dev, bigEndian := false, accesses := [], out := greeting verbosity dev }

/-- A run of the debugger: what was printed if it did not get to the session, or else the session. -/
def main (host : ByteOrder) (sys : System) (opts : List Opt) (inputs : List (Option (List Char))) :
    Except (List Char) (State × Outcome) := do
  let (o, mapped) ← start host sys opts
  return parseCommand host o.settings (initial o.settings.verbosity mapped.dev)
    (o.cmdFilePath.map sys.lines) inputs

/-- The bytes that are mapped: whole pages. -/
def mappedBytes (size : ℕ) : ℕ := (size + 0xfff) / 0x1000 * 0x1000

end DcPerf.PciDebug
