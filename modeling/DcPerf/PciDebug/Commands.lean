import DcPerf.Library.Printf
import DcPerf.Library.Scanf
import DcPerf.PciDebug.Region

/-!
# The commands of `pci_debug.c`

Each command takes its operands from the line with `sscanf` and accesses the region in a loop. The
status that is returned is negative when the debugger is to be left.
-/

namespace DcPerf.PciDebug

open DcPerf.Library DcPerf.Library.Scanf

variable (host : ByteOrder)

def helpText : List Char :=
  ("\n" ++
    "  ?                         Help\n" ++
    "  d[width] addr len         Display memory starting from addr\n" ++
    "                            [width]\n" ++
    "                              8   - 8-bit access\n" ++
    "                              16  - 16-bit access\n" ++
    "                              32  - 32-bit access (default)\n" ++
    "  c[width] addr val         Change memory at addr to val\n" ++
    "  e                         Print the endian access mode\n" ++
    "  e[mode]                   Change the endian access mode\n" ++
    "                            [mode]\n" ++
    "                              b - big-endian (default)\n" ++
    "                              l - little-endian\n" ++
    "  f[width] addr val len inc  Fill memory\n" ++
    "                              addr - start address\n" ++
    "                              val  - start value\n" ++
    "                              len  - length (in bytes)\n" ++
    "                              inc  - increment (defaults to 1)\n" ++
    "  q                          Quit\n" ++
    "\n  Notes:\n" ++
    "    1. addr, len, and val are interpreted as hex values\n" ++
    "       addresses are always byte based\n" ++
    "\n").toList

def displayHelp (s : State) : State := s.print helpText

def syntaxText : List Char := "Syntax error (use ? for help)\n".toList

def syntaxError (s : State) : State := s.print syntaxText

def addressText (dev : Device) : List Char :=
  "Error: invalid address (maximum allowed is ".toList ++ upperHex 8 dev.size.toNat ++ ['\n']

def addressError (s : State) : State := s.print (addressText s.dev)

def endianText (bigEndian : Bool) : List Char :=
  if bigEndian = false then "Endian mode: little-endian\n".toList
  else "Endian mode: big-endian\n".toList

/-- The number of turns of a loop up to an `int`, in steps of one. -/
def turns (len : BitVec 32) : ℕ := len.toInt.toNat

/-- Directives for `n` hexadecimal operands. -/
def hexOperands (n : ℕ) : List Directive :=
  (List.replicate n [Directive.space, .number .hex none]).flatten

/-- The width, and the two operands that `display_mem` and `change_mem` take. -/
def twoOperands (cmd : List Char) : Option (BitVec 32 × BitVec 32 × BitVec 32) :=
  if cmd[1]? = some ' ' then
    match sscanf cmd (.skipChar :: hexOperands 2) with
    | ⟨2, [.int addr, .int x]⟩ => some (32#32, addr, x)
    | _ => none
  else
    match sscanf cmd (.skipChar :: .number .dec none :: hexOperands 2) with
    | ⟨3, [.int width, .int addr, .int x]⟩ => some (width, addr, x)
    | _ => none

/-- The width, and the operands of `fill_mem`; the increment is 1 if it is not given. -/
def fillOperands (cmd : List Char) :
    Option (BitVec 32 × BitVec 32 × BitVec 32 × BitVec 32 × BitVec 32) :=
  if cmd[1]? = some ' ' then
    match sscanf cmd (.skipChar :: hexOperands 4) with
    | ⟨3, [.int addr, .int d32, .int len]⟩ => some (32#32, addr, d32, len, 1#32)
    | ⟨4, [.int addr, .int d32, .int len, .int inc]⟩ => some (32#32, addr, d32, len, inc)
    | _ => none
  else
    match sscanf cmd (.skipChar :: .number .dec none :: hexOperands 4) with
    | ⟨4, [.int width, .int addr, .int d32, .int len]⟩ => some (width, addr, d32, len, 1#32)
    | ⟨5, [.int width, .int addr, .int d32, .int len, .int inc]⟩ => some (width, addr, d32, len, inc)
    | _ => none

/-- The values of the counter in a loop `for (i = 0; i < len; i += step)`. -/
def below (len step : ℕ) : List ℕ := (List.range ((len + step - 1) / step)).map (· * step)

@[simp] theorem length_below (len step : ℕ) : (below len step).length = (len + step - 1) / step := by
  simp [below]

/-- The loops of `display_mem`, sixteen bytes a line. -/
def displayLoop (s : State) (addr len : BitVec 32) (step : ℕ)
    (item : State → BitVec 32 → List Char × State) : State :=
  (below (turns len) step).foldl (fun s i =>
    let at_ := addr + BitVec.ofNat 32 i
    let s := if i % 16 = 0 then s.print ('\n' :: upperHex 8 at_.toNat ++ [':', ' ']) else s
    let (text, s) := item s at_
    s.print (text ++ [' '])) s

def displayMem (s : State) (cmd : List Char) : State × ℤ :=
  match twoOperands cmd with
  | none => (syntaxError s, 0)
  | some (width, addr, len) =>
    if s.dev.size < addr then (addressError s, 0)
    else
      let len := if s.dev.size < addr + len then s.dev.size else len
      let s :=
        if width = 8 then
          (displayLoop s addr len 1 fun s at_ =>
            let (d8, s) := read8 host s at_
            (upperHex 2 d8.toNat, s)).print ['\n']
        else if width = 16 then
          (displayLoop s addr len 2 fun s at_ =>
            let (d16, s) := if s.bigEndian = false then readLe16 host s at_ else readBe16 host s at_
            (upperHex 4 d16.toNat, s)).print ['\n']
        else if width = 32 then
          (displayLoop s addr len 4 fun s at_ =>
            let (d32, s) := if s.bigEndian = false then readLe32 host s at_ else readBe32 host s at_
            (upperHex 8 d32.toNat, s)).print ['\n']
        else
          syntaxError s
      (s.print ['\n'], 0)

/-- The switch of `change_mem`. -/
def changeItem (s : State) (width addr d32 : BitVec 32) : State :=
  if width = 8 then
    write8 host s addr (d32.setWidth 8)
  else if width = 16 then
    let d16 := d32.setWidth 16
    if s.bigEndian = false then writeLe16 host s addr d16 else writeBe16 host s addr d16
  else if width = 32 then
    if s.bigEndian = false then writeLe32 host s addr d32 else writeBe32 host s addr d32
  else
    syntaxError s

def changeMem (s : State) (cmd : List Char) : State × ℤ :=
  match twoOperands cmd with
  | none => (syntaxError s, 0)
  | some (width, addr, d32) =>
    if s.dev.size < addr then (addressError s, 0) else (changeItem host s width addr d32, 0)

def fillMem (s : State) (cmd : List Char) : State × ℤ :=
  match fillOperands cmd with
  | none => (syntaxError s, 0)
  | some (width, addr, d32, len, inc) =>
    if s.dev.size < addr then (addressError s, 0)
    else
      let len := if s.dev.size < addr + len then s.dev.size else len
      if width = 8 then
        ((List.range (turns len)).foldl (fun s i =>
          let i := BitVec.ofNat 32 i
          let d8 := (d32 + i * inc).setWidth 8
          write8 host s (addr + i) d8) s, 0)
      else if width = 16 then
        ((List.range (turns len / 2)).foldl (fun s i =>
          let i := BitVec.ofNat 32 i
          let d16 := (d32 + i * inc).setWidth 16
          if s.bigEndian = false then writeLe16 host s (addr + 2 * i) d16
          else writeBe16 host s (addr + 2 * i) d16) s, 0)
      else if width = 32 then
        ((List.range (turns len / 4)).foldl (fun s i =>
          let i := BitVec.ofNat 32 i
          if s.bigEndian = false then writeLe32 host s (addr + 4 * i) (d32 + i * inc)
          else writeBe32 host s (addr + 4 * i) (d32 + i * inc)) s, 0)
      else
        (syntaxError s, 0)

def changeEndian (s : State) (cmd : List Char) : State × ℤ :=
  let scanned := sscanf cmd [.skipChar, .char]
  if scanned.status < 0 then
    (s.print (endianText s.bigEndian), 0)
  else
    match scanned with
    | ⟨1, [.char 'b']⟩ => ({ s with bigEndian := true }, 0)
    | ⟨1, [.char 'l']⟩ => ({ s with bigEndian := false }, 0)
    | _ => (syntaxError s, 0)

/-- A line is empty if its first character is the end of the string. -/
def processCommand (s : State) (cmd : List Char) : State × ℤ :=
  match cmd with
  | [] => (s, 0)
  | '?' :: _ => (displayHelp s, 0)
  | 'c' :: _ => changeMem host s cmd
  | 'C' :: _ => changeMem host s cmd
  | 'd' :: _ => displayMem host s cmd
  | 'D' :: _ => displayMem host s cmd
  | 'e' :: _ => changeEndian s cmd
  | 'E' :: _ => changeEndian s cmd
  | 'f' :: _ => fillMem host s cmd
  | 'F' :: _ => fillMem host s cmd
  | 'q' :: _ => (s, -1)
  | 'Q' :: _ => (s, -1)
  | _ => (s, 0)

end DcPerf.PciDebug
