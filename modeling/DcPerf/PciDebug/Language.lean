import DcPerf.PciDebug.Session

/-!
# The command language of the debugger

A command with its operands, apart from the line that it is written as and from the host that executes
it. What a command does to the device is a list of accesses, which do not depend on what the memory
holds; what it prints is a text. Addresses, values and lengths are machine words, as in the source.
-/

namespace DcPerf.PciDebug

open DcPerf.Library DcPerf.Library.Scanf

inductive Command where
  | nothing
  | help
  | display (width addr len : BitVec 32)
  | change (width addr val : BitVec 32)
  | fill (width addr val len inc : BitVec 32)
  | showEndian
  | setEndian (big : Bool)
  | quit
  | invalid
  deriving DecidableEq

/-- The bytes of an item. -/
def itemSize (width : BitVec 32) : Option ℕ :=
  if width = 8 then some 1 else if width = 16 then some 2 else if width = 32 then some 4 else none

/-- The length that is accessed instead of one that is found too long. -/
def Device.clip (dev : Device) (addr len : BitVec 32) : BitVec 32 :=
  if dev.size < addr + len then dev.size else len

/-! ## What a command does -/

namespace Machine

def order (m : Machine) : ByteOrder := if m.bigEndian then .big else .little

/-- The item at an address. -/
def item (m : Machine) (n : ℕ) (addr : BitVec 32) : BitVec (8 * n) :=
  m.order.word n (m.dev.maddr.read (m.dev.posOf addr) n)

/-- The store of an item. -/
def put (m : Machine) (n : ℕ) (addr : BitVec 32) (x : BitVec (8 * n)) : Access :=
  .store (m.dev.posOf addr) (m.order.bytes n x)

def perform (m : Machine) (as : List Access) : Machine :=
  { m with
    dev := { m.dev with maddr := as.foldl Access.apply m.dev.maddr }
    accesses := m.accesses ++ as }

end Machine

def State.perform (s : State) (as : List Access) : State :=
  { s with toMachine := s.toMachine.perform as }

/-- The items of a dump, by their distance from its first address. -/
def dumped (len : BitVec 32) (n : ℕ) : List ℕ := below (turns len) n

/-- The items of a fill, by their number. -/
def filled (len : BitVec 32) (n : ℕ) : List ℕ := List.range (turns len / n)

namespace Command

/-- The accesses that a command makes. -/
def accesses (m : Machine) : Command → List Access
  | display width addr len =>
    if m.dev.size < addr then []
    else
      match itemSize width with
      | none => []
      | some n => (dumped (m.dev.clip addr len) n).map fun i =>
          .load (m.dev.posOf (addr + BitVec.ofNat 32 i)) n
  | change width addr val =>
    if m.dev.size < addr then []
    else
      match itemSize width with
      | none => []
      | some n => [m.put n addr (val.setWidth (8 * n))]
  | fill width addr val len inc =>
    if m.dev.size < addr then []
    else
      match itemSize width with
      | none => []
      | some n => (filled (m.dev.clip addr len) n).map fun i =>
          m.put n (addr + BitVec.ofNat 32 (n * i)) ((val + BitVec.ofNat 32 i * inc).setWidth (8 * n))
  | _ => []

/-- The byte order after a command. -/
def endianAfter (big : Bool) : Command → Bool
  | setEndian big' => big'
  | _ => big

def run (c : Command) (m : Machine) : Machine :=
  { m.perform (c.accesses m) with bigEndian := c.endianAfter m.bigEndian }

def status : Command → ℤ
  | quit => -1
  | _ => 0

end Command

/-! ## What is printed -/

/-- What is printed for the item at a distance from the first address. -/
def itemText (m : Machine) (n : ℕ) (addr : BitVec 32) (i : ℕ) : List Char :=
  (if i % 16 = 0 then '\n' :: upperHex 8 (addr + BitVec.ofNat 32 i).toNat ++ [':', ' '] else []) ++
    (upperHex (2 * n) (m.item n (addr + BitVec.ofNat 32 i)).toNat ++ [' '])

def dumpText (m : Machine) (n : ℕ) (addr len : BitVec 32) : List Char :=
  (dumped len n).flatMap (itemText m n addr) ++ ['\n', '\n']

/-- What a command prints. -/
def Command.text (m : Machine) : Command → List Char
  | nothing => []
  | help => helpText
  | display width addr len =>
    if m.dev.size < addr then addressText m.dev
    else
      match itemSize width with
      | none => syntaxText ++ ['\n']
      | some n => dumpText m n addr (m.dev.clip addr len)
  | change width addr _ =>
    if m.dev.size < addr then addressText m.dev
    else if itemSize width = none then syntaxText else []
  | fill width addr _ _ _ =>
    if m.dev.size < addr then addressText m.dev
    else if itemSize width = none then syntaxText else []
  | showEndian => endianText m.bigEndian
  | setEndian _ => []
  | quit => []
  | invalid => syntaxText

/-- The state after a command, what it prints included. -/
def Command.exec (c : Command) (s : State) : State :=
  { toMachine := c.run s.toMachine, out := s.out ++ c.text s.toMachine }

/-! ## Lines -/

/-- The command of a line that starts with `e`. -/
def endianCommand (line : List Char) : Command :=
  let scanned := sscanf line [.skipChar, .char]
  if scanned.status < 0 then .showEndian
  else
    match scanned with
    | ⟨1, [.char 'b']⟩ => .setEndian true
    | ⟨1, [.char 'l']⟩ => .setEndian false
    | _ => .invalid

def displayCommand (line : List Char) : Command :=
  match twoOperands line with
  | none => .invalid
  | some (width, addr, len) => .display width addr len

def changeCommand (line : List Char) : Command :=
  match twoOperands line with
  | none => .invalid
  | some (width, addr, val) => .change width addr val

def fillCommand (line : List Char) : Command :=
  match fillOperands line with
  | none => .invalid
  | some (width, addr, val, len, inc) => .fill width addr val len inc

/-- The command that a line is. -/
def parse (line : List Char) : Command :=
  match line with
  | [] => .nothing
  | '?' :: _ => .help
  | 'c' :: _ => changeCommand line
  | 'C' :: _ => changeCommand line
  | 'd' :: _ => displayCommand line
  | 'D' :: _ => displayCommand line
  | 'e' :: _ => endianCommand line
  | 'E' :: _ => endianCommand line
  | 'f' :: _ => fillCommand line
  | 'F' :: _ => fillCommand line
  | 'q' :: _ => .quit
  | 'Q' :: _ => .quit
  | _ => .nothing

/-! ## Sessions -/

/-- The lines of a command file that are executed: all that are not empty, after a first one that
names the device's region. -/
def fileLines (bar : BitVec 32) (lines : List (List Char)) : List (List Char) :=
  match lines.filter fun line => 1 < line.length with
  | [] => []
  | first :: rest => if bar = barOf first then rest else []

/-- The lines that are executed at the prompt: all that are not empty, up to the first that asks to
leave. -/
def promptLines (inputs : List (Option (List Char))) : List (List Char) :=
  ((inputs.filterMap id).filter fun line => line.length ≠ 0).takeWhile fun line => parse line ≠ .quit

/-- Commands executed one after the other. -/
def runAll (cs : List Command) (m : Machine) : Machine := cs.foldl (fun m c => c.run m) m

/-- The commands of a session. -/
def sessionCommands (settings : Settings) (bar : BitVec 32)
    (cmdFilePath : Option (Option (List (List Char)))) (inputs : List (Option (List Char))) :
    List Command :=
  match cmdFilePath with
  | some none => []
  | some (some lines) =>
    (fileLines bar lines ++ if settings.quit then [] else promptLines inputs).map parse
  | none => (if settings.quit then [] else promptLines inputs).map parse

/-! ## What a session prints

Between the commands a session prints texts of its own. The prompt is printed by `readline`, with the
line as it is typed, and is not part of the output here.
-/

/-- A step of a session: a command, or a text that the session prints. -/
inductive Step where
  | command (c : Command)
  | prints (text : List Char)

def Step.exec : Step → State → State
  | command c, s => c.exec s
  | prints text, s => s.print text

/-- The command of a step. -/
def Step.toCommand : Step → Option Command
  | command c => some c
  | prints _ => none

/-- Steps executed one after the other. -/
def runSteps (steps : List Step) (s : State) : State := steps.foldl (fun s step => step.exec s) s

/-- A line of a command file as it is shown, with its line end and its length. -/
def sendText (line : List Char) : List Char :=
  "Send: ".toList ++ line ++ " (".toList ++ (toString line.length).toList ++ ")".toList

def failureText (line : List Char) : List Char := "Warning: Command failure - ".toList ++ line

def barText (expected found : BitVec 32) : List Char :=
  "Warning: BAR is no compliant with the command file (Expected: ".toList ++
    (toString expected.toInt).toList ++ " - Found: ".toList ++ (toString found.toInt).toList ++
    ")\n".toList

/-- A line of a command file is shown, executed, and warned of if it asks to leave. -/
def lineSteps (verbosity : ℤ) (line : List Char) : List Step :=
  (if 2 ≤ verbosity then [.prints (sendText line)] else []) ++
    .command (parse line) :: if parse line = .quit then [.prints (failureText line)] else []

/-- The steps of a command file, as `fileLines` takes its lines. -/
def fileSteps (verbosity : ℤ) (bar : BitVec 32) (lines : List (List Char)) : List Step :=
  match lines.filter fun line => 1 < line.length with
  | [] => []
  | first :: rest =>
    if bar = barOf first then rest.flatMap (lineSteps verbosity) else [.prints (barText bar (barOf first))]

def cmdFileSteps (verbosity : ℤ) (bar : BitVec 32) (file : Option (List (List Char))) : List Step :=
  (if 3 ≤ verbosity then [.prints "Exectue a commands file\n".toList] else []) ++
    match file with
    | none => [.prints "Can not open the commands file\n".toList]
    | some lines => fileSteps verbosity bar lines

/-- The end of the input ends the line of the prompt; an empty line does nothing. -/
def inputSteps : Option (List Char) → List Step
  | none => [.prints ['\n']]
  | some line => if line.length = 0 then [] else [.command (parse line)]

/-- The steps at the prompt, up to the first line that asks to leave. -/
def promptSteps (inputs : List (Option (List Char))) : List Step :=
  (inputs.takeWhile fun input => input.map parse ≠ some .quit).flatMap inputSteps

/-- The steps of a session. -/
def sessionSteps (settings : Settings) (bar : BitVec 32)
    (cmdFilePath : Option (Option (List (List Char)))) (inputs : List (Option (List Char))) :
    List Step :=
  match cmdFilePath with
  | some none => cmdFileSteps settings.verbosity bar none
  | some (some lines) =>
    cmdFileSteps settings.verbosity bar (some lines) ++
      if settings.quit then [] else promptSteps inputs
  | none => if settings.quit then [] else promptSteps inputs

end DcPerf.PciDebug
