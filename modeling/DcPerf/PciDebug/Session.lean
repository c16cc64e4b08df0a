import DcPerf.PciDebug.Commands

/-!
# A session with `pci_debug.c`

A session plays the command file, if there is one, and then takes lines from the prompt until a command
asks to leave.
-/

namespace DcPerf.PciDebug

open DcPerf.Library DcPerf.Library.Scanf

variable (host : ByteOrder)

/-- `verbosity` and `quit` -/
structure Settings where
  verbosity : ℤ
  quit : Bool

/-- The variable `bar`, which is -1 unless the line sets it. -/
def barOf (line : List Char) : BitVec 32 :=
  match (sscanf line [.lit 'b', .lit 'a', .lit 'r', .number .dec none]).args with
  | [.int bar] => bar
  | _ => -1

/-- The loop of `useCmdFile`. A line has its line end, so an empty one has one character. -/
def cmdFileLoop (verbosity : ℤ) (s : State) (firstLine : Bool) : List (List Char) → State
  | [] => s
  | line :: lines =>
    if 1 < line.length then
      if firstLine then
        if s.dev.bar ≠ barOf line then
          s.print ("Warning: BAR is no compliant with the command file (Expected: ".toList ++
            (toString s.dev.bar.toInt).toList ++ " - Found: ".toList ++
            (toString (barOf line).toInt).toList ++ ")\n".toList)
        else
          cmdFileLoop verbosity s false lines
      else
        let s := if 2 ≤ verbosity then
            s.print ("Send: ".toList ++ line ++ " (".toList ++ (toString line.length).toList ++ ")".toList)
          else s
        let (s, status) := processCommand host s line
        let s := if status < 0 then s.print ("Warning: Command failure - ".toList ++ line) else s
        cmdFileLoop verbosity s false lines
    else
      cmdFileLoop verbosity s firstLine lines

/-- How a session stands after the lines that it was given. -/
inductive Outcome where
  | prompts
  | returned
  | exited
  deriving DecidableEq

/-- The loop of `parse_command`. No line at all is the end of the input, `Ctrl-D`. -/
def promptLoop (s : State) : List (Option (List Char)) → State × Outcome
  | [] => (s, .prompts)
  | none :: inputs => promptLoop (s.print ['\n']) inputs
  | some line :: inputs =>
    if line.length = 0 then promptLoop s inputs
    else
      let (s, status) := processCommand host s line
      if status < 0 then (s, .returned) else promptLoop s inputs

/-- `file` has the lines of the command file if it can be opened. -/
def useCmdFile (verbosity : ℤ) (s : State) (file : Option (List (List Char))) : State × Outcome :=
  let s := if 3 ≤ verbosity then s.print "Exectue a commands file\n".toList else s
  match file with
  | none => (s.print "Can not open the commands file\n".toList, .exited)
  | some lines => (cmdFileLoop host verbosity s true lines, .returned)

/-- `cmdFilePath` stands for the file that it names. -/
def parseCommand (settings : Settings) (s : State) (cmdFilePath : Option (Option (List (List Char))))
    (inputs : List (Option (List Char))) : State × Outcome :=
  let (s, outcome) :=
    match cmdFilePath with
    | none => (s, Outcome.returned)
    | some file => useCmdFile host settings.verbosity s file
  if outcome = .exited then (s, .exited)
  else if settings.quit then (s, .returned)
  else promptLoop host s inputs

end DcPerf.PciDebug
