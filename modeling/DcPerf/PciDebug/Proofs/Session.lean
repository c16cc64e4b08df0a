import DcPerf.PciDebug.Proofs.Refinement

/-!
# Sessions execute the commands of their lines

Of the command file, the lines after the one that names the region are executed if it names the right
one, whatever they are; of the prompt, the lines up to the first that asks to leave. Nothing else is
done to the device, and the byte order of the host does not show.
-/

namespace DcPerf.PciDebug

open DcPerf.Library DcPerf.Library.Scanf

variable {host : ByteOrder} {verbosity : ℤ} {s : State} {m : Machine} {c : Command}
  {line : List Char} {lines : List (List Char)} {inputs : List (Option (List Char))}

theorem runAll_cons (c : Command) (cs : List Command) (m : Machine) :
    runAll (c :: cs) m = runAll cs (c.run m) := rfl

@[simp] theorem run_size (c : Command) (m : Machine) : (c.run m).dev.size = m.dev.size := rfl

@[simp] theorem run_offset (c : Command) (m : Machine) : (c.run m).dev.offset = m.dev.offset := rfl

theorem status_neg_iff : c.status < 0 ↔ c = .quit := by
  cases c <;> simp [Command.status]

/-- Asking to leave has no other effect. -/
theorem exec_quit (s : State) : Command.quit.exec s = s := by
  have hrun : Command.quit.run s.toMachine = s.toMachine := by
    simp [Command.run, Command.accesses, Command.endianAfter]
  rw [Command.exec, hrun, Command.text, List.append_nil]

/-! ## Steps -/

theorem runSteps_append (steps steps' : List Step) (s : State) :
    runSteps (steps ++ steps') s = runSteps steps' (runSteps steps s) := List.foldl_append

/-- A text of the session does nothing to the device. -/
theorem runSteps_machine (steps : List Step) (s : State) :
    (runSteps steps s).toMachine = runAll (steps.filterMap Step.toCommand) s.toMachine := by
  induction steps generalizing s with
  | nil => rfl
  | cons step steps ih =>
    cases step with
    | command c => exact ih (c.exec s)
    | prints text => exact ih (s.print text)

/-! ## The command file -/

theorem runSteps_line (verbosity : ℤ) (line : List Char) (s : State) :
    runSteps (lineSteps verbosity line) s =
      let t := (parse line).exec (if 2 ≤ verbosity then s.print (sendText line) else s)
      if parse line = .quit then t.print (failureText line) else t := by
  unfold lineSteps
  split <;> split <;> rfl

/-- After its first line, a command file is executed line by line; a line that asks to leave does not
end it. -/
theorem cmdFileLoop_rest (lines : List (List Char)) (s : State) :
    cmdFileLoop host verbosity s false lines =
      runSteps ((lines.filter fun line => 1 < line.length).flatMap (lineSteps verbosity)) s := by
  induction lines generalizing s with
  | nil => rfl
  | cons line lines ih =>
    unfold cmdFileLoop
    by_cases hlen : 1 < line.length
    · rw [if_pos hlen, List.filter_cons_of_pos (by simpa using hlen), List.flatMap_cons, runSteps_append,
        runSteps_line]
      simp only [processCommand_eq, status_neg_iff, Bool.false_eq_true, if_false]
      exact ih _
    · rw [if_neg hlen, List.filter_cons_of_neg (by simpa using hlen)]
      exact ih s

theorem cmdFileLoop_eq (lines : List (List Char)) (s : State) :
    cmdFileLoop host verbosity s true lines = runSteps (fileSteps verbosity s.dev.bar lines) s := by
  induction lines with
  | nil => rfl
  | cons line lines ih =>
    unfold cmdFileLoop fileSteps
    by_cases hlen : 1 < line.length
    · rw [if_pos hlen, if_pos rfl, List.filter_cons_of_pos (by simpa using hlen)]
      show (if s.dev.bar ≠ barOf line then _ else _) =
        runSteps (if s.dev.bar = barOf line then _ else _) s
      by_cases hbar : s.dev.bar = barOf line
      · rw [if_neg (by simpa using hbar), if_pos hbar]
        exact cmdFileLoop_rest lines s
      · rw [if_pos hbar, if_neg hbar]
        rfl
    · rw [if_neg hlen, List.filter_cons_of_neg (by simpa using hlen)]
      exact ih

/-- A command file that cannot be opened ends the debugger. -/
theorem useCmdFile_eq (host : ByteOrder) (verbosity : ℤ) (s : State)
    (file : Option (List (List Char))) :
    useCmdFile host verbosity s file = (runSteps (cmdFileSteps verbosity s.dev.bar file) s,
      if file = none then .exited else .returned) := by
  unfold useCmdFile cmdFileSteps
  cases file with
  | none => split <;> rfl
  | some lines =>
    simp only [cmdFileLoop_eq, reduceCtorEq, if_false]
    split <;> rfl

/-- The commands of a command file are those of its lines. -/
theorem commands_cmdFileSteps (verbosity : ℤ) (bar : BitVec 32) (lines : List (List Char)) :
    (cmdFileSteps verbosity bar (some lines)).filterMap Step.toCommand =
      (fileLines bar lines).map parse := by
  have hline (line : List Char) :
      (lineSteps verbosity line).filterMap Step.toCommand = [parse line] := by
    unfold lineSteps
    split <;> split <;> rfl
  have hrest (rest : List (List Char)) :
      (rest.flatMap (lineSteps verbosity)).filterMap Step.toCommand = rest.map parse := by
    rw [List.filterMap_flatMap, List.map_eq_flatMap]
    simp only [hline]
  have hfile : (fileSteps verbosity bar lines).filterMap Step.toCommand =
      (fileLines bar lines).map parse := by
    unfold fileSteps fileLines
    split
    · rfl
    · split
      · exact hrest _
      · rfl
  unfold cmdFileSteps
  split
  · exact hfile
  · exact hfile

/-! ## The prompt -/

theorem promptLines_none : promptLines (none :: inputs) = promptLines inputs := rfl

theorem promptLines_empty : promptLines (some [] :: inputs) = promptLines inputs := rfl

theorem promptLines_some (h : line.length ≠ 0) : promptLines (some line :: inputs) =
    if parse line = .quit then [] else line :: promptLines inputs := by
  unfold promptLines
  rw [List.filterMap_cons_some (f := id) rfl, List.filter_cons_of_pos (by simpa using h), List.takeWhile_cons]
  by_cases hq : parse line = .quit <;> simp [hq]

theorem promptSteps_none : promptSteps (none :: inputs) = .prints ['\n'] :: promptSteps inputs := rfl

theorem promptSteps_empty : promptSteps (some [] :: inputs) = promptSteps inputs := rfl

theorem promptSteps_some (h : line.length ≠ 0) : promptSteps (some line :: inputs) =
    if parse line = .quit then [] else .command (parse line) :: promptSteps inputs := by
  unfold promptSteps
  by_cases hq : parse line = .quit
  · rw [if_pos hq, List.takeWhile_cons_of_neg (by simp [hq])]
    rfl
  · rw [if_neg hq, List.takeWhile_cons_of_pos (by simpa using hq), List.flatMap_cons, inputSteps, if_neg h]
    rfl

/-- The prompt executes the lines up to the first that asks to leave, and returns there. -/
theorem promptLoop_eq (inputs : List (Option (List Char))) (s : State) :
    (promptLoop host s inputs).1 = runSteps (promptSteps inputs) s := by
  induction inputs generalizing s with
  | nil => rfl
  | cons input inputs ih =>
    rcases input with _ | line
    · rw [promptSteps_none]
      exact ih (s.print ['\n'])
    · unfold promptLoop
      by_cases hlen : line.length = 0
      · rw [if_pos hlen, List.length_eq_zero_iff.mp hlen, promptSteps_empty]
        exact ih s
      · simp only [if_neg hlen, promptSteps_some hlen, processCommand_eq, status_neg_iff]
        by_cases hq : parse line = .quit
        · rw [if_pos hq, if_pos hq, hq]
          exact exec_quit s
        · rw [if_neg hq, if_neg hq]
          exact ih ((parse line).exec s)

/-- The commands at the prompt are those of its lines. -/
theorem commands_promptSteps (inputs : List (Option (List Char))) :
    (promptSteps inputs).filterMap Step.toCommand = (promptLines inputs).map parse := by
  induction inputs with
  | nil => rfl
  | cons input inputs ih =>
    rcases input with _ | line
    · rw [promptSteps_none, promptLines_none]
      exact ih
    · by_cases hlen : line.length = 0
      · rw [List.length_eq_zero_iff.mp hlen, promptSteps_empty, promptLines_empty]
        exact ih
      · rw [promptSteps_some hlen, promptLines_some hlen]
        by_cases hq : parse line = .quit
        · rw [if_pos hq, if_pos hq]
          rfl
        · rw [if_neg hq, if_neg hq]
          exact congrArg (List.cons (parse line)) ih

/-- The prompt comes again until a line asks to leave; the end of the input does not count. -/
theorem promptLoop_outcome (inputs : List (Option (List Char))) (s : State) :
    (promptLoop host s inputs).2 ≠ .exited ∧
      ((promptLoop host s inputs).2 = .returned ↔ ∃ line, some line ∈ inputs ∧ parse line = .quit) := by
  induction inputs generalizing s with
  | nil => simp [promptLoop]
  | cons input inputs ih =>
    rcases input with _ | line
    · unfold promptLoop
      simpa using ih (s.print ['\n'])
    · unfold promptLoop
      by_cases hlen : line.length = 0
      · obtain rfl := List.length_eq_zero_iff.mp hlen
        have hempty : parse [] ≠ .quit := by decide
        rw [if_pos hlen]
        simpa [hempty] using ih s
      · rw [if_neg hlen]
        simp only [processCommand_eq, status_neg_iff]
        by_cases hq : parse line = .quit
        · simp [hq]
        · rw [if_neg hq]
          simpa [hq] using ih ((parse line).exec s)

/-! ## The session -/

/-- A session is its steps, one after the other. -/
theorem parseCommand_steps (host : ByteOrder) (settings : Settings) (s : State)
    (cmdFilePath : Option (Option (List (List Char)))) (inputs : List (Option (List Char))) :
    (parseCommand host settings s cmdFilePath inputs).1 =
      runSteps (sessionSteps settings s.dev.bar cmdFilePath inputs) s := by
  have hprompt (t : State) :
      (if settings.quit = true then (t, Outcome.returned) else promptLoop host t inputs).1 =
        runSteps (if settings.quit = true then [] else promptSteps inputs) t := by
    by_cases hq : settings.quit = true
    · rw [if_pos hq, if_pos hq]
      rfl
    · rw [if_neg hq, if_neg hq]
      exact promptLoop_eq inputs t
  unfold parseCommand sessionSteps
  rcases cmdFilePath with _ | _ | lines
  · exact hprompt s
  · simp only [useCmdFile_eq, if_true]
  · simp only [useCmdFile_eq, reduceCtorEq, if_false]
    rw [hprompt, runSteps_append]

theorem commands_sessionSteps (settings : Settings) (bar : BitVec 32)
    (cmdFilePath : Option (Option (List (List Char)))) (inputs : List (Option (List Char))) :
    (sessionSteps settings bar cmdFilePath inputs).filterMap Step.toCommand =
      sessionCommands settings bar cmdFilePath inputs := by
  have hprompt : (if settings.quit = true then [] else promptSteps inputs).filterMap Step.toCommand =
      (if settings.quit = true then [] else promptLines inputs).map parse := by
    split
    · rfl
    · exact commands_promptSteps inputs
  unfold sessionSteps sessionCommands
  rcases cmdFilePath with _ | _ | lines
  · exact hprompt
  · show (cmdFileSteps settings.verbosity bar none).filterMap Step.toCommand = []
    unfold cmdFileSteps
    split <;> rfl
  · simp only [List.filterMap_append, List.map_append, hprompt, commands_cmdFileSteps]

/-- What a session does to the device is what the commands of its lines do, one after the other. -/
theorem parseCommand_machine (host : ByteOrder) (settings : Settings) (s : State)
    (cmdFilePath : Option (Option (List (List Char)))) (inputs : List (Option (List Char))) :
    (parseCommand host settings s cmdFilePath inputs).1.toMachine =
      runAll (sessionCommands settings s.dev.bar cmdFilePath inputs) s.toMachine := by
  rw [parseCommand_steps, runSteps_machine, commands_sessionSteps]

/-- A session is left when it is to quit after the command file or a line asks to; it is given up when
there is no command file to open. -/
theorem parseCommand_outcome (host : ByteOrder) (settings : Settings) (s : State)
    (cmdFilePath : Option (Option (List (List Char)))) (inputs : List (Option (List Char))) :
    ((parseCommand host settings s cmdFilePath inputs).2 = .exited ↔ cmdFilePath = some none) ∧
      ((parseCommand host settings s cmdFilePath inputs).2 = .returned ↔ cmdFilePath ≠ some none ∧
        (settings.quit = true ∨ ∃ line, some line ∈ inputs ∧ parse line = .quit)) := by
  have hprompt (t : State) :
      (if settings.quit = true then (t, Outcome.returned) else promptLoop host t inputs).2 ≠ .exited ∧
      ((if settings.quit = true then (t, Outcome.returned)
        else promptLoop host t inputs).2 = .returned ↔
        (settings.quit = true ∨ ∃ line, some line ∈ inputs ∧ parse line = .quit)) := by
    by_cases hq : settings.quit = true
    · simp [hq]
    · simpa [hq] using promptLoop_outcome inputs t
  unfold parseCommand
  rcases cmdFilePath with _ | _ | lines
  · simpa using hprompt s
  · simp [useCmdFile_eq]
  · simpa [useCmdFile_eq] using hprompt _

/-- A session is its steps, with all that is printed; what they do to the device is what the commands of
its lines do; and it ends as its settings, its command file and its lines say. -/
theorem parseCommand_spec (host : ByteOrder) (settings : Settings) (s : State)
    (cmdFilePath : Option (Option (List (List Char)))) (inputs : List (Option (List Char))) :
    (parseCommand host settings s cmdFilePath inputs).1 =
        runSteps (sessionSteps settings s.dev.bar cmdFilePath inputs) s ∧
      (parseCommand host settings s cmdFilePath inputs).1.toMachine =
        runAll (sessionCommands settings s.dev.bar cmdFilePath inputs) s.toMachine ∧
      ((parseCommand host settings s cmdFilePath inputs).2 = .exited ↔ cmdFilePath = some none) ∧
      ((parseCommand host settings s cmdFilePath inputs).2 = .returned ↔ cmdFilePath ≠ some none ∧
        (settings.quit = true ∨ ∃ line, some line ∈ inputs ∧ parse line = .quit)) :=
  ⟨parseCommand_steps host settings s cmdFilePath inputs,
    parseCommand_machine host settings s cmdFilePath inputs,
    parseCommand_outcome host settings s cmdFilePath inputs⟩

/-- The byte order of the host does not show. -/
theorem cmdFileLoop_host (host host' : ByteOrder) (verbosity : ℤ) (lines : List (List Char)) (s : State)
    (first : Bool) :
    cmdFileLoop host verbosity s first lines = cmdFileLoop host' verbosity s first lines := by
  induction lines generalizing s first with
  | nil => rfl
  | cons line lines ih => simp only [cmdFileLoop, processCommand_eq, ih]

theorem promptLoop_host (host host' : ByteOrder) (inputs : List (Option (List Char))) (s : State) :
    promptLoop host s inputs = promptLoop host' s inputs := by
  induction inputs generalizing s with
  | nil => rfl
  | cons input inputs ih =>
    rcases input with _ | line
    · exact ih _
    · simp only [promptLoop, processCommand_eq, ih]

theorem parseCommand_host (host host' : ByteOrder) (settings : Settings) (s : State)
    (cmdFilePath : Option (Option (List (List Char)))) (inputs : List (Option (List Char))) :
    parseCommand host settings s cmdFilePath inputs =
      parseCommand host' settings s cmdFilePath inputs := by
  have hfile (t : State) (lines : List (List Char)) :=
    cmdFileLoop_host host host' settings.verbosity lines t true
  unfold parseCommand useCmdFile
  simp only [hfile, promptLoop_host host host']

end DcPerf.PciDebug
