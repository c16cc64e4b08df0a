import DcPerf.Backtrace.Lines
import DcPerf.Library.ShellNumber

/-!
# Creating and printing a backtrace

`debug_backtrace_create` collects the lines of the return addresses one after the other,
`debug_backtrace_next` walks over them, and `debug_print_backtrace` prints what it finds.
-/

namespace DcPerf.Backtrace

open DcPerf.Library

/-! ## Creating -/

/-- A call of `get_line_info`: where its lines begin, its capacity, the turns of the `do`-`while`
loop, each of which asks for an inliner once, and what it returned. -/
structure LineCall where
  base : ℤ
  capacity : ℤ
  turns : ℕ
  count : ℤ
  deriving DecidableEq

/-- `struct backtrace` -/
structure Bckt where
  buf : Buffer
  size : ℤ
  position : ℤ

/-- The state of `debug_backtrace_create`: the backtrace, its local `file` with the log of the
resources, the calls of `get_line_info`, and the addresses whose file was loaded and unloaded. -/
structure Creation where
  bckt : Bckt
  loading : Loading
  calls : List LineCall
  loaded : List ℕ
  unloaded : List ℕ

/-- The body of the loop for the `n`-th address. -/
def createStep (exe : String) (s : Creation) (n : ℕ) (frame : Frame) : Creation :=
  let dl := { s.loading.file.dl with address := frame.address }
  let (ok, dl) := dlLookupAddress exe frame.modules dl
  let s := { s with loading := { s.loading with file := { s.loading.file with dl := dl } } }
  if ok = true then
    let (ok, loading) := loadFile n frame.bfd s.loading
    let s := { s with loading := loading }
    if ok = true then
      let s := { s with loaded := s.loaded ++ [n] }
      let size := s.bckt.size
      let search := getLineInfo frame.bfd s.loading.file frame.garbage 1 s.bckt.buf size
        (backtraceMax - size) s.loading.log
      let turns := search.asked.countP (· = .inliner)
      let s := { s with
        bckt := { s.bckt with buf := search.buf, size := size + search.count }
        loading := { s.loading with log := search.log }
        calls := s.calls ++ [LineCall.mk size (backtraceMax - size) turns search.count] }
      { s with loading := unloadFile s.loading, unloaded := s.unloaded ++ [n] }
    else s
  else s

/-- The loading after a lookup that stored `dl`. -/
def Loading.withDl (s : Loading) (dl : DlAddressSearch) : Loading :=
  { s with file := { s.file with dl := dl } }

/-- The search for the lines of an address, into the room that is left. -/
def Creation.search (s : Creation) (frame : Frame) (loading : Loading) : Search :=
  getLineInfo frame.bfd loading.file frame.garbage 1 s.bckt.buf s.bckt.size
    (backtraceMax - s.bckt.size) loading.log

/-- The state after that search, with the file unloaded. -/
def Creation.searched (s : Creation) (n : ℕ) (frame : Frame) (loading : Loading) : Creation where
  bckt := { s.bckt with
    buf := (s.search frame loading).buf, size := s.bckt.size + (s.search frame loading).count }
  loading := unloadFile { loading with log := (s.search frame loading).log }
  calls := s.calls ++ [LineCall.mk s.bckt.size (backtraceMax - s.bckt.size)
    ((s.search frame loading).asked.countP (· = .inliner)) (s.search frame loading).count]
  loaded := s.loaded ++ [n]
  unloaded := s.unloaded ++ [n]

/-- The address is in no module, or the file of its module is not loaded, or its lines are searched. -/
theorem createStep_cases (exe : String) (s : Creation) (n : ℕ) (frame : Frame) :
    (∃ dl, frame.lookup exe = (false, dl) ∧
      createStep exe s n frame = { s with loading := s.loading.withDl dl }) ∨
    (∃ dl loading, frame.lookup exe = (true, dl) ∧
      loadFile n frame.bfd (s.loading.withDl dl) = (false, loading) ∧
      createStep exe s n frame = { s with loading := loading }) ∨
    (∃ dl loading, frame.lookup exe = (true, dl) ∧
      loadFile n frame.bfd (s.loading.withDl dl) = (true, loading) ∧
      createStep exe s n frame = s.searched n frame loading) := by
  -- The search record is reset by the lookup.
  have hreset : dlLookupAddress exe frame.modules
      { s.loading.file.dl with address := frame.address } = frame.lookup exe := rfl
  rcases hlook : frame.lookup exe with ⟨_ | _, dl⟩
  case false =>
    refine .inl ⟨dl, rfl, ?_⟩
    simp [createStep, hreset, hlook, Loading.withDl]
  case true =>
    rcases hload : loadFile n frame.bfd (s.loading.withDl dl) with ⟨_ | _, loading⟩
    case false =>
      refine .inr (.inl ⟨dl, loading, rfl, hload, ?_⟩)
      unfold Loading.withDl at hload
      simp [createStep, hreset, hlook, hload]
    case true =>
      refine .inr (.inr ⟨dl, loading, rfl, hload, ?_⟩)
      unfold Loading.withDl at hload
      simp [createStep, hreset, hlook, hload, Creation.searched, Creation.search]

/-- The loop over the addresses from the `n`-th on. -/
def createLoop (exe : String) (s : Creation) (n : ℕ) : List Frame → Creation
  | [] => s
  | frame :: frames => createLoop exe (createStep exe s n frame) (n + 1) frames

/-- What the local `file` holds before anything is stored in it does not matter. -/
def startFile : BacktraceFile := ⟨⟨0#64, none, 0#64⟩, none, none⟩

/-- The state before the loop. -/
def createStart (strip : ℤ) : Creation :=
  { bckt := ⟨Buffer.empty, 0, strip⟩, loading := ⟨startFile, []⟩, calls := [], loaded := [],
    unloaded := [] }

/-- `debug_backtrace_create`, when the allocation of the backtrace succeeds. -/
def debugBacktraceCreate (exe : String) (frames : List Frame) (strip : ℤ) : Creation :=
  createLoop exe (createStart strip) 0 frames

/-! ## Walking and destroying -/

/-- `debug_backtrace_is_excluded` -/
def debugBacktraceIsExcluded (symbol : String) : Bool := symbol == "todo"

/-- The entry of the buffer at an index, if there is one and it is initialised. -/
def Buffer.at (buf : Buffer) (i : ℤ) : Option BacktraceLine :=
  if 0 ≤ i then (buf.lines[i.toNat]?).join else none

/-- `debug_backtrace_next`: the next line that is not excluded, if there is one. Reading an entry that
is not initialised ends the walk here. -/
def debugBacktraceNext (bckt : Bckt) : Option (BacktraceLine × Bckt) :=
  if _h : bckt.size ≤ bckt.position then none
  else
    match bckt.buf.at bckt.position with
    | none => none
    | some ln =>
      if debugBacktraceIsExcluded ln.function.text = true then
        debugBacktraceNext { bckt with position := bckt.position + 1 }
      else
        some (ln, { bckt with position := bckt.position + 1 })
termination_by (bckt.size - bckt.position).toNat
decreasing_by
  show (bckt.size - (bckt.position + 1)).toNat < (bckt.size - bckt.position).toNat
  omega

/-- The strings that `debug_backtrace_destroy` frees, in its order, by the numbers of their
allocations; an entry that is not initialised has no strings to free. -/
def debugBacktraceDestroy (bckt : Bckt) : List ℕ :=
  (List.range bckt.size.toNat).flatMap fun (i : ℕ) =>
    match bckt.buf.at i with
    | some ln => [ln.function.id, ln.file.id]
    | none => []

/-! ## Printing -/

/-- `%2d` -/
def padTwo (n : ℕ) : String := (if n < 10 then " " else "") ++ toString n

/-- `DEBUG_BACKTRACE_LINE_FMT` with its arguments; neither string of a line is null. -/
def lineText (n : ℕ) (ln : BacktraceLine) : String :=
  padTwo n ++ " 0x" ++ String.ofList (hexText 16 ln.address.toNat) ++ " " ++ ln.function.text ++
    "()  " ++ ln.file.text ++ ":" ++ toString ln.lineno.toNat ++ "\n"

/-- A walk moves on and stays within the backtrace. -/
theorem debugBacktraceNext_moves {bckt bckt' : Bckt} {ln : BacktraceLine}
    (h : debugBacktraceNext bckt = some (ln, bckt')) :
    bckt'.size = bckt.size ∧ bckt.position < bckt'.position ∧ bckt.position < bckt.size := by
  fun_induction debugBacktraceNext bckt with
  | case1 bckt hend => simp at h
  | case2 bckt hend hat => simp at h
  | case3 bckt hend ln' hat hex ih =>
    obtain ⟨hsize, hpos, -⟩ := ih h
    dsimp only at hpos
    exact ⟨hsize, by omega, by omega⟩
  | case4 bckt hend ln' hat hex =>
    rw [← (Prod.mk.inj (Option.some.inj h)).2]
    dsimp only
    exact ⟨rfl, by omega, by omega⟩

/-- The loop that prints the lines, numbered from `n`. -/
def printLines (bckt : Bckt) (n : ℕ) : List String :=
  match h : debugBacktraceNext bckt with
  | none => []
  | some (ln, bckt') => lineText n ln :: printLines bckt' (n + 1)
termination_by (bckt.size - bckt.position).toNat
decreasing_by
  obtain ⟨hsize, hpos, hlt⟩ := debugBacktraceNext_moves h
  omega

/-- `%7d` -/
def padSeven (n : ℕ) : String :=
  String.ofList (List.replicate (7 - (toString n).length) ' ') ++ toString n

/-- `debug_print_backtrace`, with whether the allocation of the backtrace succeeds, the return
addresses that `backtrace` finds and the thread's id; the result is what is printed. -/
def debugPrintBacktrace (allocated : Bool) (exe : String) (frames : List Frame) (tid : ℕ)
    (strip : ℤ) : List String :=
  if allocated = true then
    ["==== backtrace (tid:" ++ padSeven tid ++ ") ====\n"] ++
      printLines (debugBacktraceCreate exe frames strip).bckt 0 ++
      ["=================================\n"]
  else
    []

end DcPerf.Backtrace
