import DcPerf.Backtrace.Bfd

/-!
# The lines of `backtrace.c`

`find_address_in_section` is called for every section of a file and fills the lines of one address
into the buffer of the backtrace, from the place where the lines of the addresses before it end. A
write outside the buffer has no effect on it here, but is recorded like any other.
-/

namespace DcPerf.Backtrace

open DcPerf.Library

/-- `BACKTRACE_MAX` -/
def backtraceMax : ℕ := 64

/-! ## The buffer -/

/-- A string that `strdup` has put on the heap, by the number of its allocation. -/
structure HeapString where
  id : ℕ
  text : String
  deriving DecidableEq

/-- `struct backtrace_line` -/
structure BacktraceLine where
  address : Address
  file : HeapString
  function : HeapString
  lineno : BitVec 32
  deriving DecidableEq

/-- The array `lines` of a backtrace, whose entries are not initialised at first, with the indices
that were written and the number of strings that were allocated. -/
structure Buffer where
  lines : List (Option BacktraceLine)
  writes : List ℤ
  strings : ℕ
  deriving DecidableEq

def Buffer.empty : Buffer := ⟨List.replicate backtraceMax none, [], 0⟩

/-- A line whose strings are allocated next. -/
def Buffer.nextLine (buf : Buffer) (address : Address) (info : LineInfo) : BacktraceLine where
  address := address
  file := ⟨buf.strings, info.filename.getD "???"⟩
  function := ⟨buf.strings + 1, info.function.getD "???"⟩
  lineno := info.lineno

/-- Fill one entry. -/
def Buffer.record (buf : Buffer) (i : ℤ) (address : Address) (info : LineInfo) : Buffer where
  lines := if 0 ≤ i then buf.lines.set i.toNat (some (buf.nextLine address info)) else buf.lines
  writes := buf.writes ++ [i]
  strings := buf.strings + 2

/-! ## The search for one address -/

/-- `struct backtrace_search`; `base` is where `lines` points to in the buffer, `asked` are the line
queries that were made so far. -/
structure Search where
  count : ℤ
  backoff : ℤ
  base : ℤ
  maxLines : ℤ
  buf : Buffer
  asked : List LineQuery
  log : List (Use Res)

/-- The answer of BFD to one more query. -/
def Search.answer (bfd : BfdAnswers) (s : Search) (query : LineQuery) : LineAnswer :=
  bfd.lines (s.asked ++ [query])

/-- The search after one more query; a nearest-line query looks into the symbols as well. -/
def Search.ask (file : BacktraceFile) (s : Search) (query : LineQuery) : Search :=
  let syms := match query with
    | .nearest _ _ => usePtr file.syms
    | .inliner => []
  { s with asked := s.asked ++ [query], log := s.log ++ usePtr file.abfd ++ syms }

/-- The query reports success. -/
def LineAnswer.isFound : LineAnswer → Bool
  | .found _ => true
  | .notFound _ => false

/-- The output variables after a query. -/
def LineAnswer.store (locals : LineInfo) : LineAnswer → LineInfo
  | .found info => info
  | .notFound (some info) => info
  | .notFound none => locals

/-- One turn of the `do`-`while` loop: whether an inliner was found, the output variables and the
search. -/
def lineTurn (bfd : BfdAnswers) (file : BacktraceFile) (section_ : Section) (address : Address)
    (locals : LineInfo) (s : Search) : Bool × LineInfo × Search :=
  let first : Bool := s.count = 0
  let s := { s with buf := s.buf.record (s.base + s.count) address locals }
  -- To get the inliner info, search at the original address.
  let requery : LineQuery := .nearest section_ (address - section_.vma)
  let locals := if first then (s.answer bfd requery).store locals else locals
  let s := if first then s.ask file requery else s
  let s := { s with count := s.count + 1 }
  let answer := s.answer bfd .inliner
  (answer.isFound, answer.store locals, s.ask file .inliner)

variable {bfd : BfdAnswers} {file : BacktraceFile} {section_ : Section} {address : Address}
  {locals : LineInfo} {s : Search}

theorem lineTurn_count {found : Bool} {locals' : LineInfo} {s' : Search}
    (h : lineTurn bfd file section_ address locals s = (found, locals', s')) :
    s'.count = s.count + 1 ∧ s'.maxLines = s.maxLines := by
  have hs : s' = (lineTurn bfd file section_ address locals s).2.2 := by rw [h]
  rw [hs]
  unfold lineTurn Search.ask
  by_cases h0 : s.count = 0 <;> simp [h0]

/-- The `do`-`while` loop. It ends because every turn counts one more line. -/
def lineLoop (bfd : BfdAnswers) (file : BacktraceFile) (section_ : Section) (address : Address)
    (locals : LineInfo) (s : Search) : Search :=
  match _h : lineTurn bfd file section_ address locals s with
  | (found, locals', s') =>
    if _hmore : found = true ∧ s'.count < s'.maxLines then
      lineLoop bfd file section_ address locals' s'
    else
      s'
termination_by (s.maxLines - s.count).toNat
decreasing_by
  obtain ⟨hcount, hmax⟩ := lineTurn_count _h
  omega

/-- `find_address_in_section` -/
def findAddressInSection (bfd : BfdAnswers) (file : BacktraceFile) (garbage : LineInfo) (s : Search)
    (section_ : Section) : Search :=
  if 0 < s.count ∨ s.maxLines = 0 ∨ section_.alloc = false then s
  else
    let address := file.dl.address - file.dl.base
    let vma := section_.vma
    if address < vma then s
    else if vma + section_.size ≤ address then s
    else
      -- Search in address-1 to get the calling line instead of return address.
      let query : LineQuery := .nearest section_ (address - vma - BitVec.ofInt 64 s.backoff)
      let locals := (s.answer bfd query).store garbage
      lineLoop bfd file section_ address locals (s.ask file query)

/-- `get_line_info`, with the callback called for every section. -/
def getLineInfo (bfd : BfdAnswers) (file : BacktraceFile) (garbage : LineInfo) (backoff : ℤ)
    (buf : Buffer) (base max : ℤ) (log : List (Use Res)) : Search :=
  bfd.sections.foldl (findAddressInSection bfd file garbage)
    { count := 0, backoff := backoff, base := base, maxLines := max, buf := buf, asked := [],
      log := log ++ usePtr file.abfd }

end DcPerf.Backtrace
