import Mathlib.Data.List.Basic

/-!
# Argument vectors

A command line is a list of items (positional arguments, options with a value, flags), written out
as a list of words without a shell in between. `read` is the reading of such words by Python's
`argparse` for a parser that knows a set of options: a word that does not start with `-` is
positional, a known option takes the next word as its value, and a value may also be glued to a
short option or set off by `=`.
-/

namespace DcPerf.Library.ArgVector

/-- One argument of a command. -/
inductive Item where
  /-- A positional argument. -/
  | pos (value : String)
  /-- An option followed by its value. -/
  | opt (name value : String)
  /-- A short option with its value glued on. -/
  | glued (name value : String)
  /-- An option without a value. -/
  | flag (name : String)
  deriving DecidableEq

/-- The words of an item. -/
def Item.words : Item → List String
  | .pos v => [v]
  | .opt n v => [n, v]
  | .glued n v => [n ++ v]
  | .flag n => [n]

/-- The values that an item carries. -/
def Item.values : Item → List String
  | .pos v => [v]
  | .opt _ v => [v]
  | .glued _ v => [v]
  | .flag _ => []

/-- The words of a list of items. -/
def render (items : List Item) : List String := items.flatMap Item.words

/-- What a parser makes of an argument vector. -/
structure Reading where
  positionals : List String
  options : List (String × String)
  flags : List String
  deriving DecidableEq

/-- What a list of items says: its positional arguments, its options with their values, its
flags. -/
def reading (items : List Item) : Reading where
  positionals := items.filterMap fun | .pos v => some v | _ => none
  options := items.filterMap fun | .opt n v => some (n, v) | .glued n v => some (n, v) | _ => none
  flags := items.filterMap fun | .flag n => some n | _ => none

/-- The options that a parser knows: those that take a value and those that do not. -/
structure Options where
  valued : List String
  flags : List String

/-- Whether a word starts with `-`. -/
def dashed (w : String) : Bool := w.toList.head? == some '-'

/-- Cut a known option off the front of a word, with `mark` between the option and the rest. -/
def Options.cut (o : Options) (ok : String → Bool) (mark : List Char) (w : String) :
    Option (String × String) :=
  (o.valued.find? fun n => ok n && (n.toList ++ mark).isPrefixOf w.toList).map fun n =>
    (n, String.ofList (w.toList.drop (n.toList ++ mark).length))

/-- The option and the value of a word such as `--name=value`. -/
def Options.assignment (o : Options) : String → Option (String × String) :=
  o.cut (fun _ => true) ['=']

/-- The option and the value of a word such as `-bvalue`. -/
def Options.gluing (o : Options) : String → Option (String × String) :=
  o.cut (fun n => n.toList.length == 2) []

/-- Read the words of a command, or fail as `argparse` does on an unknown option or on one whose
value is missing. The first argument is an option that waits for its value. -/
def readFrom (o : Options) : Option String → List String → Option (List Item)
  | none, [] => some []
  | some _, [] => none
  | some n, v :: ws => if dashed v then none else (readFrom o none ws).map (.opt n v :: ·)
  | none, w :: ws =>
    if dashed w = false then (readFrom o none ws).map (.pos w :: ·)
    else if w ∈ o.valued then readFrom o (some w) ws
    else if w ∈ o.flags then (readFrom o none ws).map (.flag w :: ·)
    else match o.assignment w with
      | some (n, v) => (readFrom o none ws).map (.opt n v :: ·)
      | none => match o.gluing w with
        | some (n, v) => (readFrom o none ws).map (.glued n v :: ·)
        | none => none

/-- Read the words of a command. -/
def read (o : Options) (ws : List String) : Option (List Item) := readFrom o none ws

/-- The items that survive being written out and read back. -/
def Item.Readable (o : Options) : Item → Prop
  | .pos v => dashed v = false
  | .opt n v => dashed n = true ∧ n ∈ o.valued ∧ dashed v = false
  | .glued n v => dashed (n ++ v) = true ∧ n ++ v ∉ o.valued ∧ n ++ v ∉ o.flags ∧
      o.assignment (n ++ v) = none ∧ o.gluing (n ++ v) = some (n, v)
  | .flag n => dashed n = true ∧ n ∉ o.valued ∧ n ∈ o.flags

@[simp] theorem render_nil : render [] = [] := rfl

@[simp] theorem render_cons (i : Item) (items : List Item) :
    render (i :: items) = i.words ++ render items := rfl

@[simp] theorem render_append (items items' : List Item) :
    render (items ++ items') = render items ++ render items' := by
  simp [render]

/-- Reading an item off the front of its written form. -/
theorem read_words (o : Options) {i : Item} (hi : i.Readable o) (ws : List String) :
    read o (i.words ++ ws) = (read o ws).map (i :: ·) := by
  cases i with
  | pos v =>
    have hv : dashed v = false := hi
    simp [Item.words, read, readFrom, hv]
  | opt n v =>
    obtain ⟨hn, hmem, hv⟩ := hi
    simp [Item.words, read, readFrom, hn, hmem, hv]
  | glued n v =>
    obtain ⟨hd, hval, hfl, has, hgl⟩ := hi
    simp [Item.words, read, readFrom, hd, hval, hfl, has, hgl]
  | flag n =>
    obtain ⟨hn, hval, hfl⟩ := hi
    simp [Item.words, read, readFrom, hn, hval, hfl]

/-- Readable items written out are read back as they were. -/
theorem read_render (o : Options) {items : List Item} (h : ∀ i ∈ items, i.Readable o) :
    read o (render items) = some items := by
  induction items with
  | nil => rfl
  | cons i items ih =>
    have hrest := ih fun j hj => h j (List.mem_cons_of_mem _ hj)
    rw [render_cons, read_words o (h i List.mem_cons_self), hrest]
    rfl

end DcPerf.Library.ArgVector
