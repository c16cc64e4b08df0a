import DcPerf.Library.ShellNumber
import Mathlib.Data.List.TakeWhile

/-!
# Scanning with `sscanf`

A format is a list of directives. Each takes its part from the front of the text, and scanning ends at
the first that fails. What is returned is the number of values assigned; a text that ends before the
first assignment gives `EOF`. Numbers are read as glibc does: a value beyond 64 bits is the largest
there is, and an `int` has the low 32 bits.
-/

namespace DcPerf.Library.Scanf

/-- `isspace` -/
def isSpace (c : Char) : Bool := c == ' ' || ('\t' ≤ c && c ≤ '\r')

inductive Radix where
  | dec
  | hex
  deriving DecidableEq

def Radix.base : Radix → ℕ
  | .dec => 10
  | .hex => 16

def Radix.isDigit : Radix → Char → Bool
  | .dec => Char.isDigit
  | .hex => isXDigit

inductive Directive where
  | space
  | lit (c : Char)
  /-- `%*c` -/
  | skipChar
  /-- `%c` -/
  | char
  /-- `%d` and `%x`, with the width of the field if there is one. -/
  | number (r : Radix) (width : Option ℕ)
  deriving DecidableEq

/-- A value assigned to an argument. -/
inductive Arg where
  | char (c : Char)
  | int (v : BitVec 32)
  deriving DecidableEq

structure Result where
  status : ℤ
  args : List Arg
  deriving DecidableEq

/-! ## Numbers -/

/-- A sign, if there is one; it is set for a minus. -/
def takeSign : List Char → Bool × List Char
  | '-' :: s => (true, s)
  | '+' :: s => (false, s)
  | s => (false, s)

/-- The digits in front. A prefix `0x` is taken for a zero, whatever follows it. -/
def takeDigits (r : Radix) : List Char → List Char × List Char
  | '0' :: x :: s =>
    if r = .hex ∧ (x = 'x' ∨ x = 'X') then ('0' :: s.takeWhile r.isDigit, s.dropWhile r.isDigit)
    else (('0' :: x :: s).takeWhile r.isDigit, ('0' :: x :: s).dropWhile r.isDigit)
  | s => (s.takeWhile r.isDigit, s.dropWhile r.isDigit)

def strtol (negative : Bool) (n : ℕ) : BitVec 64 :=
  if negative then -BitVec.ofNat 64 (min n (2 ^ 63)) else BitVec.ofNat 64 (min n (2 ^ 63 - 1))

def strtoul (negative : Bool) (n : ℕ) : BitVec 64 :=
  if 2 ^ 64 ≤ n then BitVec.allOnes 64
  else if negative then -BitVec.ofNat 64 n else BitVec.ofNat 64 n

/-- What is assigned to an `int`. -/
def Radix.toInt (r : Radix) (negative : Bool) (digits : List Char) : BitVec 32 :=
  match r with
  | .dec => (strtol negative (valueIn 10 digits)).setWidth 32
  | .hex => (strtoul negative (valueIn 16 digits)).setWidth 32

/-- A number and what follows it, if there is one in front. -/
def takeNumber (r : Radix) (width : Option ℕ) (s : List Char) : Option (BitVec 32 × List Char) :=
  let field := s.take (width.getD s.length)
  let (negative, unsigned) := takeSign field
  let (digits, rest) := takeDigits r unsigned
  if digits = [] then none else some (r.toInt negative digits, rest ++ s.drop field.length)

/-- The base that a numeral announces, and its digits. A prefix counts if a digit follows. -/
def announcedBase : List Char → ℕ × List Char
  | '0' :: x :: d :: s =>
    if (x = 'x' ∨ x = 'X') ∧ isXDigit d then (16, d :: s) else (8, '0' :: x :: d :: s)
  | '0' :: s => (8, '0' :: s)
  | s => (10, s)

/-- `strtoul(text, NULL, 0)` -/
def strtoul0 (text : List Char) : BitVec 64 :=
  let (negative, unsigned) := takeSign (text.dropWhile isSpace)
  let (base, s) := announcedBase unsigned
  strtoul negative (valueIn base (s.takeWhile fun c => isXDigit c && digitValue c < base))

/-! ## Formats -/

/-- The scan ends at a directive that does not match. -/
def matchFailure (done : List Arg) : Result := ⟨done.length, done⟩

/-- The scan ends because the text does. -/
def inputFailure (done : List Arg) : Result := ⟨if done = [] then -1 else done.length, done⟩

/-- The rest of a scan, with what has been assigned so far. -/
def scan : List Directive → List Char → List Arg → Result
  | [], _, done => ⟨done.length, done⟩
  | .space :: ds, s, done => scan ds (s.dropWhile isSpace) done
  | .lit _ :: _, [], done => inputFailure done
  | .lit c :: ds, x :: s, done => if x = c then scan ds s done else matchFailure done
  | .skipChar :: _, [], done => inputFailure done
  | .skipChar :: ds, _ :: s, done => scan ds s done
  | .char :: _, [], done => inputFailure done
  | .char :: ds, x :: s, done => scan ds s (done ++ [.char x])
  | .number r width :: ds, s, done =>
    match s.dropWhile isSpace with
    | [] => inputFailure done
    | x :: s =>
      match takeNumber r width (x :: s) with
      | none => matchFailure done
      | some (v, rest) => scan ds rest (done ++ [.int v])

def sscanf (text : List Char) (format : List Directive) : Result := scan format text []

variable {r : Radix} {ds : List Directive} {s rest digits blank : List Char} {done : List Arg}

/-! ## Texts that are scanned as meant -/

/-- A number as it is written. -/
structure IsNumeral (r : Radix) (digits : List Char) : Prop where
  ne_nil : digits ≠ []
  digit : ∀ c ∈ digits, r.isDigit c = true

/-- No digit and no prefix goes on in what follows. -/
def Ends (rest : List Char) : Prop := ∀ c ∈ rest.head?, isSpace c = true

/-- Blanks, and nothing else. -/
def IsBlank (blank : List Char) : Prop := ∀ c ∈ blank, isSpace c = true

instance (r : Radix) (digits : List Char) : Decidable (IsNumeral r digits) :=
  decidable_of_iff (digits ≠ [] ∧ digits.all r.isDigit = true)
    ⟨fun h => ⟨h.1, List.all_eq_true.mp h.2⟩, fun h => ⟨h.ne_nil, List.all_eq_true.mpr h.digit⟩⟩

instance (blank : List Char) : Decidable (IsBlank blank) :=
  decidable_of_iff (blank.all isSpace = true) List.all_eq_true

theorem isSpace_iff {c : Char} : isSpace c = true ↔ c.toNat = 32 ∨ (9 ≤ c.toNat ∧ c.toNat ≤ 13) := by
  unfold isSpace
  rw [Bool.or_eq_true, beq_iff_eq, Bool.and_eq_true, decide_eq_true_iff, decide_eq_true_iff,
    ← Char.toNat_inj]
  rfl

theorem Radix.isXDigit_of_isDigit {c : Char} (h : r.isDigit c = true) : isXDigit c = true := by
  cases r with
  | dec =>
    have hdigit : c.isDigit = true := h
    simp [isXDigit, hdigit]
  | hex => exact h

theorem Radix.code_of_isDigit {c : Char} (h : r.isDigit c = true) : (48 ≤ c.toNat ∧ c.toNat ≤ 57) ∨
    (97 ≤ c.toNat ∧ c.toNat ≤ 102) ∨ (65 ≤ c.toNat ∧ c.toNat ≤ 70) :=
  isXDigit_iff.mp (isXDigit_of_isDigit h)

/-- A digit is neither a blank, nor a sign, nor part of a prefix. -/
theorem Radix.ne_of_isDigit {c d : Char} (h : r.isDigit c = true)
    (hd : d.toNat ∉ List.range' 48 10 ++ List.range' 97 6 ++ List.range' 65 6) : c ≠ d := by
  rintro rfl
  have hcode := code_of_isDigit h
  simp only [List.mem_append, List.mem_range'_1] at hd
  omega

theorem Radix.not_isDigit_of_isSpace {c : Char} (h : isSpace c = true) : r.isDigit c = false := by
  by_contra hd
  have hcode := code_of_isDigit (by simpa using hd)
  have hspace := isSpace_iff.mp h
  omega

theorem not_isSpace_of_isDigit {c : Char} (h : r.isDigit c = true) : isSpace c = false := by
  by_contra hs
  rw [Radix.not_isDigit_of_isSpace (by simpa using hs)] at h
  cases h

theorem takeWhile_numeral (h : IsNumeral r digits) (hr : Ends rest) :
    (digits ++ rest).takeWhile r.isDigit = digits := by
  rw [List.takeWhile_append_of_pos h.digit]
  cases rest with
  | nil => simp
  | cons c rest =>
    have hc := Radix.not_isDigit_of_isSpace (r := r) (hr c rfl)
    simp [hc]

theorem dropWhile_numeral (h : IsNumeral r digits) (hr : Ends rest) :
    (digits ++ rest).dropWhile r.isDigit = rest := by
  rw [List.dropWhile_append_of_pos h.digit]
  cases rest with
  | nil => simp
  | cons c rest =>
    have hc := Radix.not_isDigit_of_isSpace (r := r) (hr c rfl)
    simp [hc]

/-- Digits are not taken for a sign. -/
theorem takeSign_numeral (h : IsNumeral r digits) : takeSign (digits ++ rest) = (false, digits ++ rest) := by
  cases hd : digits with
  | nil => exact absurd hd h.ne_nil
  | cons c cs =>
    have hc := h.digit c (by simp [hd])
    have hminus : c ≠ '-' := Radix.ne_of_isDigit hc (by decide)
    have hplus : c ≠ '+' := Radix.ne_of_isDigit hc (by decide)
    show takeSign (c :: (cs ++ rest)) = (false, c :: (cs ++ rest))
    unfold takeSign
    split
    · rename_i heq
      exact absurd (List.cons.inj heq).1 hminus
    · rename_i heq
      exact absurd (List.cons.inj heq).1 hplus
    · rfl

/-- Nor is a numeral taken for a prefix. -/
theorem takeDigits_numeral (h : IsNumeral r digits) (hr : Ends rest) :
    takeDigits r (digits ++ rest) = (digits, rest) := by
  unfold takeDigits
  split
  · rename_i x s heq
    rw [if_neg, ← heq, takeWhile_numeral h hr, dropWhile_numeral h hr]
    rintro ⟨-, hx⟩
    have hcode : x.toNat = 120 ∨ x.toNat = 88 := by
      rcases hx with rfl | rfl
      · exact Or.inl rfl
      · exact Or.inr rfl
    -- The second character is a digit of the numeral or the blank after it.
    rcases hd : digits with _ | ⟨c, _ | ⟨d, cs⟩⟩
    · exact absurd hd h.ne_nil
    · rw [hd] at heq
      have hrest : rest = x :: s := (List.cons.inj heq).2
      have hspace := isSpace_iff.mp (hr x (by rw [hrest]; rfl))
      omega
    · rw [hd] at heq
      have hdx : d = x := (List.cons.inj (List.cons.inj heq).2).1
      have hdigit := Radix.code_of_isDigit (h.digit d (by simp [hd]))
      rw [hdx] at hdigit
      omega
  · rw [takeWhile_numeral h hr, dropWhile_numeral h hr]

/-- A number is taken up to the blank that follows it. -/
theorem takeNumber_numeral (h : IsNumeral r digits) (hr : Ends rest) :
    takeNumber r none (digits ++ rest) = some (r.toInt false digits, rest) := by
  have hfield : (digits ++ rest).take ((none : Option ℕ).getD (digits ++ rest).length) =
      digits ++ rest := List.take_length
  unfold takeNumber
  simp only [hfield, takeSign_numeral h, takeDigits_numeral h hr]
  rw [if_neg h.ne_nil, List.drop_length, List.append_nil]

/-- A field as wide as the numeral is taken as a whole. -/
theorem takeNumber_width (h : IsNumeral r digits) (rest : List Char) :
    takeNumber r (some digits.length) (digits ++ rest) = some (r.toInt false digits, rest) := by
  have hfield : (digits ++ rest).take ((some digits.length).getD (digits ++ rest).length) =
      digits := by simp
  have hends : Ends [] := fun c hc => nomatch hc
  have hsign : takeSign (digits ++ []) = (false, digits ++ []) := takeSign_numeral h
  have hdigits := takeDigits_numeral h hends
  rw [List.append_nil] at hsign hdigits
  unfold takeNumber
  simp only [hfield, hsign, hdigits]
  rw [if_neg h.ne_nil, List.drop_left, List.nil_append]

/-- A prefix does not count. -/
theorem takeNumber_prefixed {x : Char} (hx : x = 'x' ∨ x = 'X') (h : IsNumeral .hex digits)
    (hr : Ends rest) : takeNumber .hex none ('0' :: x :: (digits ++ rest)) =
      some (Radix.hex.toInt false digits, rest) := by
  have hfield : ('0' :: x :: (digits ++ rest)).take
      ((none : Option ℕ).getD ('0' :: x :: (digits ++ rest)).length) = '0' :: x :: (digits ++ rest) :=
    List.take_length
  have hsign : takeSign ('0' :: x :: (digits ++ rest)) = (false, '0' :: x :: (digits ++ rest)) := rfl
  have hdigits : takeDigits .hex ('0' :: x :: (digits ++ rest)) = ('0' :: digits, rest) := by
    rw [takeDigits, if_pos ⟨rfl, hx⟩, takeWhile_numeral h hr, dropWhile_numeral h hr]
  have hvalue : Radix.hex.toInt false ('0' :: digits) = Radix.hex.toInt false digits := rfl
  unfold takeNumber
  simp only [hfield, hsign, hdigits, hvalue]
  rw [if_neg (by simp), List.drop_length, List.append_nil]

theorem dropWhile_blank (h : IsBlank blank) (hs : ∀ c ∈ s.head?, isSpace c = false) :
    (blank ++ s).dropWhile isSpace = s := by
  rw [List.dropWhile_append_of_pos h]
  cases s with
  | nil => rfl
  | cons c s => simp [hs c rfl]

theorem head_numeral (h : IsNumeral r digits) : ∀ c ∈ (digits ++ rest).head?, isSpace c = false := by
  cases hd : digits with
  | nil => exact absurd hd h.ne_nil
  | cons d ds =>
    intro c hc
    obtain rfl : d = c := by simpa using hc
    exact not_isSpace_of_isDigit (h.digit d (by simp [hd]))

theorem scan_of_takeNumber {width : Option ℕ} {v : BitVec 32} (hs : s.dropWhile isSpace = digits ++ rest)
    (h : IsNumeral r digits) (hv : takeNumber r width (digits ++ rest) = some (v, rest)) :
    scan (.number r width :: ds) s done = scan ds rest (done ++ [.int v]) := by
  rw [scan, hs]
  cases hd : digits with
  | nil => exact absurd hd h.ne_nil
  | cons c cs =>
    rw [hd] at hv
    show (match takeNumber r width (c :: cs ++ rest) with
      | none => matchFailure done
      | some (v, rest) => scan ds rest (done ++ [Arg.int v])) = _
    rw [hv]

/-- Scanning a number, possibly after blanks. -/
theorem scan_number (hb : IsBlank blank) (h : IsNumeral r digits) (hr : Ends rest) :
    scan (.number r none :: ds) (blank ++ (digits ++ rest)) done =
      scan ds rest (done ++ [.int (r.toInt false digits)]) :=
  scan_of_takeNumber (dropWhile_blank hb (head_numeral h)) h (takeNumber_numeral h hr)

theorem scan_prefixed {x : Char} (hx : x = 'x' ∨ x = 'X') (h : IsNumeral .hex digits)
    (hr : Ends rest) : scan (.number .hex none :: ds) ('0' :: x :: (digits ++ rest)) done =
      scan ds rest (done ++ [.int (Radix.hex.toInt false digits)]) := by
  have hdrop : ('0' :: x :: (digits ++ rest)).dropWhile isSpace = '0' :: x :: (digits ++ rest) := rfl
  rw [scan, hdrop]
  show (match takeNumber .hex none ('0' :: x :: (digits ++ rest)) with
    | none => matchFailure done
    | some (v, rest) => scan ds rest (done ++ [Arg.int v])) = _
  rw [takeNumber_prefixed hx h hr]

theorem scan_field (h : IsNumeral r digits) (rest : List Char) :
    scan (.number r (some digits.length) :: ds) (digits ++ rest) done =
      scan ds rest (done ++ [.int (r.toInt false digits)]) :=
  have hdrop : ([] ++ (digits ++ rest)).dropWhile isSpace = digits ++ rest :=
    dropWhile_blank (fun _ hc => nomatch hc) (head_numeral h)
  scan_of_takeNumber hdrop h (takeNumber_width h rest)

/-- Blanks in the format take all blanks of the text. -/
theorem scan_space (hb : IsBlank blank) (hs : ∀ c ∈ s.head?, isSpace c = false) :
    scan (.space :: ds) (blank ++ s) done = scan ds s done := by
  rw [scan, dropWhile_blank hb hs]

/-- A number that fits is read as it is. -/
theorem Radix.toInt_false (r : Radix) (h : valueIn r.base digits < 2 ^ 32) :
    r.toInt false digits = BitVec.ofNat 32 (valueIn r.base digits) := by
  apply BitVec.eq_of_toNat_eq
  cases r with
  | dec =>
    have hmin : min (valueIn 10 digits) (2 ^ 63 - 1) = valueIn 10 digits := by
      have hlt : valueIn 10 digits < 2 ^ 32 := h
      omega
    show ((strtol false (valueIn 10 digits)).setWidth 32).toNat =
      (BitVec.ofNat 32 (valueIn 10 digits)).toNat
    rw [strtol, if_neg Bool.false_ne_true, hmin, BitVec.toNat_setWidth, BitVec.toNat_ofNat,
      BitVec.toNat_ofNat]
    omega
  | hex =>
    have hlt : valueIn 16 digits < 2 ^ 32 := h
    show ((strtoul false (valueIn 16 digits)).setWidth 32).toNat =
      (BitVec.ofNat 32 (valueIn 16 digits)).toNat
    rw [strtoul, if_neg (by omega), if_neg Bool.false_ne_true, BitVec.toNat_setWidth,
      BitVec.toNat_ofNat, BitVec.toNat_ofNat]
    omega

end DcPerf.Library.Scanf
