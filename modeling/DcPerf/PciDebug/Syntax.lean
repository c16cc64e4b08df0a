import DcPerf.PciDebug.Language
import Mathlib.Data.List.Forall2

/-!
# How commands are written

The lines by which the help text of the debugger writes a command: a letter, a width if it is not the
default one, and hexadecimal operands, set apart by blanks.
-/

namespace DcPerf.PciDebug

open DcPerf.Library DcPerf.Library.Scanf

/-- A hexadecimal operand with the blanks in front of it, and a prefix `0x` or none. -/
structure Operand where
  blank : List Char
  lead : List Char
  digits : List Char

def Operand.text (o : Operand) : List Char := o.blank ++ (o.lead ++ o.digits)

structure Operand.Denotes (o : Operand) (v : BitVec 32) : Prop where
  apart : o.blank ≠ []
  blank : IsBlank o.blank
  lead : o.lead = [] ∨ o.lead = ['0', 'x'] ∨ o.lead = ['0', 'X']
  numeral : IsNumeral .hex o.digits
  value : valueIn 16 o.digits = v.toNat

/-- Operands one after the other, with what they denote. -/
def Denote (os : List Operand) (vs : List (BitVec 32)) : Prop := List.Forall₂ Operand.Denotes os vs

def operandsText (os : List Operand) : List Char := os.flatMap Operand.text

/-- What is written between the letter and the operands: nothing for 32 bits, if a space follows, or a
decimal number. -/
inductive WritesWidth : BitVec 32 → List Char → List Operand → Prop where
  | default (o : Operand) (os : List Operand) (h : o.blank.head? = some ' ') :
    WritesWidth 32 [] (o :: os)
  | number (width : BitVec 32) (digits : List Char) (os : List Operand)
    (h : IsNumeral .dec digits) (hv : valueIn 10 digits = width.toNat) : WritesWidth width digits os

/-- The lines that write a command. More text may follow after a blank, but where an increment may
stand. -/
inductive Writes : Command → List Char → Prop where
  | help (rest : List Char) : Writes .help ('?' :: rest)
  | display (l : Char) (hl : l = 'd' ∨ l = 'D') {width addr len : BitVec 32} {w : List Char}
    {os : List Operand} (hw : WritesWidth width w os) (ho : Denote os [addr, len]) {rest : List Char}
    (hr : Ends rest) : Writes (.display width addr len) (l :: (w ++ (operandsText os ++ rest)))
  | change (l : Char) (hl : l = 'c' ∨ l = 'C') {width addr val : BitVec 32} {w : List Char}
    {os : List Operand} (hw : WritesWidth width w os) (ho : Denote os [addr, val]) {rest : List Char}
    (hr : Ends rest) : Writes (.change width addr val) (l :: (w ++ (operandsText os ++ rest)))
  | fill (l : Char) (hl : l = 'f' ∨ l = 'F') {width addr val len inc : BitVec 32} {w : List Char}
    {os : List Operand} (hw : WritesWidth width w os) (ho : Denote os [addr, val, len, inc])
    {rest : List Char} (hr : Ends rest) :
    Writes (.fill width addr val len inc) (l :: (w ++ (operandsText os ++ rest)))
  | fillOnes (l : Char) (hl : l = 'f' ∨ l = 'F') {width addr val len : BitVec 32} {w : List Char}
    {os : List Operand} (hw : WritesWidth width w os) (ho : Denote os [addr, val, len])
    {rest : List Char} (hr : IsBlank rest) :
    Writes (.fill width addr val len 1) (l :: (w ++ (operandsText os ++ rest)))
  | showEndian (l : Char) (hl : l = 'e' ∨ l = 'E') : Writes .showEndian [l]
  | bigEndian (l : Char) (hl : l = 'e' ∨ l = 'E') (rest : List Char) :
    Writes (.setEndian true) (l :: 'b' :: rest)
  | littleEndian (l : Char) (hl : l = 'e' ∨ l = 'E') (rest : List Char) :
    Writes (.setEndian false) (l :: 'l' :: rest)
  | quit (l : Char) (hl : l = 'q' ∨ l = 'Q') (rest : List Char) : Writes .quit (l :: rest)

/-! ## A line for every command -/

/-- An operand after one space, in eight digits. -/
def operand (v : BitVec 32) : Operand := ⟨[' '], [], hexText 8 v.toNat⟩

/-- A line that writes a command, if there is one. -/
def Command.line : Command → List Char
  | nothing => []
  | help => ['?']
  | display width addr len =>
    'd' :: (Nat.toDigits 10 width.toNat ++ operandsText [operand addr, operand len])
  | change width addr val =>
    'c' :: (Nat.toDigits 10 width.toNat ++ operandsText [operand addr, operand val])
  | fill width addr val len inc =>
    'f' :: (Nat.toDigits 10 width.toNat ++
      operandsText [operand addr, operand val, operand len, operand inc])
  | showEndian => ['e']
  | setEndian true => ['e', 'b']
  | setEndian false => ['e', 'l']
  | quit => ['q']
  | invalid => ['c']

end DcPerf.PciDebug
