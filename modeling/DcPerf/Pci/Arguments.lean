import DcPerf.Pci.SetCmplto

/-!
# The arguments that `set_cmplto.sh` documents

An address with or without a domain, and a timeout code in hexadecimal with at most one prefix.
-/

namespace DcPerf.Pci.SetCmplto

open DcPerf.Library DcPerf.Pci

/-- `BB:DV.F` -/
def IsPlace (text : List Char) : Prop :=
  ∃ bus d v f, text = bus ++ [':', d, v, '.', f] ∧ isHexWord 2 bus = true ∧ (d = '0' ∨ d = '1') ∧
    isXDigit v = true ∧ '0' ≤ f ∧ f ≤ '7'

/-- The text names a function, and the script is to work on the given address. -/
inductive Names (text : List Char) : List Char → Prop where
  /-- Without a domain. -/
  | short (h : IsPlace text) : Names text ("0000:".toList ++ text.map Char.toLower)
  | full (domain place : List Char) (hd : isHexWord 4 domain = true) (hp : IsPlace place)
    (h : text = domain ++ ':' :: place) : Names text (text.map Char.toLower)

/-- The text is one of the prefixes and one to four hexadecimal digits of a value. -/
def Spells (prefixes : List (List Char)) (text : List Char) (n : ℕ) : Prop :=
  ∃ pre ∈ prefixes, ∃ digits, text = pre ++ digits ∧ digits ≠ [] ∧ digits.length ≤ 4 ∧
    (∀ c ∈ digits, isXDigit c = true) ∧ n = valueIn 16 digits

/-- At most one prefix. -/
def documentedPrefixes : List (List Char) := [[], ['0', 'x'], ['0', 'X']]

/-- Both prefixes, in the order in which the script removes them. -/
def bothPrefixes : List Char := ['0', 'x', '0', 'X']

/-- The two arguments are accepted exactly as they are documented. -/
def AsDocumented (first second : String) : Prop :=
  ∀ bdf request, parseArgs [first, second] = .ok (bdf, request) ↔ Names first.toList bdf ∧
    ∃ entry h, request = .code entry h ∧ Spells documentedPrefixes second.toList entry.code

end DcPerf.Pci.SetCmplto
