import DcPerf.Library.Script
import DcPerf.Library.ShellNumber

/-!
# What the PCI scripts share

`set_cmplto.sh` and `bind_sriovpf_pci_stub.sh` report errors alike and take the address of a PCI
function in the same two forms.
-/

namespace DcPerf.Pci

open DcPerf.Library

variable {σ α : Type}

/-- `die` -/
def die (msg : String) : Exit := ⟨1, "error: " ++ msg⟩

/-- `usage_error` -/
def usageError (msg : String) : Exit := ⟨2, "error: " ++ msg⟩

/-- `[01][[:xdigit:]]\.[0-7]` -/
def isDeviceFunction (text : List Char) : Bool :=
  match text with
  | [a, b, '.', c] => (a == '0' || a == '1') && isXDigit b && '0' ≤ c && c ≤ '7'
  | _ => false

/-- `^[[:xdigit:]]{2}:[01][[:xdigit:]]\.[0-7]$` -/
def isShortBdf (bdf : List Char) : Bool :=
  match bdf with
  | a :: b :: ':' :: rest => isXDigit a && isXDigit b && isDeviceFunction rest
  | _ => false

/-- `^[[:xdigit:]]{4}:[[:xdigit:]]{2}:[01][[:xdigit:]]\.[0-7]$` -/
def isFullBdf (bdf : List Char) : Bool :=
  match bdf with
  | a :: b :: c :: d :: ':' :: rest =>
    isXDigit a && isXDigit b && isXDigit c && isXDigit d && isShortBdf rest
  | _ => false

/-- The address with domain 0000 when it has none, in lower case. -/
def canonicalBdf (bdf : List Char) : List Char :=
  (if isShortBdf bdf then "0000:".toList ++ bdf else bdf).map Char.toLower

/-- The address that a script works on. -/
def readBdf (bdf : List Char) : Script σ (List Char) := do
  let bdf := canonicalBdf bdf
  orExit (isFullBdf bdf) (usageError s!"invalid PCI address: {String.ofList bdf}")
  return bdf

end DcPerf.Pci
