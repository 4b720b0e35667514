import ScanSlot.Fault
import ScanSlot.Text.Hex
import ScanSlot.Text.Utf8

/-! Network names: at most 32 bytes, shown and matched by their canonical text. -/
namespace ScanSlot

structure Ssid where
  bytes : List UInt8
  length_le : bytes.length ≤ 32
  deriving DecidableEq, Repr

namespace Ssid

def maxBytes : Nat := 32

def overlong (length : Nat) : Fault :=
  .invalidSsid (toString length ++ " bytes exceeds maximum of " ++ toString maxBytes)

def ofBytes (bytes : List UInt8) : Except Fault Ssid :=
  if fits : bytes.length ≤ maxBytes then .ok ⟨bytes, fits⟩ else .error (overlong bytes.length)

def ofText (text : String) : Except Fault Ssid :=
  ofBytes (Utf8.bytes text)

/-- The text in quotes, nothing escaped, if the bytes are UTF-8, and hexadecimal otherwise. -/
def canonical (ssid : Ssid) : String :=
  match Utf8.decode ssid.bytes with
  | some text => String.ofList ('"' :: text ++ ['"'])
  | none => String.ofList (Hex.encode ssid.bytes)

def report (ssid : Ssid) : String :=
  "Ssid(" ++ ssid.canonical ++ ")"

end Ssid
end ScanSlot
