import ScanSlot.Json.Parse
import ScanSlot.Json.Print
import ScanSlot.Ssid

/-! Values with a JSON form. Decoding is strict about what it knows and ends with the first thing
it cannot accept, in the order of the text. -/
namespace ScanSlot

open Json (Value)

inductive DecodeError where
  | malformed
  | ssidTooLong (length : Nat)
  deriving DecidableEq, Repr

def DecodeError.fault : DecodeError → Fault
  | .malformed => .serialization "malformed"
  | .ssidTooLong length => .serialization (Ssid.overlong length).message

class Wire (α : Type) where
  encode : α → Value
  decode : Value → Except DecodeError α

namespace Wire

def write {α : Type} [Wire α] (a : α) : String :=
  String.ofList (encode a).compact

def writePretty {α : Type} [Wire α] (a : α) : String :=
  String.ofList (encode a).pretty

def read {α : Type} [Wire α] (text : String) : Except DecodeError α :=
  match Value.parse? text.toList with
  | some v => decode v
  | none => .error .malformed

def integer (n : Int) : Value :=
  .number (.integer n)

/-- An integer from `low` up to, and without, `high`. -/
def decodeInteger (low high : Int) : Value → Except DecodeError Int
  | .number (.integer n) => if low ≤ n ∧ n < high then .ok n else .error .malformed
  | _ => .error .malformed

instance : Wire UInt8 where
  encode n := integer n.toNat
  decode v := (decodeInteger 0 0x100 v).map fun n => UInt8.ofNat n.toNat

instance : Wire UInt32 where
  encode n := integer n.toNat
  decode v := (decodeInteger 0 0x100000000 v).map fun n => UInt32.ofNat n.toNat

instance : Wire UInt64 where
  encode n := integer n.toNat
  decode v := (decodeInteger 0 0x10000000000000000 v).map fun n => UInt64.ofNat n.toNat

instance : Wire Int32 where
  encode n := integer n.toInt
  decode v := (decodeInteger (-0x80000000) 0x80000000 v).map Int32.ofInt

instance : Wire String where
  encode s := .text (some s)
  decode
    | .text (some s) => .ok s
    | _ => .error .malformed

instance {α : Type} [Wire α] : Wire (List α) where
  encode items := .array (items.map encode)
  decode
    | .array items => items.mapM decode
    | _ => .error .malformed

def member {α : Type} [Wire α] (name : String) (a : α) : Option String × Value :=
  (some name, encode a)

/-- Fills the place of a known member; a second one of the same name is refused unread. -/
def fill {α : Type} [Wire α] (place : Option α) (v : Value) : Except DecodeError (Option α) :=
  match place with
  | none => (decode v).map some
  | some _ => .error .malformed

def lookup {α : Type} (all : List α) (key : α → String) (name : String) : Except DecodeError α :=
  match all.find? (key · = name) with
  | some a => .ok a
  | none => .error .malformed

/-- Decodes one of finitely many names, given as a string or as the only member of an object. The
member's value has nothing to say and must be one that `isNothing` accepts. -/
def decodeName {α : Type} (all : List α) (key : α → String) (isNothing : Value → Bool) :
    Value → Except DecodeError α
  | .text (some name) => lookup all key name
  | .object [(some name, v)] => if isNothing v then lookup all key name else .error .malformed
  | _ => .error .malformed

def isNull : Value → Bool
  | .null => true
  | _ => false

end Wire
end ScanSlot
