import ScanSlot.Scan
import ScanSlot.Wire.Basic

/-! The JSON form of network names, owners, frequencies, observed networks and reasons. -/
namespace ScanSlot

open Json (Value)

/-- The bytes are all read before their number is looked at. -/
instance : Wire Ssid where
  encode ssid := Wire.encode ssid.bytes
  decode v := do
    let bytes : List UInt8 ← Wire.decode v
    if fits : bytes.length ≤ Ssid.maxBytes then .ok ⟨bytes, fits⟩
    else .error (.ssidTooLong bytes.length)

instance : Wire Owner where
  encode owner := Wire.encode owner.id
  decode v := (Wire.decode v).map Owner.mk

instance : Wire Frequency where
  encode frequency := Wire.encode frequency.mhz
  decode v := (Wire.decode v).map Frequency.mk

instance : Wire Rejection where
  encode reason := Wire.encode reason.key
  decode := Wire.decodeName Rejection.all Rejection.key Wire.isNull

instance : Wire Removal where
  encode reason := Wire.encode reason.key
  decode := Wire.decodeName Removal.all Removal.key Wire.isNull

namespace ScanResult

/-- The members of a result that have been read so far. -/
structure Draft where
  ssid : Option Ssid := none
  bssid : Option String := none
  frequency : Option Frequency := none
  rssi : Option Int32 := none

/-- Members of other names are skipped; a name that is no text is refused. -/
def Draft.add (d : Draft) : Option String × Value → Except DecodeError Draft
  | (some "ssid", v) => do return { d with ssid := ← Wire.fill d.ssid v }
  | (some "bssid", v) => do return { d with bssid := ← Wire.fill d.bssid v }
  | (some "frequency", v) => do return { d with frequency := ← Wire.fill d.frequency v }
  | (some "rssi", v) => do return { d with rssi := ← Wire.fill d.rssi v }
  | (some _, _) => .ok d
  | (none, _) => .error .malformed

def Draft.finish : Draft → Except DecodeError ScanResult
  | ⟨some ssid, some bssid, some frequency, some rssi⟩ => .ok ⟨ssid, bssid, frequency, rssi⟩
  | _ => .error .malformed

def ofItems : List Value → Except DecodeError ScanResult
  | ssid :: rest => do
      let ssid ← Wire.decode ssid
      match rest with
      | [bssid, frequency, rssi] =>
          return ⟨ssid, ← Wire.decode bssid, ← Wire.decode frequency, ← Wire.decode rssi⟩
      | _ => .error .malformed
  | [] => .error .malformed

end ScanResult

/-- A result is an object, or an array of its fields in order. -/
instance : Wire ScanResult where
  encode result := .object
    [Wire.member "ssid" result.ssid, Wire.member "bssid" result.bssid,
      Wire.member "frequency" result.frequency, Wire.member "rssi" result.rssi]
  decode
    | .object members => do (← members.foldlM ScanResult.Draft.add {}).finish
    | .array items => ScanResult.ofItems items
    | _ => .error .malformed

end ScanSlot
