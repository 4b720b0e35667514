import ScanSlot.Snapshot
import ScanSlot.Wire.Scan

/-! The JSON form of a snapshot. Its lists keep their order and repetitions. -/
namespace ScanSlot.Snapshot

open Json (Value)

/-- The members of a snapshot that have been read so far. -/
structure Draft where
  owner : Option Owner := none
  peer : Option String := none
  callback : Option String := none
  names : Option (List String) := none
  frequencies : Option (List Frequency) := none
  cycles : Option UInt64 := none

/-- Members of other names are skipped; a name that is no text is refused. -/
def Draft.add (d : Draft) : Option String × Value → Except DecodeError Draft
  | (some "owner", v) => do return { d with owner := ← Wire.fill d.owner v }
  | (some "peer", v) => do return { d with peer := ← Wire.fill d.peer v }
  | (some "callback", v) => do return { d with callback := ← Wire.fill d.callback v }
  | (some "target_names", v) => do return { d with names := ← Wire.fill d.names v }
  | (some "target_frequencies", v) => do
      return { d with frequencies := ← Wire.fill d.frequencies v }
  | (some "delivery_cycles", v) => do
      return { d with cycles := ← Wire.fill d.cycles v }
  | (some _, _) => .ok d
  | (none, _) => .error .malformed

def Draft.finish : Draft → Except DecodeError Snapshot
  | ⟨some owner, some peer, some callback, some names, some frequencies, some cycles⟩ =>
      .ok ⟨owner, peer, callback, names, frequencies, cycles⟩
  | _ => .error .malformed

def ofItems : List Value → Except DecodeError Snapshot
  | [owner, peer, callback, names, frequencies, cycles] => do
      return ⟨← Wire.decode owner, ← Wire.decode peer, ← Wire.decode callback,
        ← Wire.decode names, ← Wire.decode frequencies, ← Wire.decode cycles⟩
  | _ => .error .malformed

end ScanSlot.Snapshot

namespace ScanSlot

/-- A snapshot is an object, or an array of its fields in order. -/
instance : Wire Snapshot where
  encode s := .object
    [Wire.member "owner" s.owner, Wire.member "peer" s.peer,
      Wire.member "callback" s.callback, Wire.member "target_names" s.names,
      Wire.member "target_frequencies" s.frequencies,
      Wire.member "delivery_cycles" s.cycles]
  decode
    | .object members => do (← members.foldlM Snapshot.Draft.add {}).finish
    | .array items => Snapshot.ofItems items
    | _ => .error .malformed

end ScanSlot
