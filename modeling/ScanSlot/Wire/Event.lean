import ScanSlot.Event
import ScanSlot.Wire.Scan

/-! The JSON form of notifications: an object whose member `type` says which one it is and may
stand anywhere, or an array that starts with the type. -/
namespace ScanSlot.Event

open Json (Value)

/-- How deeply the text of an event may be nested. -/
def maxDepth : Nat := 127

/-- Inside an event an empty object, too, stands for nothing. -/
def isNothing : Value → Bool
  | .null => true
  | .object [] => true
  | _ => false

def decodeFailure : Value → Except DecodeError Rejection :=
  Wire.decodeName Rejection.all Rejection.key isNothing

def decodeReason : Value → Except DecodeError Removal :=
  Wire.decodeName Removal.all Removal.key isNothing

def decodeKind : Value → Except DecodeError Kind
  | .text (some name) => Wire.lookup Kind.all Kind.key name
  | _ => .error .malformed

/-- The name of the one field that an event of a kind has, if it has one. -/
def Kind.field : Kind → Option String
  | registerSuccess => none
  | registerFailed => some "reason"
  | scanResultsAvailable => some "results"
  | removed => some "reason"

/-- There must be one value for a field and none without; the first is decoded before the others
are refused. -/
def ofFields (kind : Kind) (values : List Value) : Except DecodeError Event := do
  let (event, more) ←
    match kind, values with
    | .registerSuccess, more => .ok (registerSuccess, more)
    | .registerFailed, v :: more => .ok (registerFailed (← decodeFailure v), more)
    | .scanResultsAvailable, v :: more => .ok (scanResultsAvailable (← Wire.decode v), more)
    | .removed, v :: more => .ok (removed (← decodeReason v), more)
    | _, [] => .error .malformed
  if more.isEmpty then .ok event else .error .malformed

/-- The values of all members of one name, in their order. -/
def valuesOf (name : String) (members : List (Option String × Value)) : List Value :=
  (members.filter (·.1 = some name)).map (·.2)

/-- Members that are neither the type nor the kind's field are skipped. -/
def ofMembers (members : List (Option String × Value)) : Except DecodeError Event := do
  match valuesOf "type" members with
  | [type] =>
      let kind ← decodeKind type
      ofFields kind ((kind.field.map (valuesOf · members)).getD [])
  | _ => .error .malformed

def ofItems : List Value → Except DecodeError Event
  | [] => .error .malformed
  | type :: values => do ofFields (← decodeKind type) values

def members (event : Event) : List (Option String × Value) :=
  Wire.member "type" event.kind.key ::
    match event with
    | registerSuccess => []
    | registerFailed reason => [Wire.member "reason" reason]
    | scanResultsAvailable results => [Wire.member "results" results]
    | removed reason => [Wire.member "reason" reason]

end ScanSlot.Event

namespace ScanSlot

/-- The whole text of an event is looked through before any part is decoded. -/
instance : Wire Event where
  encode event := .object event.members
  decode v :=
    if v.isSound && v.depth ≤ Event.maxDepth then
      match v with
      | .object members => Event.ofMembers members
      | .array items => Event.ofItems items
      | _ => .error .malformed
    else .error .malformed

end ScanSlot
