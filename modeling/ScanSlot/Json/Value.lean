import ScanSlot.Json.Numeral

/-! JSON documents as trees. Member order and repetitions are kept. A string with an unpaired
surrogate escape, which no text contains, is only remembered as such. -/
namespace ScanSlot.Json

inductive Value where
  | null
  | bool (value : Bool)
  | number (value : Numeral)
  | text (value : Option String)
  | array (items : List Value)
  | object (members : List (Option String × Value))
  deriving Repr

namespace Value

mutual

/-- How deeply arrays and objects are nested. -/
def depth : Value → Nat
  | null | bool _ | number _ | text _ => 0
  | array items => itemsDepth items + 1
  | object members => membersDepth members + 1

def itemsDepth : List Value → Nat
  | [] => 0
  | v :: rest => max v.depth (itemsDepth rest)

def membersDepth : List (Option String × Value) → Nat
  | [] => 0
  | (_, v) :: rest => max v.depth (membersDepth rest)

end

mutual

/-- Whether every string and name is a text and every number is finite. -/
def isSound : Value → Bool
  | null | bool _ => true
  | number n => n.isFinite
  | text t => t.isSome
  | array items => itemsSound items
  | object members => membersSound members

def itemsSound : List Value → Bool
  | [] => true
  | v :: rest => v.isSound && itemsSound rest

def membersSound : List (Option String × Value) → Bool
  | [] => true
  | (name, v) :: rest => name.isSome && v.isSound && membersSound rest

end

end Value
end ScanSlot.Json
