import ScanSlot.Registry.Basic

/-! What can be asked of a registry without changing it. -/
namespace ScanSlot

def Subscription.snapshot (s : Subscription) (cycles : UInt64) : Snapshot where
  owner := s.owner
  peer := s.peer.label
  callback := s.callback.label
  names := s.names.toList
  frequencies := s.frequencies.toList
  cycles

namespace Registry

def isOccupied (r : Registry) : Bool :=
  r.current.isSome

def holder (r : Registry) : Option Owner :=
  r.current.map (·.owner)

def names (r : Registry) : SortedSet String :=
  (r.current.map (·.names)).getD .empty

def frequencies (r : Registry) : SortedSet Frequency :=
  (r.current.map (·.frequencies)).getD .empty

def snapshot (r : Registry) : Option Snapshot :=
  r.current.map (·.snapshot r.cycles)

end Registry
end ScanSlot
