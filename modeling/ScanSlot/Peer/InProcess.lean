import ScanSlot.Fault

/-! A peer in the same process, whose death is triggered explicitly. It hands out link numbers
from one and never uses one again. -/
namespace ScanSlot

/-- Link numbers are kept in 64 bits, and fewer than `2 ^ 64` links are meant to be made. -/
structure InProcessPeer (Hook : Type) where
  name : String
  alive : Bool := true
  hooks : List (Nat × Hook) := []
  nextLink : Nat := 1
  deriving Repr

namespace InProcessPeer
variable {Hook : Type}

def report (p : InProcessPeer Hook) : String :=
  "LocalPeer(" ++ p.name ++ ")"

def hookCount (p : InProcessPeer Hook) : Nat :=
  p.hooks.length

def link (p : InProcessPeer Hook) (hook : Hook) : Except Fault Nat × InProcessPeer Hook :=
  if p.alive then
    (.ok p.nextLink,
      { p with hooks := p.hooks ++ [(p.nextLink, hook)], nextLink := p.nextLink + 1 })
  else (.error .peerDead, p)

def unlink (p : InProcessPeer Hook) (link : Nat) : Except Fault Unit × InProcessPeer Hook :=
  if p.hooks.any (·.1 == link) then
    (.ok (), { p with hooks := p.hooks.filter (·.1 != link) })
  else (.error (.notLinked link), p)

/-- Marks the peer dead and takes the hooks to be fired; nothing happens to a dead peer. -/
def kill (p : InProcessPeer Hook) : Option (List Hook) × InProcessPeer Hook :=
  if p.alive then (some (p.hooks.map (·.2)), { p with alive := false, hooks := [] })
  else (none, p)

end InProcessPeer
end ScanSlot
