import ScanSlot.Event

/-! A callback that fails on chosen kinds of notification and remembers every call made to it. -/
namespace ScanSlot

structure ScriptedCallback where
  fails : List Event.Kind
  calls : List Event := []
  deriving Repr

namespace ScriptedCallback

def notify (c : ScriptedCallback) (event : Event) : Except Fault Unit × ScriptedCallback :=
  (if event.kind ∈ c.fails then .error .peerUnreachable else .ok (),
    { c with calls := c.calls ++ [event] })

/-- Takes the calls remembered so far. -/
def drain (c : ScriptedCallback) : List Event × ScriptedCallback :=
  (c.calls, { c with calls := [] })

end ScriptedCallback
end ScanSlot
