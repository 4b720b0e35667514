import ScanSlot.Event

/-! What the registry and the peers report while they work. -/
namespace ScanSlot

inductive LogEntry where
  | rejecting (owner active : Owner) (reason : Rejection)
  | failureNotSent (owner : Owner) (fault : Fault)
  | linkFailed (owner : Owner) (fault : Fault)
  | successNotSent (owner : Owner) (fault : Fault)
  | unlinkAfterFailedAck (owner : Owner) (fault : Fault)
  | activated (owner : Owner) (generation : Nat)
  | removalNotSent (owner : Owner) (fault : Fault)
  | unregistered (owner : Owner)
  | delivering (owner : Owner) (matched : Nat)
  | resultsNotSent (owner : Owner) (fault : Fault)
  | staleNotice (stale current : Nat)
  | peerLost (owner : Owner)
  | unlinkFailed (owner : Owner) (fault : Fault)
  | peerDied (name : String) (hooks : Nat)
  deriving DecidableEq, Repr

inductive LogLevel where
  | debug
  | warn
  | error
  deriving DecidableEq, Repr

def LogLevel.text : LogLevel → String
  | debug => "DEBUG"
  | warn => "WARN"
  | error => "ERROR"

namespace LogEntry

/-- A peer that cannot be linked is an error and an undelivered notification a warning. -/
def level : LogEntry → LogLevel
  | linkFailed _ _ => .error
  | failureNotSent _ _ | successNotSent _ _ | removalNotSent _ _ | resultsNotSent _ _ => .warn
  | _ => .debug

def message : LogEntry → String
  | rejecting _ _ _ => "rejecting subscription, slot occupied"
  | failureNotSent _ fault => "failed to send register failure: " ++ fault.message
  | linkFailed _ fault => "link_to_death failed: " ++ fault.message
  | successNotSent _ fault => "failed to send register success: " ++ fault.message
  | unlinkAfterFailedAck _ fault => "unlink after failed ack: " ++ fault.message
  | activated _ _ => "subscription active"
  | removalNotSent _ fault => "failed to send removal: " ++ fault.message
  | unregistered _ => "subscription unregistered"
  | delivering _ _ => "delivering scan results"
  | resultsNotSent _ fault => "failed to deliver scan results: " ++ fault.message
  | staleNotice _ _ => "ignoring stale peer death"
  | peerLost _ => "peer lost, retiring subscription"
  | unlinkFailed _ fault => "unlink_to_death: " ++ fault.message
  | peerDied _ _ => "peer died"

def fields : LogEntry → List (String × String)
  | rejecting owner active reason =>
      [("owner", owner.text), ("active_owner", active.text), ("reason", reason.report)]
  | activated owner generation =>
      [("owner", owner.text), ("generation", toString generation)]
  | delivering owner matched => [("owner", owner.text), ("matched", toString matched)]
  | staleNotice stale current =>
      [("stale", toString stale), ("current", toString current)]
  | peerDied name hooks => [("peer", name), ("hooks", toString hooks)]
  | failureNotSent owner _ | linkFailed owner _ | successNotSent owner _
  | unlinkAfterFailedAck owner _ | removalNotSent owner _ | unregistered owner
  | resultsNotSent owner _ | peerLost owner | unlinkFailed owner _ => [("owner", owner.text)]

end LogEntry
end ScanSlot
