/-! Why an operation of the registry or of one of its collaborators can fail. -/
namespace ScanSlot

inductive Fault where
  | io (detail : String)
  | invalidSsid (detail : String)
  | emptyTargets
  | peerDead
  | notLinked (link : Nat)
  | peerUnreachable
  | callbackBufferFull
  | serviceStopped
  | serialization (detail : String)
  deriving DecidableEq, Repr

def Fault.message : Fault → String
  | .io detail => "IO error: " ++ detail
  | .invalidSsid detail => "Invalid SSID: " ++ detail
  | .emptyTargets => "Subscription must target at least one SSID"
  | .peerDead => "Peer is already dead"
  | .notLinked link => "Death hook not linked: " ++ toString link
  | .peerUnreachable => "Peer unreachable"
  | .callbackBufferFull => "Callback buffer full"
  | .serviceStopped => "Registry service stopped"
  | .serialization detail => "Serialization error: " ++ detail

end ScanSlot
