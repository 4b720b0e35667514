import ScanSlot.Registry.View

/-! The dump of a registry for people, and its writing to a device with limited room. -/
namespace ScanSlot

/-- A device that takes bytes until it is full. -/
structure Writer where
  room : Nat
  written : List UInt8 := []
  deriving Repr

namespace Writer

/-- Takes as many bytes as still fit. -/
def write (w : Writer) (bytes : List UInt8) : Nat × Writer :=
  let taken := bytes.take (w.room - w.written.length)
  (taken.length, { w with written := w.written ++ taken })

/-- A piece that is not taken whole is a failure. -/
def writeAll (w : Writer) (bytes : List UInt8) : Except Fault Unit × Writer :=
  let (count, w) := w.write bytes
  (if count = bytes.length then .ok () else .error (.io "failed to write whole buffer"), w)

/-- Nothing is written after the first failure. -/
def writePieces (w : Writer) : List String → Except Fault Unit × Writer
  | [] => (.ok (), w)
  | piece :: rest =>
      match w.writeAll (Utf8.bytes piece) with
      | (.ok (), w) => w.writePieces rest
      | (.error fault, w) => (.error fault, w)

end Writer

/-- The line that describes an active subscription. -/
def Subscription.text (s : Subscription) : String :=
  "owner=" ++ s.owner.text ++ ", peer=" ++ s.peer.label ++ ", callback=" ++ s.callback.label
    ++ ", target_names=" ++ Report.sequence s.names.toList
    ++ ", frequencies=" ++ Report.sequence (s.frequencies.toList.map Frequency.text)

namespace Registry

def dumpLines (r : Registry) : List String :=
  ["Dump of SubscriptionRegistry", "SubscriptionRegistry - Log Begin ----"]
    ++ (match r.current with
      | some active => ["Current external scan subscription:", active.text]
      | none => ["No external scan subscription set."])
    ++ ["delivery_cycles: " ++ toString r.cycles.toNat,
      "SubscriptionRegistry - Log End ----"]

/-- The pieces in which the dump is written. -/
def dumpPieces (r : Registry) : List String :=
  r.dumpLines.flatMap fun line => [line, "\n"]

def dump (r : Registry) : String :=
  String.join r.dumpPieces

def dumpTo (r : Registry) (w : Writer) : Except Fault Unit × Writer :=
  w.writePieces r.dumpPieces

end Registry
end ScanSlot
