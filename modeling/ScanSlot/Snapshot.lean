import ScanSlot.Scan

/-! A copy of the active subscription for reports: who holds it, what it waits for, and how many
batches it has examined. -/
namespace ScanSlot

structure Snapshot where
  owner : Owner
  peer : String
  callback : String
  names : List String
  frequencies : List Frequency
  cycles : UInt64
  deriving DecidableEq, Repr

def Snapshot.report (s : Snapshot) : String :=
  Report.record "SubscriptionSnapshot"
    [("owner", s.owner.report), ("peer", Report.quote s.peer),
      ("callback", Report.quote s.callback),
      ("target_names", Report.sequence (s.names.map Report.quote)),
      ("target_frequencies", Report.sequence (s.frequencies.map Frequency.report)),
      ("delivery_cycles", toString s.cycles.toNat)]

end ScanSlot
