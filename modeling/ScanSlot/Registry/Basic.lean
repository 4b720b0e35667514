import ScanSlot.Dialogue
import ScanSlot.Snapshot

/-! The registry: one slot for one subscription. A subscription enters by a subscribe whose link
and acknowledgement succeed; it leaves by its owner's wish, by its first matching batch or by the
loss of its peer, and its link is released on the way out whatever the callback answers. -/
namespace ScanSlot

/-- A request to occupy the slot; it targets at least one name. -/
structure Request where
  owner : Owner
  peer : PeerRef
  callback : CallbackRef
  names : SortedSet String
  frequencies : SortedSet Frequency
  names_ne : names.toList ≠ []

namespace Request

/-- The lists act as sets. -/
def ofTargets (owner : Owner) (peer : PeerRef) (callback : CallbackRef) (ssids : List Ssid)
    (frequencies : List Frequency) : Except Fault Request :=
  if empty : ssids = [] then .error .emptyTargets
  else .ok {
    owner, peer, callback
    names := SortedSet.ofList (ssids.map Ssid.canonical)
    frequencies := SortedSet.ofList frequencies
    names_ne := SortedSet.toList_ofList_ne_nil (by simpa using empty) }

def report (q : Request) : String :=
  Report.record "SubscribeRequest"
    [("owner", q.owner.report), ("peer", q.peer.label), ("callback", q.callback.label),
      ("target_names", Report.set (q.names.toList.map Report.quote)),
      ("target_frequencies", Report.set (q.frequencies.toList.map Frequency.report))]

end Request

structure Subscription where
  owner : Owner
  peer : PeerRef
  link : Nat
  /-- Which attempt it came of; see `Registry`. -/
  generation : Nat
  callback : CallbackRef
  names : SortedSet String
  frequencies : SortedSet Frequency

/-- Only the name decides; frequencies are informational. -/
def Subscription.wants (s : Subscription) (result : ScanResult) : Bool :=
  result.ssid.canonical ∈ s.names

/-- Generations are kept in 64 bits, and fewer than `2 ^ 64` subscribe attempts are meant to be made,
so that none is used again. -/
structure Registry where
  current : Option Subscription := none
  /-- Batches examined while the subscription in the slot was active. -/
  cycles : UInt64 := 0
  /-- The generation of the next subscribe attempt that finds the slot empty; it is used up even if the
  attempt fails. -/
  nextGeneration : Nat := 1

namespace Registry

open Dialogue (callLink callUnlink callNotify report reportFault)

/-- Nothing in the slot and nothing counted on it. -/
def emptied (r : Registry) : Registry :=
  { r with current := none, cycles := 0 }

/-- Empties the slot and releases the link. The callback goes with the subscription, which nobody is
told. -/
def vacate (r : Registry) : Dialogue Registry :=
  match r.current with
  | none => return r.emptied
  | some active => do
      reportFault (.unlinkFailed active.owner) (← callUnlink active.peer active.link)
      return r.emptied

/-- Tells the requester why the slot cannot be had. -/
def reject (active : Subscription) (q : Request) : Dialogue Unit := do
  let reason : Rejection :=
    if active.owner = q.owner then .alreadyRegistered else .resourceBusy
  report (.rejecting q.owner active.owner reason)
  reportFault (.failureNotSent q.owner) (← callNotify q.callback (.registerFailed reason))

/-- Tries to occupy the empty slot. -/
def occupy (r : Registry) (q : Request) : Dialogue (Bool × Registry) := do
  let generation := r.nextGeneration
  let r := { r with nextGeneration := generation + 1 }
  match ← callLink q.peer generation with
  | .error fault =>
      report (.linkFailed q.owner fault)
      return (false, r)
  | .ok link =>
      match ← callNotify q.callback .registerSuccess with
      | .error fault =>
          report (.successNotSent q.owner fault)
          reportFault (.unlinkAfterFailedAck q.owner) (← callUnlink q.peer link)
          return (false, r)
      | .ok () =>
          report (.activated q.owner generation)
          let subscription : Subscription :=
            { owner := q.owner, peer := q.peer, link, generation, callback := q.callback,
              names := q.names, frequencies := q.frequencies }
          return (true, { r with current := some subscription })

def subscribe (r : Registry) (q : Request) : Dialogue (Bool × Registry) :=
  match r.current with
  | some active => do
      reject active q
      return (false, r)
  | none => r.occupy q

/-- Only the owner of the slot can give it up. -/
def unsubscribe (r : Registry) (owner : Owner) : Dialogue (Bool × Registry) :=
  match r.current with
  | none => return (false, r)
  | some active =>
      if active.owner = owner then do
        reportFault (.removalNotSent owner)
          (← callNotify active.callback (.removed .unregistered))
        report (.unregistered owner)
        return (true, ← r.vacate)
      else return (false, r)

/-- The removal is announced only after the results have arrived. -/
def announce (active : Subscription) (matched : List ScanResult) :
    Dialogue (Except Fault Unit) := do
  match ← callNotify active.callback (.scanResultsAvailable matched) with
  | .error fault => return .error fault
  | .ok () => callNotify active.callback (.removed .resultsDelivered)

/-- The first batch with a match ends the subscription; any other leaves it waiting. -/
def deliver (r : Registry) (batch : List ScanResult) : Dialogue Registry :=
  match r.current with
  | none => return r
  | some active =>
      let r := { r with cycles := r.cycles + 1 }
      let matched := batch.filter active.wants
      if matched.isEmpty then return r
      else do
        report (.delivering active.owner matched.length)
        reportFault (.resultsNotSent active.owner) (← announce active matched)
        r.vacate

/-- A notice of another generation is left over from an earlier attempt and changes nothing. -/
def peerLost (r : Registry) (generation : Nat) : Dialogue Registry :=
  match r.current with
  | none => return r
  | some active =>
      if active.generation = generation then do
        report (.peerLost active.owner)
        r.vacate
      else do
        report (.staleNotice generation active.generation)
        return r

def applyNotices (r : Registry) (generations : List Nat) : Dialogue Registry :=
  generations.foldlM peerLost r

end Registry
end ScanSlot
