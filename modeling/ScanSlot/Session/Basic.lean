import ScanSlot.Session.Input
import ScanSlot.World.Operation

/-! A world whose registries, peers and callbacks have names. A name used again stands for the
newer one; what an older peer or registry does is still felt by those that hold it. -/
namespace ScanSlot

/-- Names with the positions they stand for. -/
abbrev Directory := List (String × Nat)

namespace Directory

def find? (d : Directory) (name : String) : Option Nat :=
  d.lookup name

def erase (d : Directory) (name : String) : Directory :=
  d.filter (·.1 != name)

def put (d : Directory) (name : String) (index : Nat) : Directory :=
  d.erase name ++ [(name, index)]

/-- All positions in the order of their names. -/
def inOrder (d : Directory) : List Nat :=
  (SortedSet.ofList (d.map (·.1))).toList.filterMap d.find?

end Directory

structure Session where
  world : World := {}
  registries : Directory := []
  peers : Directory := []
  callbacks : Directory := []

namespace Session

abbrev Step (α : Type) := StateM Session α

def inWorld {α : Type} (f : World → α × World) : Step α :=
  modifyGet fun s =>
    let (a, world) := f s.world
    (a, { s with world })

/-- The station of a registry, made at its first use. -/
def station (name : String) : Step Nat := do
  match (← get).registries.find? name with
  | some index => return index
  | none =>
      let index ← inWorld World.addStation
      modify fun s => { s with registries := s.registries.put name index }
      return index

def registry (name : String) : Step Registry := do
  let index ← station name
  return (← get).world.registry index

def addPeer (id : String) (peer : Peer) : Step PeerRef := do
  let ref ← inWorld (World.addPeer peer)
  modify fun s => { s with peers := s.peers.put id ref.index }
  return ref

def findPeer (id : String) : Step (Option PeerRef) := do
  let s ← get
  return do
    let index ← s.peers.find? id
    let peer ← s.world.peers[index]?
    return ⟨index, peer.report⟩

/-- A death on another thread leaves no entry in this thread's journal. -/
def kill (peer : PeerRef) (elsewhere : Bool) : Step Unit :=
  inWorld fun w =>
    let killed := w.kill peer.index
    ((), if elsewhere then { killed with journal := w.journal } else killed)

/-- Fires one stored hook of a scripted peer and tells whether there was one. -/
def fire (peer : PeerRef) (link : Nat) : Step Bool :=
  inWorld fun w => w.fireStored peer.index link

def unlink (peer : PeerRef) (link : Nat) : Step (Except Fault Unit) :=
  inWorld (World.unlink peer.index link)

/-- Takes what a callback holds; a closed one has nothing to take from. -/
def drain (id : String) : Step (Option (List Event)) := do
  match (← get).callbacks.find? id with
  | none => return none
  | some index => return some (← inWorld (World.drain index))

def close (id : String) : Step Bool := do
  match (← get).callbacks.find? id with
  | none => return false
  | some index =>
      inWorld fun w => ((), w.closeReceiver index)
      modify fun s => { s with callbacks := s.callbacks.erase id }
      return true

/-- The receiver that had the name before is closed. -/
def addCallback (id : String) (form : CallbackForm) : Step CallbackRef := do
  let _ ← close id
  let ref ← inWorld fun w =>
    match form with
    | .channel capacity => w.addChannel capacity
    | .scripted fails => w.addScriptedCallback id fails
  modify fun s => { s with callbacks := s.callbacks.put id ref.index }
  return ref

/-- The names are checked first, then the callback is made, then the request is put together. -/
def buildRequest (peer : PeerRef) (f : RequestForm) : Step (Except Fault Request) := do
  match f.ssids.mapM RawSsid.build with
  | .error fault => return .error fault
  | .ok ssids =>
      let callback ← addCallback f.callback f.form
      return Request.ofTargets f.owner peer callback ssids f.frequencies

def subscribe (station : Nat) (peer : PeerRef) (f : RequestForm) : Step (Except Fault Bool) := do
  match ← buildRequest peer f with
  | .error fault => return .error fault
  | .ok request => return .ok (← inWorld (World.perform station (·.subscribe request)))

def unsubscribe (station : Nat) (owner : Owner) : Step Bool :=
  inWorld (World.perform station (·.unsubscribe owner))

/-- A batch with a name that is too long is not delivered at all. -/
def deliver (station : Nat) (batch : List RawResult) : Step (Except Fault Unit) := do
  match batch.mapM RawResult.build with
  | .error fault => return .error fault
  | .ok results =>
      inWorld (World.perform station fun r => do return (.ok (), ← r.deliver results))

def peerLost (station generation : Nat) : Step Unit :=
  inWorld (World.perform station fun r => do return ((), ← r.peerLost generation))

/-- Puts a new registry in the place of the old one. -/
def replace (name : String) : Step Unit := do
  let old ← station name
  inWorld fun w => ((), w.close old)
  let index ← inWorld World.addStation
  modify fun s => { s with registries := s.registries.put name index }

def call (station : Nat) (command : Command) : Step (Except Fault Reply) :=
  inWorld (World.tell station (.command command))

/-- Queues the batches one after another up to the first that cannot be. -/
def deliverMany (station : Nat) : List (List RawResult) → Step (Except Fault Unit)
  | [] => return .ok ()
  | batch :: rest => do
      match batch.mapM RawResult.build with
      | .error fault => return .error fault
      | .ok results =>
          match ← call station (.deliver results) with
          | .error fault => return .error fault
          | .ok _ => deliverMany station rest

def shutdown (station : Nat) : Step Unit := do
  let _ ← inWorld (World.tell station .shutdown)
  return ()

/-- Drops all registries in the order of their names. -/
def finish : Step Unit := do
  for index in (← get).registries.inOrder do
    inWorld fun w => ((), w.close index)

/-- Takes the entries made since the last time. -/
def takeJournal : Step (List LogEntry) :=
  inWorld fun w => (w.journal, { w with journal := [] })

def linked (s : Session) : List (String × Nat) :=
  s.peers.filterMap fun (id, index) =>
    (s.world.peers[index]?).map fun peer => (id, peer.hookCount)

end Session
end ScanSlot
