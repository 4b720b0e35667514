import ScanSlot.Worker.Basic
import ScanSlot.World.Basic

/-! What can happen in a world: an operation on one of its registries, directly or through its
worker, the death of a peer, and the arrival of registries, peers and callbacks. -/
namespace ScanSlot.World

def takeInbox (station : Nat) (w : World) : List Nat × World :=
  (((w.stations[station]?).map (·.inbox)).getD [],
    w.modifyStation station fun s => { s with inbox := [] })

/-- The world as the registry of one station meets it. -/
def host (station : Nat) : Host World where
  link peer generation := link peer.index ⟨station, generation⟩
  unlink peer := unlink peer.index
  notify callback := notify callback.index
  log := log
  takeNotices := takeInbox station

def registry (station : Nat) (w : World) : Registry :=
  ((w.stations[station]?).map (·.registry)).getD {}

def setRegistry (station : Nat) (r : Registry) (w : World) : World :=
  w.modifyStation station fun s => { s with registry := r }

/-- Performs an operation on the registry of a station. -/
def perform {α : Type} (station : Nat) (operation : Registry → Dialogue (α × Registry))
    (w : World) : α × World :=
  let ((a, r), w) := (operation (w.registry station)).run (host station).toCollaborators w
  (a, w.setRegistry station r)

/-- Applies the notices in the inbox and tells how many there were. -/
def processInbox (station : Nat) (w : World) : Nat × World :=
  let (generations, w) := w.takeInbox station
  w.perform station fun r => do return (generations.length, ← r.applyNotices generations)

/-- Empties the slot and closes the inbox. -/
def close (station : Nat) (w : World) : World :=
  let ((), w) := w.perform station fun r => do return ((), ← r.vacate)
  w.modifyStation station fun s => { s with inbox := [], isOpen := false }

/-- Hands a message to the worker of a station; a closed station's worker has stopped. -/
def tell (station : Nat) (m : Message) (w : World) : Except Fault Reply × World :=
  let worker : Worker :=
    match w.stations[station]? with
    | some ⟨r, _, true⟩ => .running r
    | _ => .stopped
  match worker.receive (host station) m w with
  | (reply, .running r, w) => (reply, w.setRegistry station r)
  | (reply, .stopped, w) =>
      (reply, w.modifyStation station fun _ => { isOpen := false })

/-- Kills a peer. A scripted peer fires its stored hooks and lives on. -/
def kill (index : Nat) (w : World) : World :=
  match w.peers[index]? with
  | none => w
  | some (.inProcess p) =>
      match p.kill with
      | (none, p) => w.setPeer index (.inProcess p)
      | (some hooks, p) =>
          ((w.setPeer index (.inProcess p)).log (.peerDied p.name hooks.length)).fireAll hooks
  | some (.scripted p) =>
      let (hooks, p) := p.fireAll
      (w.setPeer index (.scripted p)).fireAll hooks

/-- Fires one stored hook of a scripted peer and tells whether there was one. -/
def fireStored (index link : Nat) (w : World) : Bool × World :=
  match w.peers[index]? with
  | some (.scripted p) =>
      let (hook, p) := p.fire link
      (hook.isSome, (w.setPeer index (.scripted p)).fireAll hook.toList)
  | _ => (false, w)

/-- Takes the buffered events of a channel, or the calls a scripted callback remembers. -/
def drain (index : Nat) (w : World) : List Event × World :=
  match w.callbacks[index]? with
  | none => ([], w)
  | some (.channel c) =>
      let (events, c) := c.drain
      (events, w.setCallback index (.channel c))
  | some (.scripted c) =>
      let (events, c) := c.drain
      (events, w.setCallback index (.scripted c))

/-- A scripted callback has no receiver to lose. -/
def closeReceiver (index : Nat) (w : World) : World :=
  match w.callbacks[index]? with
  | some (.channel c) => w.setCallback index (.channel c.closeReceiver)
  | _ => w

def addStation (w : World) : Nat × World :=
  (w.stations.length, { w with stations := w.stations ++ [{}] })

def addPeer (peer : Peer) (w : World) : PeerRef × World :=
  (⟨w.peers.length, peer.report⟩, { w with peers := w.peers ++ [peer] })

def channelLabel (number : Nat) : String :=
  "ChannelCallback#" ++ toString number

/-- Channels are numbered from one in the order they are made. -/
def addChannel (capacity : Nat) (w : World) : CallbackRef × World :=
  let number := w.channelsMade + 1
  (⟨w.callbacks.length, channelLabel number⟩,
    { w with callbacks := w.callbacks ++ [.channel { capacity }], channelsMade := number })

def addScriptedCallback (name : String) (fails : List Event.Kind) (w : World) :
    CallbackRef × World :=
  (⟨w.callbacks.length, "Scripted(" ++ name ++ ")"⟩,
    { w with callbacks := w.callbacks ++ [.scripted { fails }] })

end ScanSlot.World
