import ScanSlot.Channel
import ScanSlot.Script.Callback
import ScanSlot.Peer.InProcess
import ScanSlot.Script.Peer
import ScanSlot.Registry.Basic

/-! Registries that share peers and callbacks. A death hook belongs to the registry it was linked
for and only posts a notice to that registry's inbox. -/
namespace ScanSlot

/-- Posts a notice of its generation to its station. -/
structure DeathHook where
  station : Nat
  generation : Nat
  deriving DecidableEq, Repr

inductive Peer where
  | inProcess (peer : InProcessPeer DeathHook)
  | scripted (peer : ScriptedPeer DeathHook)

namespace Peer

def report : Peer → String
  | inProcess p => p.report
  | scripted p => p.report

def hookCount : Peer → Nat
  | inProcess p => p.hookCount
  | scripted p => p.hooks.length

end Peer

inductive Callback where
  | channel (channel : Channel Event)
  | scripted (callback : ScriptedCallback)

/-- A registry with the inbox its hooks post to. A closed station keeps no notices. -/
structure Station where
  registry : Registry := {}
  inbox : List Nat := []
  isOpen : Bool := true

structure World where
  stations : List Station := []
  peers : List Peer := []
  callbacks : List Callback := []
  channelsMade : Nat := 0
  journal : List LogEntry := []

def Station.post (generation : Nat) (s : Station) : Station :=
  if s.isOpen then { s with inbox := s.inbox ++ [generation] } else s

namespace World

def log (entry : LogEntry) (w : World) : World :=
  { w with journal := w.journal ++ [entry] }

def setPeer (index : Nat) (peer : Peer) (w : World) : World :=
  { w with peers := w.peers.set index peer }

def setCallback (index : Nat) (callback : Callback) (w : World) : World :=
  { w with callbacks := w.callbacks.set index callback }

def modifyStation (index : Nat) (f : Station → Station) (w : World) : World :=
  { w with stations := w.stations.modify index f }

def fire (hook : DeathHook) (w : World) : World :=
  w.modifyStation hook.station (Station.post hook.generation)

def fireAll (hooks : List DeathHook) (w : World) : World :=
  hooks.foldl (fun w hook => w.fire hook) w

def link (index : Nat) (hook : DeathHook) (w : World) : Except Fault Nat × World :=
  match w.peers[index]? with
  | none => (.error .peerDead, w)
  | some (.inProcess p) =>
      let (answer, p) := p.link hook
      (answer, w.setPeer index (.inProcess p))
  | some (.scripted p) =>
      let (answer, fired, p) := p.link hook
      (answer, (w.setPeer index (.scripted p)).fireAll fired.toList)

def unlink (index link : Nat) (w : World) : Except Fault Unit × World :=
  match w.peers[index]? with
  | none => (.error (.notLinked link), w)
  | some (.inProcess p) =>
      let (answer, p) := p.unlink link
      (answer, w.setPeer index (.inProcess p))
  | some (.scripted p) =>
      let (answer, p) := p.unlink link
      (answer, w.setPeer index (.scripted p))

def notify (index : Nat) (event : Event) (w : World) : Except Fault Unit × World :=
  match w.callbacks[index]? with
  | none => (.error .peerUnreachable, w)
  | some (.channel c) =>
      let (answer, c) := c.send event
      (answer, w.setCallback index (.channel c))
  | some (.scripted c) =>
      let (answer, c) := c.notify event
      (answer, w.setCallback index (.scripted c))

end World
end ScanSlot
