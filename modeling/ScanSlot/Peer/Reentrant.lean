import ScanSlot.Peer.InProcess

/-! Death hooks that act on the very peer whose death fires them. The peer is dead and its table
empty by then, so such a hook can neither link anything nor find anything to fire. -/
namespace ScanSlot.Reentrant

mutual

inductive Hook where
  | mk (tag : String) (acts : List Act)

inductive Act where
  | link (hook : Hook)
  | unlink (link : Nat)
  /-- Kills the peer and asks whether it is alive. -/
  | kill
  | count

end

inductive Outcome where
  | linked (link : Nat)
  | unlinked
  | refused (fault : Fault)
  | alive (answer : Bool)
  | count (linked : Nat)
  deriving DecidableEq, Repr

abbrev Peer := InProcessPeer Hook

def Act.perform (p : Peer) : Act → Outcome × Peer
  | .link hook =>
      match p.link hook with
      | (.ok id, p) => (.linked id, p)
      | (.error fault, p) => (.refused fault, p)
  | .unlink id =>
      match p.unlink id with
      | (.ok (), p) => (.unlinked, p)
      | (.error fault, p) => (.refused fault, p)
  | .kill =>
      let p := p.kill.2
      (.alive p.alive, p)
  | .count => (.count p.hookCount, p)

def performAll (p : Peer) : List Act → List Outcome × Peer
  | [] => ([], p)
  | act :: rest =>
      let (outcome, p) := act.perform p
      let (outcomes, p) := performAll p rest
      (outcome :: outcomes, p)

/-- What a hook saw when it was fired. -/
structure Firing where
  tag : String
  outcomes : List Outcome
  deriving DecidableEq, Repr

def fireAll (p : Peer) : List Hook → List Firing × Peer
  | [] => ([], p)
  | .mk tag acts :: rest =>
      let (outcomes, p) := performAll p acts
      let (firings, p) := fireAll p rest
      (⟨tag, outcomes⟩ :: firings, p)

/-- Kills the peer and fires what it takes. -/
def kill (p : Peer) : List Firing × Peer :=
  let (taken, p) := p.kill
  fireAll p (taken.getD [])

end ScanSlot.Reentrant
