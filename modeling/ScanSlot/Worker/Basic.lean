import ScanSlot.Registry.Dump

/-! A worker that owns a registry and takes one message after another. Every death notice queued by
then is applied before the message, and a stopped worker answers nothing any more. How it is started
and how long a caller waits until it can hand a message over are not part of this. -/
namespace ScanSlot

inductive Command where
  | subscribe (request : Request)
  | unsubscribe (owner : Owner)
  | deliver (batch : List ScanResult)
  | dump
  | snapshot
  | names
  | frequencies

inductive Message where
  | command (command : Command)
  | shutdown

inductive Reply where
  | done
  | decided (accepted : Bool)
  | dump (text : String)
  | snapshot (view : Option Snapshot)
  | names (names : SortedSet String)
  | frequencies (frequencies : SortedSet Frequency)

def Command.handle (r : Registry) : Command → Dialogue (Reply × Registry)
  | .subscribe request => do
      let (accepted, r) ← r.subscribe request
      return (.decided accepted, r)
  | .unsubscribe owner => do
      let (accepted, r) ← r.unsubscribe owner
      return (.decided accepted, r)
  | .deliver batch => do return (.done, ← r.deliver batch)
  | .dump => return (.dump r.dump, r)
  | .snapshot => return (.snapshot r.snapshot, r)
  | .names => return (.names r.names, r)
  | .frequencies => return (.frequencies r.frequencies, r)

/-- Collaborators together with the queue on which the registry's death notices arrive. -/
structure Host (σ : Type) extends Collaborators σ where
  takeNotices : σ → List Nat × σ

inductive Worker where
  | running (registry : Registry)
  | stopped

namespace Worker
variable {σ : Type}

/-- Takes the whole queue of notices first and applies them in order. -/
def applyQueued (h : Host σ) (r : Registry) (s : σ) : Registry × σ :=
  let (generations, s) := h.takeNotices s
  (r.applyNotices generations).run h.toCollaborators s

/-- A shutdown releases the slot. -/
def receive (h : Host σ) (m : Message) (w : Worker) (s : σ) : Except Fault Reply × Worker × σ :=
  match w with
  | stopped => (.error .serviceStopped, stopped, s)
  | running r =>
      let (r, s) := applyQueued h r s
      match m with
      | .shutdown =>
          let (_, s) := r.vacate.run h.toCollaborators s
          (.ok .done, stopped, s)
      | .command command =>
          let ((reply, r), s) := (command.handle r).run h.toCollaborators s
          (.ok reply, running r, s)

end Worker
end ScanSlot
