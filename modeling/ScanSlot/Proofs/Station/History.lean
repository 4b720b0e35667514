import ScanSlot.Proofs.Station.Notices
import ScanSlot.Proofs.Registry.Course

/-! A registry over time: the operations it performs one after another, the calls each of them
makes, and the notices that death hooks post meanwhile. Nothing is assumed of the answers. -/
namespace ScanSlot

open Dialogue (Path path_bind_pure)

inductive Operation where
  | subscribe (request : Request)
  | unsubscribe (owner : Owner)
  | deliver (batch : List ScanResult)
  | peerLost (generation : Nat)
  | process
  | close

inductive Outcome where
  | done
  | decided (accepted : Bool)
  | counted (notices : Nat)
  deriving DecidableEq

namespace Operation

/-- Processing takes the whole inbox before it does anything else. -/
def begin (s : Station) : Operation → Station
  | process => { s with inbox := [] }
  | _ => s

def ask (s : Station) : Operation → Dialogue (Outcome × Registry)
  | subscribe request => do
      let (accepted, r) ← s.registry.subscribe request
      return (.decided accepted, r)
  | unsubscribe owner => do
      let (accepted, r) ← s.registry.unsubscribe owner
      return (.decided accepted, r)
  | deliver batch => do return (.done, ← s.registry.deliver batch)
  | peerLost generation => do return (.done, ← s.registry.peerLost generation)
  | process => do return (.counted s.inbox.length, ← s.registry.applyNotices s.inbox)
  | close => do return (.done, ← s.registry.vacate)

def finish (r : Registry) (s : Station) : Operation → Station
  | close => { registry := r, inbox := [], isOpen := false }
  | _ => { s with registry := r }

inductive Course (s : Station) : Operation → List Exchange → Outcome → Registry → Prop where
  | subscribe {request : Request} {xs : List Exchange} {accepted : Bool} {r : Registry}
      (course : s.registry.Subscribes request xs accepted r) :
      Course s (.subscribe request) xs (.decided accepted) r
  | unsubscribe {owner : Owner} {xs : List Exchange} {accepted : Bool} {r : Registry}
      (course : s.registry.Unsubscribes owner xs accepted r) :
      Course s (.unsubscribe owner) xs (.decided accepted) r
  | deliver {batch : List ScanResult} {xs : List Exchange} {r : Registry}
      (course : s.registry.Delivers batch xs r) : Course s (.deliver batch) xs .done r
  | peerLost {generation : Nat} {xs : List Exchange} {r : Registry}
      (course : s.registry.Loses generation xs r) : Course s (.peerLost generation) xs .done r
  | process {xs : List Exchange} {r : Registry} (course : s.registry.Absorbs s.inbox xs r) :
      Course s .process xs (.counted s.inbox.length) r
  | close {xs : List Exchange} {r : Registry} (course : s.registry.Vacates xs r) :
      Course s .close xs .done r

/-- No operation leaves an empty slot with something counted on it. -/
theorem Course.cleared {s : Station} {op : Operation} {xs : List Exchange} {out : Outcome}
    {r : Registry} (course : Course s op xs out r) (cleared : s.registry.Cleared) : r.Cleared := by
  cases course with
  | subscribe course => exact course.cleared cleared
  | unsubscribe course => exact course.cleared cleared
  | deliver course => exact course.cleared cleared
  | peerLost course => exact course.cleared cleared
  | process course => exact course.cleared cleared
  | close course => exact course.cleared

theorem path_ask {s : Station} {op : Operation} {xs : List Exchange} {out : Outcome}
    {r : Registry} : Path (op.ask s) xs (out, r) ↔ Course s op xs out r := by
  constructor
  · intro path
    cases op with
    | subscribe request =>
      obtain ⟨⟨accepted, r⟩, course, ⟨⟩⟩ := path_bind_pure.mp path
      exact .subscribe (Registry.path_subscribe.mp course)
    | unsubscribe owner =>
      obtain ⟨⟨accepted, r⟩, course, ⟨⟩⟩ := path_bind_pure.mp path
      exact .unsubscribe (Registry.path_unsubscribe.mp course)
    | deliver batch =>
      obtain ⟨r, course, ⟨⟩⟩ := path_bind_pure.mp path
      exact .deliver (Registry.path_deliver.mp course)
    | peerLost generation =>
      obtain ⟨r, course, ⟨⟩⟩ := path_bind_pure.mp path
      exact .peerLost (Registry.path_peerLost.mp course)
    | process =>
      obtain ⟨r, course, ⟨⟩⟩ := path_bind_pure.mp path
      exact .process (Registry.path_applyNotices.mp course)
    | close =>
      obtain ⟨r, course, ⟨⟩⟩ := path_bind_pure.mp path
      exact .close (Registry.path_vacate.mp course)
  · intro course
    cases course with
    | subscribe course =>
      exact path_bind_pure.mpr ⟨_, Registry.path_subscribe.mpr course, rfl⟩
    | unsubscribe course =>
      exact path_bind_pure.mpr ⟨_, Registry.path_unsubscribe.mpr course, rfl⟩
    | deliver course => exact path_bind_pure.mpr ⟨_, Registry.path_deliver.mpr course, rfl⟩
    | peerLost course => exact path_bind_pure.mpr ⟨_, Registry.path_peerLost.mpr course, rfl⟩
    | process course => exact path_bind_pure.mpr ⟨_, Registry.path_applyNotices.mpr course, rfl⟩
    | close course => exact path_bind_pure.mpr ⟨_, Registry.path_vacate.mpr course, rfl⟩

end Operation

/-- An operation with the registry it met and the one it left. The notices are those that hooks
post from its beginning until the next operation begins. -/
structure Turn where
  operation : Operation
  before : Registry
  exchanges : List Exchange
  outcome : Outcome
  after : Registry
  posted : List Nat

namespace Station

@[simp] theorem registry_finish (op : Operation) (r : Registry) (s : Station) :
    (op.finish r s).registry = r := by
  cases op <;> rfl

/-- One turn of an open station. -/
inductive Takes : Station → Turn → Station → Prop where
  | intro {s : Station} {op : Operation} {xs : List Exchange} {out : Outcome} {r : Registry}
      (opened : s.isOpen = true) (path : Path (op.ask s) xs (out, r)) (posted : List Nat) :
      Takes s ⟨op, s.registry, xs, out, r, posted⟩ (op.finish r ((op.begin s).postAll posted))

theorem Takes.of_course {s : Station} (op : Operation) {xs : List Exchange} {out : Outcome}
    {r : Registry} (course : op.Course s xs out r) (opened : s.isOpen = true)
    (posted : List Nat) :
    Takes s ⟨op, s.registry, xs, out, r, posted⟩ (op.finish r ((op.begin s).postAll posted)) :=
  .intro opened (Operation.path_ask.mpr course) posted

inductive Runs : Station → List Turn → Station → Prop where
  | nil (s : Station) : Runs s [] s
  | cons {s t u : Station} {turn : Turn} {turns : List Turn} (takes : Takes s turn t)
      (rest : Runs t turns u) : Runs s (turn :: turns) u

theorem Takes.after_eq {s t : Station} {turn : Turn} (takes : Takes s turn t) :
    t.registry = turn.after := by
  cases takes
  exact registry_finish _ _ _

theorem Takes.course {s t : Station} {turn : Turn} (takes : Takes s turn t) :
    turn.operation.Course s turn.exchanges turn.outcome turn.after := by
  cases takes with
  | intro _ path => exact Operation.path_ask.mp path

theorem Takes.cleared {s t : Station} {turn : Turn} (takes : Takes s turn t)
    (cleared : s.registry.Cleared) : t.registry.Cleared := by
  rw [takes.after_eq]
  exact takes.course.cleared cleared

theorem Runs.cleared {s t : Station} {turns : List Turn} (runs : Runs s turns t)
    (cleared : s.registry.Cleared) : t.registry.Cleared := by
  induction runs with
  | nil => exact cleared
  | cons takes _ ih => exact ih (takes.cleared cleared)

/-- Nothing is counted on an empty slot at the end of any run. -/
theorem cleared_of_runs {s : Station} {turns : List Turn} (runs : Runs {} turns s) :
    s.registry.Cleared :=
  runs.cleared fun _ => rfl

end Station
end ScanSlot
