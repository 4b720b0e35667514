import ScanSlot.Log

/-! A computation that calls peers and callbacks. It is kept as a tree whose branches are the
possible answers, so a statement about all paths holds whatever the collaborators do. -/
namespace ScanSlot

/-- A peer as its subscribers hold it: which one it is and how reports name it. -/
structure PeerRef where
  index : Nat
  label : String
  deriving DecidableEq, Repr

/-- A callback as the registry holds it. -/
structure CallbackRef where
  index : Nat
  label : String
  deriving DecidableEq, Repr

inductive Dialogue (α : Type) where
  | done (result : α)
  /-- Links a hook that posts a notice of the given generation. -/
  | link (peer : PeerRef) (generation : Nat) (next : Except Fault Nat → Dialogue α)
  | unlink (peer : PeerRef) (link : Nat) (next : Except Fault Unit → Dialogue α)
  | notify (callback : CallbackRef) (event : Event) (next : Except Fault Unit → Dialogue α)
  | log (entry : LogEntry) (next : Dialogue α)

namespace Dialogue
variable {α β σ : Type}

def bind (d : Dialogue α) (f : α → Dialogue β) : Dialogue β :=
  match d with
  | done a => f a
  | link peer generation next => link peer generation fun answer => (next answer).bind f
  | unlink peer l next => unlink peer l fun answer => (next answer).bind f
  | notify callback event next => notify callback event fun answer => (next answer).bind f
  | log entry next => log entry (next.bind f)

instance : Monad Dialogue where
  pure := done
  bind := bind

theorem bind_done (d : Dialogue α) : d.bind done = d := by
  induction d with
  | done => rfl
  | link _ _ _ ih => simp only [bind, ih]
  | unlink _ _ _ ih => simp only [bind, ih]
  | notify _ _ _ ih => simp only [bind, ih]
  | log _ _ ih => simp only [bind, ih]

theorem bind_assoc {γ : Type} (d : Dialogue α) (f : α → Dialogue β) (g : β → Dialogue γ) :
    (d.bind f).bind g = d.bind fun a => (f a).bind g := by
  induction d with
  | done => rfl
  | link _ _ _ ih => simp only [bind, ih]
  | unlink _ _ _ ih => simp only [bind, ih]
  | notify _ _ _ ih => simp only [bind, ih]
  | log _ _ ih => simp only [bind, ih]

instance : LawfulMonad Dialogue :=
  LawfulMonad.mk' Dialogue bind_done (fun _ _ => rfl) bind_assoc

def callLink (peer : PeerRef) (generation : Nat) : Dialogue (Except Fault Nat) :=
  link peer generation done

def callUnlink (peer : PeerRef) (l : Nat) : Dialogue (Except Fault Unit) :=
  unlink peer l done

def callNotify (callback : CallbackRef) (event : Event) : Dialogue (Except Fault Unit) :=
  notify callback event done

def report (entry : LogEntry) : Dialogue Unit :=
  log entry (done ())

/-- Reports a failure, if there is one. -/
def reportFault {ε : Type} (entry : Fault → LogEntry) : Except Fault ε → Dialogue Unit
  | .ok _ => done ()
  | .error fault => report (entry fault)

end Dialogue

/-- How peers, callbacks and the log behave, over a state of their own. -/
structure Collaborators (σ : Type) where
  link : PeerRef → Nat → σ → Except Fault Nat × σ
  unlink : PeerRef → Nat → σ → Except Fault Unit × σ
  notify : CallbackRef → Event → σ → Except Fault Unit × σ
  log : LogEntry → σ → σ

def Dialogue.run {α σ : Type} (c : Collaborators σ) : Dialogue α → σ → α × σ
  | done a, s => (a, s)
  | link peer generation next, s =>
      let (answer, s) := c.link peer generation s
      (next answer).run c s
  | unlink peer l next, s =>
      let (answer, s) := c.unlink peer l s
      (next answer).run c s
  | notify callback event next, s =>
      let (answer, s) := c.notify callback event s
      (next answer).run c s
  | log entry next, s => next.run c (c.log entry s)

theorem Dialogue.run_bind {α β σ : Type} (c : Collaborators σ) (d : Dialogue α)
    (f : α → Dialogue β) (s : σ) :
    (d >>= f).run c s = (f (d.run c s).1).run c (d.run c s).2 := by
  change (d.bind f).run c s = _
  induction d generalizing s with
  | done => rfl
  | link _ _ _ ih => simp only [bind, run, ih]
  | unlink _ _ _ ih => simp only [bind, run, ih]
  | notify _ _ _ ih => simp only [bind, run, ih]
  | log _ _ ih => simp only [bind, run, ih]

end ScanSlot
