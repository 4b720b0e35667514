import ScanSlot.Dialogue

/-! The courses a dialogue can take. A path records every call with its answer and assumes nothing
of the collaborators; a run with actual collaborators is one of the paths. -/
namespace ScanSlot

/-- A call to a collaborator with its answer, or an entry of the log. -/
inductive Exchange where
  | link (peer : PeerRef) (generation : Nat) (answer : Except Fault Nat)
  | unlink (peer : PeerRef) (link : Nat) (answer : Except Fault Unit)
  | notify (callback : CallbackRef) (event : Event) (answer : Except Fault Unit)
  | log (entry : LogEntry)

/-- What is logged of a failure, if there is one. -/
def faultEntries {ε : Type} (entry : Fault → LogEntry) : Except Fault ε → List Exchange
  | .ok _ => []
  | .error fault => [.log (entry fault)]

namespace Dialogue
variable {α β σ : Type}

inductive Path : Dialogue α → List Exchange → α → Prop where
  | done (a : α) : Path (.done a) [] a
  | link {peer : PeerRef} {generation : Nat} {next : Except Fault Nat → Dialogue α}
      {xs : List Exchange} {a : α} (answer : Except Fault Nat) (rest : Path (next answer) xs a) :
      Path (.link peer generation next) (.link peer generation answer :: xs) a
  | unlink {peer : PeerRef} {l : Nat} {next : Except Fault Unit → Dialogue α}
      {xs : List Exchange} {a : α} (answer : Except Fault Unit) (rest : Path (next answer) xs a) :
      Path (.unlink peer l next) (.unlink peer l answer :: xs) a
  | notify {callback : CallbackRef} {event : Event} {next : Except Fault Unit → Dialogue α}
      {xs : List Exchange} {a : α} (answer : Except Fault Unit) (rest : Path (next answer) xs a) :
      Path (.notify callback event next) (.notify callback event answer :: xs) a
  | log {entry : LogEntry} {next : Dialogue α} {xs : List Exchange} {a : α}
      (rest : Path next xs a) : Path (.log entry next) (.log entry :: xs) a

theorem path_bind {d : Dialogue α} {f : α → Dialogue β} {xs : List Exchange} {b : β} :
    Path (d >>= f) xs b ↔
      ∃ first a rest, xs = first ++ rest ∧ Path d first a ∧ Path (f a) rest b := by
  change Path (d.bind f) xs b ↔ _
  constructor
  · intro path
    induction d generalizing xs with
    | done a => exact ⟨[], a, xs, rfl, .done a, path⟩
    | link peer generation next ih =>
      cases path with
      | link answer rest =>
        obtain ⟨first, a, last, rfl, head, tail⟩ := ih answer rest
        exact ⟨_, a, last, rfl, .link answer head, tail⟩
    | unlink peer l next ih =>
      cases path with
      | unlink answer rest =>
        obtain ⟨first, a, last, rfl, head, tail⟩ := ih answer rest
        exact ⟨_, a, last, rfl, .unlink answer head, tail⟩
    | notify callback event next ih =>
      cases path with
      | notify answer rest =>
        obtain ⟨first, a, last, rfl, head, tail⟩ := ih answer rest
        exact ⟨_, a, last, rfl, .notify answer head, tail⟩
    | log entry next ih =>
      cases path with
      | log rest =>
        obtain ⟨first, a, last, rfl, head, tail⟩ := ih rest
        exact ⟨_, a, last, rfl, .log head, tail⟩
  · rintro ⟨first, a, rest, rfl, head, tail⟩
    induction head with
    | done => exact tail
    | link answer _ ih => exact .link answer (ih tail)
    | unlink answer _ ih => exact .unlink answer (ih tail)
    | notify answer _ ih => exact .notify answer (ih tail)
    | log _ ih => exact .log (ih tail)

@[simp] theorem path_pure {a b : α} {xs : List Exchange} :
    Path (pure a) xs b ↔ xs = [] ∧ b = a := by
  constructor
  · intro path
    cases path
    exact ⟨rfl, rfl⟩
  · rintro ⟨rfl, rfl⟩
    exact .done b

theorem path_bind_pure {d : Dialogue α} {f : α → β} {xs : List Exchange} {b : β} :
    Path (d >>= fun a => pure (f a)) xs b ↔ ∃ a, Path d xs a ∧ b = f a := by
  simp only [path_bind, path_pure]
  constructor
  · rintro ⟨first, a, _, rfl, head, rfl, same⟩
    rw [List.append_nil]
    exact ⟨a, head, same⟩
  · rintro ⟨a, head, same⟩
    exact ⟨xs, a, [], (List.append_nil xs).symm, head, rfl, same⟩

@[simp] theorem path_callLink {peer : PeerRef} {generation : Nat} {xs : List Exchange}
    {answer : Except Fault Nat} :
    Path (callLink peer generation) xs answer ↔ xs = [.link peer generation answer] := by
  constructor
  · intro path
    cases path with
    | link _ rest =>
      cases rest
      rfl
  · rintro rfl
    exact .link answer (.done answer)

@[simp] theorem path_callUnlink {peer : PeerRef} {l : Nat} {xs : List Exchange}
    {answer : Except Fault Unit} :
    Path (callUnlink peer l) xs answer ↔ xs = [.unlink peer l answer] := by
  constructor
  · intro path
    cases path with
    | unlink _ rest =>
      cases rest
      rfl
  · rintro rfl
    exact .unlink answer (.done answer)

@[simp] theorem path_callNotify {callback : CallbackRef} {event : Event} {xs : List Exchange}
    {answer : Except Fault Unit} :
    Path (callNotify callback event) xs answer ↔ xs = [.notify callback event answer] := by
  constructor
  · intro path
    cases path with
    | notify _ rest =>
      cases rest
      rfl
  · rintro rfl
    exact .notify answer (.done answer)

@[simp] theorem path_report {entry : LogEntry} {xs : List Exchange} {u : Unit} :
    Path (report entry) xs u ↔ xs = [.log entry] := by
  constructor
  · intro path
    cases path with
    | log rest =>
      cases rest
      rfl
  · rintro rfl
    exact .log (.done ())

@[simp] theorem path_reportFault {ε : Type} {entry : Fault → LogEntry} {answer : Except Fault ε}
    {xs : List Exchange} {u : Unit} :
    Path (reportFault entry answer) xs u ↔ xs = faultEntries entry answer := by
  cases answer with
  | ok => exact path_pure.trans (and_iff_left rfl)
  | error fault => exact path_report

/-- The exchanges of a run with actual collaborators. -/
def exchanges (c : Collaborators σ) : Dialogue α → σ → List Exchange
  | done _, _ => []
  | link peer generation next, s =>
      let (answer, s) := c.link peer generation s
      .link peer generation answer :: (next answer).exchanges c s
  | unlink peer l next, s =>
      let (answer, s) := c.unlink peer l s
      .unlink peer l answer :: (next answer).exchanges c s
  | notify callback event next, s =>
      let (answer, s) := c.notify callback event s
      .notify callback event answer :: (next answer).exchanges c s
  | log entry next, s => .log entry :: next.exchanges c (c.log entry s)

theorem path_run (c : Collaborators σ) (d : Dialogue α) (s : σ) :
    Path d (d.exchanges c s) (d.run c s).1 := by
  induction d generalizing s with
  | done a => exact .done a
  | link _ _ _ ih => exact .link _ (ih _ _)
  | unlink _ _ _ ih => exact .unlink _ (ih _ _)
  | notify _ _ _ ih => exact .notify _ (ih _ _)
  | log _ _ ih => exact .log (ih _)

/-- What follows has no effect where it only hands on whatever it is given. -/
theorem bind_eq_self {d : Dialogue α} {f : α → Dialogue α}
    (idle : ∀ xs a, Path d xs a → f a = pure a) : d >>= f = d := by
  change d.bind f = d
  induction d with
  | done a => exact idle [] a (.done a)
  | link peer generation next ih =>
    rw [bind]
    exact congrArg _ (funext fun answer => ih answer fun xs a path => idle _ a (.link answer path))
  | unlink peer l next ih =>
    rw [bind]
    exact congrArg _ (funext fun answer => ih answer fun xs a path => idle _ a (.unlink answer path))
  | notify callback event next ih =>
    rw [bind]
    exact congrArg _ (funext fun answer => ih answer fun xs a path => idle _ a (.notify answer path))
  | log entry next ih =>
    rw [bind]
    exact congrArg _ (ih fun xs a path => idle _ a (.log path))

end Dialogue

namespace Collaborators
variable {α σ : Type}

/-- The collaborators give these answers one after another and end in the second state. -/
inductive Plays (c : Collaborators σ) : List Exchange → σ → σ → Prop where
  | nil (s : σ) : Plays c [] s s
  | link {peer : PeerRef} {generation : Nat} {answer : Except Fault Nat} {xs : List Exchange}
      {s t u : σ} (call : c.link peer generation s = (answer, t)) (rest : Plays c xs t u) :
      Plays c (.link peer generation answer :: xs) s u
  | unlink {peer : PeerRef} {l : Nat} {answer : Except Fault Unit} {xs : List Exchange}
      {s t u : σ} (call : c.unlink peer l s = (answer, t)) (rest : Plays c xs t u) :
      Plays c (.unlink peer l answer :: xs) s u
  | notify {callback : CallbackRef} {event : Event} {answer : Except Fault Unit}
      {xs : List Exchange} {s t u : σ} (call : c.notify callback event s = (answer, t))
      (rest : Plays c xs t u) : Plays c (.notify callback event answer :: xs) s u
  | log {entry : LogEntry} {xs : List Exchange} {s u : σ}
      (rest : Plays c xs (c.log entry s) u) : Plays c (.log entry :: xs) s u

theorem plays_exchanges (c : Collaborators σ) (d : Dialogue α) (s : σ) :
    c.Plays (d.exchanges c s) s (d.run c s).2 := by
  induction d generalizing s with
  | done => exact .nil s
  | link _ _ _ ih => exact .link rfl (ih _ _)
  | unlink _ _ _ ih => exact .unlink rfl (ih _ _)
  | notify _ _ _ ih => exact .notify rfl (ih _ _)
  | log _ _ ih => exact .log (ih _)

/-- An answer in the record was given by the callback. -/
theorem Plays.answered {c : Collaborators σ} {xs : List Exchange} {s u : σ}
    (plays : c.Plays xs s u) {callback : CallbackRef} {event : Event}
    {answer : Except Fault Unit} (said : .notify callback event answer ∈ xs) :
    ∃ t, (c.notify callback event t).1 = answer := by
  induction plays with
  | nil => contradiction
  | link _ _ ih | unlink _ _ ih | log _ ih => exact ih (by simpa using said)
  | @notify _ _ _ _ s _ _ call _ ih =>
    rcases List.mem_cons.mp said with same | said
    · obtain ⟨rfl, rfl, rfl⟩ := Exchange.notify.inj same
      exact ⟨s, congrArg Prod.fst call⟩
    · exact ih said

theorem Plays.split {c : Collaborators σ} (xs : List Exchange) {ys : List Exchange} {s u : σ}
    (plays : c.Plays (xs ++ ys) s u) : ∃ t, c.Plays xs s t ∧ c.Plays ys t u := by
  induction xs generalizing s with
  | nil => exact ⟨s, .nil s, plays⟩
  | cons x xs ih =>
    cases plays with
    | link call rest =>
      obtain ⟨t, first, last⟩ := ih rest
      exact ⟨t, .link call first, last⟩
    | unlink call rest =>
      obtain ⟨t, first, last⟩ := ih rest
      exact ⟨t, .unlink call first, last⟩
    | notify call rest =>
      obtain ⟨t, first, last⟩ := ih rest
      exact ⟨t, .notify call first, last⟩
    | log rest =>
      obtain ⟨t, first, last⟩ := ih rest
      exact ⟨t, .log first, last⟩

end Collaborators
end ScanSlot
