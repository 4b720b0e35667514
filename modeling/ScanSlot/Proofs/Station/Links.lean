import ScanSlot.Proofs.Station.History

/-! Links over the whole life of a registry. Every link that a peer grants is given back to it, once,
by the turn that ends the attempt and before the next link is asked for; nothing else is ever given
back. -/
namespace ScanSlot

def Exchange.onPeer : Exchange → Bool
  | link .. | unlink .. => true
  | notify .. | log .. => false

/-- The calls made on peers. -/
def peerCalls (xs : List Exchange) : List Exchange :=
  xs.filter Exchange.onPeer

def Exchange.asked? : Exchange → Option PeerRef
  | link peer _ _ => some peer
  | _ => none

/-- The peers asked for a link, whatever they answered. -/
def asked (xs : List Exchange) : List PeerRef :=
  (peerCalls xs).filterMap Exchange.asked?

section
variable {xs ys : List Exchange}

@[simp] theorem peerCalls_nil : peerCalls [] = [] := rfl

@[simp] theorem peerCalls_append : peerCalls (xs ++ ys) = peerCalls xs ++ peerCalls ys :=
  List.filter_append ..

@[simp] theorem peerCalls_link {peer : PeerRef} {generation : Nat} {answer : Except Fault Nat} :
    peerCalls (.link peer generation answer :: xs) =
      .link peer generation answer :: peerCalls xs := rfl

@[simp] theorem peerCalls_unlink {peer : PeerRef} {link : Nat} {answer : Except Fault Unit} :
    peerCalls (.unlink peer link answer :: xs) = .unlink peer link answer :: peerCalls xs := rfl

@[simp] theorem peerCalls_notify {callback : CallbackRef} {event : Event}
    {answer : Except Fault Unit} : peerCalls (.notify callback event answer :: xs) = peerCalls xs :=
  rfl

@[simp] theorem peerCalls_log {entry : LogEntry} : peerCalls (.log entry :: xs) = peerCalls xs :=
  rfl

@[simp] theorem peerCalls_faultEntries {ε : Type} {entry : Fault → LogEntry}
    {answer : Except Fault ε} : peerCalls (faultEntries entry answer) = [] := by
  cases answer <;> rfl

@[simp] theorem peerCalls_logs {α : Type} (entry : α → LogEntry) (as : List α) :
    peerCalls (as.map fun a => .log (entry a)) = [] := by
  induction as with
  | nil => rfl
  | cons a as ih => exact ih

@[simp] theorem peerCalls_release {active : Subscription} {answer : Except Fault Unit} :
    peerCalls (active.release answer) = [.unlink active.peer active.link answer] := by
  simp [Subscription.release]

theorem peerCalls_announces {active : Subscription} {matched : List ScanResult}
    {answer : Except Fault Unit} (announced : Registry.Announces active matched xs answer) :
    peerCalls xs = [] := by
  cases announced <;> rfl

end

/-- The link of the subscription in the slot, and the peer that granted it. -/
def Registry.pledge (r : Registry) : Option (PeerRef × Nat) :=
  r.current.map fun active => (active.peer, active.link)

theorem Registry.pledge_of_current {r : Registry} {active : Subscription}
    (occupied : r.current = some active) : r.pledge = some (active.peer, active.link) :=
  congrArg (Option.map fun active : Subscription => (active.peer, active.link)) occupied

theorem Registry.pledge_of_vacant {r : Registry} (vacant : r.current = none) : r.pledge = none :=
  congrArg (Option.map fun active : Subscription => (active.peer, active.link)) vacant

/-- The peer of an attempt to subscribe that finds the slot empty. -/
def Turn.attempt? (turn : Turn) : Option PeerRef :=
  match turn.operation, turn.before.current with
  | .subscribe q, none => some q.peer
  | _, _ => none

/-- The operations that end the subscription in the slot. -/
def Operation.Retires (s : Station) (active : Subscription) : Operation → Prop
  | subscribe _ => False
  | unsubscribe owner => active.owner = owner
  | deliver batch => ∃ result ∈ batch, active.wants result = true
  | peerLost generation => active.generation = generation
  | process => active.generation ∈ s.inbox
  | close => True

/-- Calls on peers that hold at most one link at a time: a link is asked for only where none is
held, and the one that is held is the only one given back. -/
inductive Custody : Option (PeerRef × Nat) → List Exchange → Option (PeerRef × Nat) → Prop where
  | nil (held : Option (PeerRef × Nat)) : Custody held [] held
  | refused {peer : PeerRef} {generation : Nat} {fault : Fault} {calls : List Exchange}
      {held : Option (PeerRef × Nat)} (rest : Custody none calls held) :
      Custody none (.link peer generation (.error fault) :: calls) held
  | granted {peer : PeerRef} {generation link : Nat} {calls : List Exchange}
      {held : Option (PeerRef × Nat)} (rest : Custody (some (peer, link)) calls held) :
      Custody none (.link peer generation (.ok link) :: calls) held
  | returned {peer : PeerRef} {link : Nat} {answer : Except Fault Unit} {calls : List Exchange}
      {held : Option (PeerRef × Nat)} (rest : Custody none calls held) :
      Custody (some (peer, link)) (.unlink peer link answer :: calls) held

theorem Custody.append {first last : List Exchange} {before between after : Option (PeerRef × Nat)}
    (head : Custody before first between) (tail : Custody between last after) :
    Custody before (first ++ last) after := by
  induction head with
  | nil => exact tail
  | refused _ ih => exact .refused (ih tail)
  | granted _ ih => exact .granted (ih tail)
  | returned _ ih => exact .returned (ih tail)

namespace Station
variable {s t final : Station} {turn : Turn} {turns : List Turn} {op : Operation}
  {xs : List Exchange} {out : Outcome} {r : Registry} {active : Subscription}

/-- An operation that meets a subscription either ends it and gives its link back, or calls no peer
and leaves it as it is. -/
theorem retires_or_stays (course : op.Course s xs out r)
    (occupied : s.registry.current = some active) :
    (op.Retires s active ∧ r.current = none ∧
        ∃ answer, peerCalls xs = [.unlink active.peer active.link answer]) ∨
      (¬ op.Retires s active ∧ peerCalls xs = [] ∧ r.current = some active) := by
  have same {held : Subscription} (there : s.registry.current = some held) : held = active :=
    Option.some.inj (there.symm.trans occupied)
  cases course with
  | subscribe course =>
    cases course with
    | rejected => exact .inr ⟨id, by simp, occupied⟩
    | linkFailed _ vacant | successNotSent _ _ _ vacant | admitted _ vacant =>
      rw [occupied] at vacant
      contradiction
  | unsubscribe course =>
    cases course with
    | refused other => exact .inr ⟨other active occupied, rfl, occupied⟩
    | removed answer released there owned =>
      obtain rfl := same there
      exact .inl ⟨owned, rfl, released, by simp⟩
  | deliver course =>
    cases course with
    | vacant vacant =>
      rw [occupied] at vacant
      contradiction
    | unmatched there unwanted =>
      obtain rfl := same there
      refine .inr ⟨?_, rfl, occupied⟩
      rintro ⟨result, here, wanted⟩
      exact absurd wanted (List.filter_eq_nil_iff.mp unwanted result here)
    | matched released there wanted announced =>
      obtain rfl := same there
      refine .inl ⟨?_, rfl, released, by simp [peerCalls_announces announced]⟩
      obtain ⟨result, here⟩ := List.exists_mem_of_ne_nil _ wanted
      exact ⟨result, List.mem_filter.mp here⟩
  | peerLost course =>
    cases course with
    | vacant vacant =>
      rw [occupied] at vacant
      contradiction
    | stale there other =>
      obtain rfl := same there
      exact .inr ⟨other, rfl, occupied⟩
    | lost released there generation =>
      obtain rfl := same there
      exact .inl ⟨generation, rfl, released, by simp⟩
  | process course =>
    cases course with
    | vacant vacant =>
      rw [occupied] at vacant
      contradiction
    | stale there absent =>
      obtain rfl := same there
      exact .inr ⟨absent, peerCalls_logs _ _, occupied⟩
    | lost before after released there split =>
      obtain rfl := same there
      refine .inl ⟨?_, rfl, released, by simp⟩
      simp [Operation.Retires, split]
  | close course =>
    cases course with
    | vacant vacant =>
      rw [occupied] at vacant
      contradiction
    | released answer there =>
      obtain rfl := same there
      exact .inl ⟨trivial, rfl, answer, by simp⟩

/-- An operation that meets the empty slot attempts to fill it, or calls no peer. -/
theorem attempts_or_rests (course : op.Course s xs out r) (vacant : s.registry.current = none) :
    (∃ q accepted, op = .subscribe q ∧ s.registry.Subscribes q xs accepted r) ∨
      ((∀ q, op ≠ .subscribe q) ∧ peerCalls xs = [] ∧ r.current = none) := by
  have empty {held : Subscription} (there : s.registry.current = some held) : False := by
    rw [vacant] at there
    contradiction
  cases course with
  | subscribe course => exact .inl ⟨_, _, rfl, course⟩
  | unsubscribe course =>
    cases course with
    | refused => exact .inr ⟨by simp, rfl, vacant⟩
    | removed _ _ there => exact (empty there).elim
  | deliver course =>
    cases course with
    | vacant => exact .inr ⟨by simp, rfl, vacant⟩
    | unmatched there | matched _ there => exact (empty there).elim
  | peerLost course =>
    cases course with
    | vacant => exact .inr ⟨by simp, rfl, vacant⟩
    | stale there | lost _ there => exact (empty there).elim
  | process course =>
    cases course with
    | vacant => exact .inr ⟨by simp, rfl, vacant⟩
    | stale there | lost _ _ _ there => exact (empty there).elim
  | close course =>
    cases course with
    | vacant => exact .inr ⟨by simp, rfl, rfl⟩
    | released _ there => exact (empty there).elim

theorem custody_subscribes {q : Request} {accepted : Bool} {r r' : Registry}
    (course : r.Subscribes q xs accepted r') (vacant : r.current = none) :
    Custody none (peerCalls xs) r'.pledge := by
  have left : r.advanced.pledge = none := Registry.pledge_of_vacant vacant
  cases course with
  | rejected _ there =>
    rw [vacant] at there
    contradiction
  | linkFailed =>
    rw [left]
    exact .refused (.nil none)
  | successNotSent =>
    rw [left]
    simpa using .granted (.returned (.nil none))
  | admitted => exact .granted (.nil _)

theorem custody_course (course : op.Course s xs out r) :
    Custody s.registry.pledge (peerCalls xs) r.pledge := by
  cases held : s.registry.current with
  | some active =>
    rw [Registry.pledge_of_current held]
    obtain ⟨_, emptied, answer, calls⟩ | ⟨_, calls, kept⟩ := retires_or_stays course held
    · rw [calls, Registry.pledge_of_vacant emptied]
      exact .returned (.nil none)
    · rw [calls, Registry.pledge_of_current kept]
      exact .nil _
  | none =>
    rw [Registry.pledge_of_vacant held]
    obtain ⟨q, accepted, rfl, attempt⟩ | ⟨_, calls, empty⟩ := attempts_or_rests course held
    · exact custody_subscribes attempt held
    · rw [calls, Registry.pledge_of_vacant empty]
      exact .nil none

/-- However long a registry lives, it holds at most one link at a time. -/
theorem custody_runs (runs : Runs s turns t) :
    Custody s.registry.pledge (peerCalls (turns.flatMap Turn.exchanges)) t.registry.pledge := by
  induction runs with
  | nil s => exact .nil _
  | @cons s t u turn turns takes _ ih =>
    have course := custody_course takes.course
    rw [← takes.after_eq] at course
    rw [List.flatMap_cons, peerCalls_append]
    exact course.append ih

theorem Takes.before_eq (takes : Takes s turn t) : turn.before = s.registry := by
  cases takes
  rfl

theorem Runs.append {later : List Turn} (first : Runs s turns t) (last : Runs t later final) :
    Runs s (turns ++ later) final := by
  induction first with
  | nil => exact last
  | cons takes _ ih => exact .cons takes (ih last)

/-! Attempts. -/

theorem asked_takes (takes : Takes s turn t) : asked turn.exchanges = turn.attempt?.toList := by
  have course := takes.course
  obtain ⟨op, _, xs, _, _, _⟩ := turn
  obtain rfl := takes.before_eq
  cases held : s.registry.current with
  | some active =>
    have quiet : asked xs = [] := by
      unfold asked
      obtain ⟨_, _, answer, calls⟩ | ⟨_, calls, _⟩ := retires_or_stays course held
      · rw [calls]
        rfl
      · rw [calls]
        rfl
    cases op <;> simpa [Turn.attempt?, held] using quiet
  | none =>
    obtain ⟨q, accepted, rfl, attempt⟩ | ⟨other, calls, _⟩ := attempts_or_rests course held
    · have one : asked xs = [q.peer] := by
        cases attempt with
        | rejected _ there =>
          rw [held] at there
          contradiction
        | linkFailed | successNotSent | admitted => simp [asked, Exchange.asked?]
      simpa [Turn.attempt?, held] using one
    · have quiet : asked xs = [] := by
        rw [asked, calls]
        rfl
      cases op with
      | subscribe q => exact absurd rfl (other q)
      | unsubscribe | deliver | peerLost | process | close => exact quiet

/-- One turn ends the subscription and gives its link back; the turns before it call no peer. -/
inductive Retirement (active : Subscription) (s : Station) (turns : List Turn) : Prop where
  | intro {answer : Except Fault Unit} {before after : Station} {last : Turn}
      (between rest : List Turn) (split : turns = between ++ last :: rest)
      (reached : Runs s between before)
      (held : before.registry.current = some active)
      (quiet : ∀ turn ∈ between, peerCalls turn.exchanges = [])
      (takes : Takes before last after) (retires : last.operation.Retires before active)
      (returned : peerCalls last.exchanges = [.unlink active.peer active.link answer])

theorem retirement (runs : Runs s turns final) (held : s.registry.current = some active)
    (gone : final.registry.current = none) : Retirement active s turns := by
  induction runs with
  | nil s =>
    rw [held] at gone
    contradiction
  | @cons s t final turn turns takes rest ih =>
    obtain ⟨retires, _, answer, calls⟩ | ⟨_, calls, kept⟩ := retires_or_stays takes.course held
    · exact .intro [] turns rfl (.nil s) held (by simp) takes retires calls
    · rw [← takes.after_eq] at kept
      obtain ⟨between, later, split, reached, held, quiet, takes', retires, returned⟩ := ih kept gone
      refine .intro (turn :: between) later (congrArg (turn :: ·) split) (.cons takes reached) held
        ?_ takes' retires returned
      exact List.forall_mem_cons.mpr ⟨calls, quiet⟩

/-- What becomes of a link that was granted in a turn: the acknowledgement fails and the same turn
gives it back, or the subscription is admitted and the turn that ends it does. -/
inductive Settled (turn : Turn) (t : Station) (later : List Turn) (peer : PeerRef) (link : Nat) :
    Prop where
  | retracted {q : Request} {generation : Nat} {fault : Fault} {answer : Except Fault Unit}
      (asked : turn.operation = .subscribe q)
      (refused : .notify q.callback .registerSuccess (.error fault) ∈ turn.exchanges)
      (calls : peerCalls turn.exchanges =
        [.link peer generation (.ok link), .unlink peer link answer])
  | retired {q : Request} {generation : Nat} (asked : turn.operation = .subscribe q)
      (own : q.peer = peer)
      (acknowledged : .notify q.callback .registerSuccess (.ok ()) ∈ turn.exchanges)
      (calls : peerCalls turn.exchanges = [.link peer generation (.ok link)])
      (admitted : t.registry.current = some (q.admitted link generation))
      (retirement : Retirement (q.admitted link generation) t later)

theorem vacant_of_closing (takes : Takes s turn t) (closed : t.isOpen = false) :
    t.registry.current = none := by
  have left := takes.after_eq
  have course := takes.course
  cases takes with
  | intro opened path posted =>
    rename_i op _ _ _
    cases op with
    | close =>
      cases course with
      | close course =>
        rw [left]
        cases course <;> rfl
    | subscribe | unsubscribe | deliver | peerLost | process =>
      simp [Operation.finish, Operation.begin, opened] at closed

/-- A closed station has given its slot up. -/
theorem vacant_of_closed (runs : Runs s turns t) (opened : s.isOpen = true)
    (closed : t.isOpen = false) : t.registry.current = none := by
  induction runs with
  | nil s =>
    rw [opened] at closed
    contradiction
  | @cons s t final turn turns takes rest ih =>
    cases still : t.isOpen with
    | true => exact ih still closed
    | false =>
      cases rest with
      | nil => exact vacant_of_closing takes still
      | cons takes' _ =>
        cases takes' with
        | intro opened =>
          rw [still] at opened
          contradiction

theorem granted_subscribes {q : Request} {accepted : Bool} {before after : Registry}
    {peer : PeerRef} {generation link : Nat} (course : before.Subscribes q xs accepted after)
    (granted : .link peer generation (.ok link) ∈ peerCalls xs) :
    q.peer = peer ∧
      ((∃ fault answer, .notify q.callback .registerSuccess (.error fault) ∈ xs ∧
          peerCalls xs = [.link peer generation (.ok link), .unlink peer link answer]) ∨
        (.notify q.callback .registerSuccess (.ok ()) ∈ xs ∧
          peerCalls xs = [.link peer generation (.ok link)] ∧
          after.current = some (q.admitted link generation))) := by
  have told {answer : Except Fault Unit} {called : Exchange} {rest : List Exchange} :
      .notify q.callback .registerSuccess answer ∈
        called :: .notify q.callback .registerSuccess answer :: rest :=
    List.mem_cons_of_mem _ List.mem_cons_self
  cases course with
  | rejected | linkFailed => simp at granted
  | successNotSent _ fault answer =>
    simp only [peerCalls_link, peerCalls_notify, peerCalls_log, peerCalls_unlink,
      peerCalls_faultEntries, List.mem_cons, Exchange.link.injEq, Except.ok.injEq, reduceCtorEq,
      List.not_mem_nil, or_false] at granted
    obtain ⟨rfl, rfl, rfl⟩ := granted
    exact ⟨rfl, .inl ⟨fault, answer, told, by simp⟩⟩
  | admitted =>
    simp only [peerCalls_link, peerCalls_notify, peerCalls_log, peerCalls_nil, List.mem_cons,
      Exchange.link.injEq, Except.ok.injEq, List.not_mem_nil, or_false] at granted
    obtain ⟨rfl, rfl, rfl⟩ := granted
    exact ⟨rfl, .inr ⟨told, rfl, rfl⟩⟩

theorem settled {later : List Turn} {peer : PeerRef} {generation link : Nat}
    (takes : Takes s turn t) (rest : Runs t later final) (gone : final.registry.current = none)
    (granted : .link peer generation (.ok link) ∈ turn.exchanges) :
    Settled turn t later peer link := by
  have call : .link peer generation (.ok link) ∈ peerCalls turn.exchanges :=
    List.mem_filter.mpr ⟨granted, rfl⟩
  cases held : s.registry.current with
  | some active =>
    obtain ⟨_, _, answer, calls⟩ | ⟨_, calls, _⟩ := retires_or_stays takes.course held
    · simp [calls] at call
    · simp [calls] at call
  | none =>
    obtain ⟨q, accepted, asked, attempt⟩ | ⟨_, calls, _⟩ := attempts_or_rests takes.course held
    · obtain ⟨own, ⟨fault, answer, refused, calls⟩ | ⟨told, calls, admitted⟩⟩ :=
        granted_subscribes attempt call
      · exact .retracted asked refused calls
      · rw [← takes.after_eq] at admitted
        exact .retired asked own told calls admitted (retirement rest admitted gone)
    · simp [calls] at call

/-- Over the whole life of a registry, from its first operation until it is closed, each attempt asks
its own peer once and nothing else asks any. Each link that is granted is given back to the same
peer by the turn that ends the attempt, and by no other call; no other link is given back, and no
two are held at a time. -/
theorem link_given_back {earlier later : List Turn} (first : Runs {} earlier s)
    (takes : Takes s turn t) (rest : Runs t later final) (closed : final.isOpen = false) :
    asked turn.exchanges = turn.attempt?.toList ∧
      (∀ peer generation link, .link peer generation (.ok link) ∈ turn.exchanges →
        Settled turn t later peer link) ∧
      Custody none (peerCalls ((earlier ++ turn :: later).flatMap Turn.exchanges)) none := by
  have whole : Runs {} (earlier ++ turn :: later) final := first.append (.cons takes rest)
  have gone := vacant_of_closed whole rfl closed
  refine ⟨asked_takes takes, ?_, ?_⟩
  · intro peer generation link granted
    exact settled takes rest gone granted
  · have custody := custody_runs whole
    rwa [Registry.pledge_of_vacant gone] at custody

/-- A peer hands out the same link number twice: one attempt cannot be acknowledged, the next one
is admitted, its results cannot be delivered, and the link cannot be given back either. -/
theorem link_given_back_unheard :
    let seen : ScanResult := ⟨⟨[0xC3, 0x28], by decide⟩, "02:00:00:00:00:01", ⟨2412⟩, -40⟩
    let q := Request.forOne ⟨1⟩ ⟨0, "peer"⟩ ⟨0, "callback"⟩ seen.ssid
    ∃ (earlier later : List Turn) (turn : Turn) (s t final : Station),
      Runs {} earlier s ∧ Takes s turn t ∧ Runs t later final ∧ final.isOpen = false ∧
      (earlier ++ turn :: later).map Turn.operation =
        [.subscribe q, .subscribe q, .deliver [seen], .close] ∧
      asked turn.exchanges = [q.peer] ∧ Settled turn t later q.peer 7 ∧
      peerCalls ((earlier ++ turn :: later).flatMap Turn.exchanges) =
        [.link q.peer 1 (.ok 7), .unlink q.peer 7 (.ok ()),
          .link q.peer 2 (.ok 7), .unlink q.peer 7 (.error (.notLinked 7))] ∧
      Custody none (peerCalls ((earlier ++ turn :: later).flatMap Turn.exchanges)) none := by
  intro seen q
  let held := q.admitted 7 2
  have wanted : [seen].filter held.wants = [seen] := by
    apply List.filter_eq_self.mpr
    simp only [List.mem_singleton, forall_eq]
    exact Request.wants_forOne _ _ _ seen _ _
  have fails : Takes {} _ ⟨⟨none, 0, 2⟩, [], true⟩ :=
    .of_course (.subscribe q) (.subscribe (.successNotSent 7 .callbackBufferFull (.ok ()) rfl)) rfl []
  have enters : Takes ⟨⟨none, 0, 2⟩, [], true⟩ _ ⟨⟨some held, 0, 3⟩, [1], true⟩ :=
    .of_course (.subscribe q) (.subscribe (.admitted 7 rfl)) rfl [1]
  have delivers : Takes ⟨⟨some held, 0, 3⟩, [1], true⟩ _ ⟨⟨none, 0, 3⟩, [1], true⟩ :=
    .of_course (.deliver [seen])
      (.deliver (.matched (.error (.notLinked 7)) rfl (by rw [wanted]; decide)
        (.refused .peerUnreachable)))
      rfl []
  have closes : Takes ⟨⟨none, 0, 3⟩, [1], true⟩ _ ⟨⟨none, 0, 3⟩, [], false⟩ :=
    .of_course .close (.close (.vacant rfl)) rfl []
  have first := Runs.cons fails (.nil _)
  have rest := Runs.cons delivers (.cons closes (.nil _))
  obtain ⟨one, settled, custody⟩ := link_given_back first enters rest rfl
  exact ⟨_, _, _, _, _, _, first, enters, rest, rfl, rfl, one,
    settled q.peer 2 7 List.mem_cons_self, rfl, custody⟩

end Station
end ScanSlot
