import Mathlib.Data.List.Forall2
import ScanSlot.Proofs.Station.History

/-! Failures are swallowed, and the log is where they are seen. Each call that comes back with an
error is followed by one entry about it, at a level that tells which kind of call it was and with the
owner of the request that the call was made for; nothing else is logged above the level of debugging. -/
namespace ScanSlot

namespace LogEntry

/-- The error that an entry is about. -/
def fault? : LogEntry → Option Fault
  | failureNotSent _ fault | linkFailed _ fault | successNotSent _ fault
  | unlinkAfterFailedAck _ fault | removalNotSent _ fault | resultsNotSent _ fault
  | unlinkFailed _ fault => some fault
  | rejecting .. | activated .. | unregistered .. | delivering .. | staleNotice .. | peerLost ..
  | peerDied .. => none

/-- The entry names the owner and ends with the error's own text. -/
structure Tells (entry : LogEntry) (owner : Owner) (fault : Fault) : Prop where
  owned : entry.fields = [("owner", owner.text)]
  about : entry.fault? = some fault
  text : ∃ head, entry.message = head ++ fault.message

theorem fault?_of_level {entry : LogEntry} (loud : entry.level ≠ .debug) :
    entry.fault?.isSome = true := by
  cases entry with
  | linkFailed | failureNotSent | successNotSent | removalNotSent | resultsNotSent => rfl
  | _ => exact absurd rfl loud

end LogEntry

namespace Exchange

def isRefusedNotice : Exchange → Bool
  | notify _ _ (.error _) => true
  | _ => false

def isRefusedLink : Exchange → Bool
  | link _ _ (.error _) => true
  | _ => false

def isRefusedUnlink : Exchange → Bool
  | unlink _ _ (.error _) => true
  | _ => false

def isFailure (x : Exchange) : Bool :=
  x.isRefusedNotice || x.isRefusedLink || x.isRefusedUnlink

def logged? : Exchange → Option LogEntry
  | log entry => some entry
  | _ => none

end Exchange

namespace Turn

/-- The attempt that a turn's calls are made for: a subscribe is one itself, and any other operation
speaks for the attempt that was accepted last. -/
def origin (held : Option Turn) (turn : Turn) : Option Turn :=
  match turn.operation with
  | .subscribe _ => some turn
  | _ => held

def accepted (held : Option Turn) (turn : Turn) : Option Turn :=
  match turn.operation, turn.outcome with
  | .subscribe _, .decided true => some turn
  | _, _ => held

end Turn

/-- An exchange with the attempt that it is made for. -/
abbrev Attributed := Option Turn × Exchange

/-- The exchanges of a run in their order. -/
def attributed (held : Option Turn) : List Turn → List Attributed
  | [] => []
  | turn :: rest =>
      turn.exchanges.map (turn.origin held, ·) ++ attributed (turn.accepted held) rest

/-- What is logged in a run. -/
def logged (calls : List Attributed) : List LogEntry :=
  calls.filterMap (·.2.logged?)

/-- The entry that a failed call calls for. A callback is known by the request it came with, a link
by the attempt that asked for it or was granted it. -/
inductive Reports : Attributed → LogEntry → Prop where
  | notice {attempt : Turn} {q : Request} {event : Event} {fault : Fault} {entry : LogEntry}
      (asked : attempt.operation = .subscribe q) (level : entry.level = .warn)
      (tells : entry.Tells q.owner fault) :
      Reports (some attempt, .notify q.callback event (.error fault)) entry
  | link {attempt : Turn} {q : Request} {generation : Nat} {fault : Fault} {entry : LogEntry}
      (asked : attempt.operation = .subscribe q)
      (own : .link q.peer generation (.error fault) ∈ attempt.exchanges)
      (level : entry.level = .error) (tells : entry.Tells q.owner fault) :
      Reports (some attempt, .link q.peer generation (.error fault)) entry
  | unlink {attempt : Turn} {q : Request} {generation link : Nat} {fault : Fault}
      {entry : LogEntry} (asked : attempt.operation = .subscribe q)
      (granted : .link q.peer generation (.ok link) ∈ attempt.exchanges)
      (level : entry.level = .debug) (tells : entry.Tells q.owner fault) :
      Reports (some attempt, .unlink q.peer link (.error fault)) entry

/-- Every failed call is followed at once by its entry, and no other entry is about a failure. -/
inductive Accounted : List Attributed → Prop where
  | nil : Accounted []
  | passed {call : Attributed} {rest : List Attributed} (fine : call.2.isFailure = false)
      (silent : ∀ entry, call.2.logged? = some entry → entry.fault? = none)
      (accounted : Accounted rest) : Accounted (call :: rest)
  | reported {call : Attributed} {origin : Option Turn} {entry : LogEntry} {rest : List Attributed}
      (reports : Reports call entry) (accounted : Accounted rest) :
      Accounted (call :: (origin, .log entry) :: rest)

namespace Accounted

theorem append {first last : List Attributed} (head : Accounted first) (tail : Accounted last) :
    Accounted (first ++ last) := by
  induction head with
  | nil => exact tail
  | passed fine silent _ ih => exact .passed fine silent ih
  | reported reports _ ih => exact .reported reports ih

/-- Failed calls of one kind and the entries about them correspond one to one and in order. -/
theorem correspond {calls : List Attributed} (accounted : Accounted calls)
    {fails : Exchange → Bool} {kind : LogEntry → Bool}
    (failures : ∀ x, fails x = true → x.isFailure = true)
    (faults : ∀ entry, kind entry = true → entry.fault?.isSome = true)
    (same : ∀ call entry, Reports call entry → fails call.2 = kind entry) :
    List.Forall₂ Reports (calls.filter (fails ·.2)) ((logged calls).filter kind) := by
  have fine {x : Exchange} (sound : x.isFailure = false) : fails x = false := by
    cases failed : fails x with
    | false => rfl
    | true => exact absurd (failures x failed) (by simp [sound])
  have other {entry : LogEntry} (silent : entry.fault? = none) : kind entry = false := by
    cases told : kind entry with
    | false => rfl
    | true => exact absurd (faults entry told) (by simp [silent])
  induction accounted with
  | nil => exact .nil
  | @passed call rest sound silent _ ih =>
    have skipped := fine sound
    cases said : call.2.logged? with
    | none => simpa [logged, skipped, said] using ih
    | some entry => simpa [logged, skipped, said, other (silent entry said)] using ih
  | @reported call origin entry rest reports _ ih =>
    have quiet : call.2.logged? = none := by cases reports <;> rfl
    have entered : (Exchange.log entry).logged? = some entry := rfl
    have skipped : fails (.log entry) = false := fine rfl
    have agreed := same call entry reports
    cases failed : fails call.2 with
    | true =>
      rw [failed] at agreed
      simpa [logged, quiet, entered, skipped, failed, ← agreed] using And.intro reports ih
    | false =>
      rw [failed] at agreed
      simpa [logged, quiet, entered, skipped, failed, ← agreed] using ih

section
variable {attempt : Turn} {q : Request} {origin : Option Turn} {rest : List Attributed}

theorem log {entry : LogEntry} (silent : entry.fault? = none) (accounted : Accounted rest) :
    Accounted ((origin, .log entry) :: rest) := by
  refine .passed rfl ?_ accounted
  rintro _ ⟨⟩
  exact silent

theorem logs {α : Type} (origin : Option Turn) (entry : α → LogEntry)
    (silent : ∀ a, (entry a).fault? = none) (as : List α) (accounted : Accounted rest) :
    Accounted ((as.map fun a => .log (entry a)).map (origin, ·) ++ rest) := by
  induction as with
  | nil => exact accounted
  | cons a as ih => exact log (silent a) ih

theorem notice (event : Event) (answer : Except Fault Unit) (entry : Fault → LogEntry)
    (asked : attempt.operation = .subscribe q) (level : ∀ fault, (entry fault).level = .warn)
    (tells : ∀ fault, (entry fault).Tells q.owner fault) (accounted : Accounted rest) :
    Accounted ((some attempt, .notify q.callback event answer) ::
      (faultEntries entry answer).map (some attempt, ·) ++ rest) := by
  cases answer with
  | ok => exact .passed rfl nofun accounted
  | error fault => exact .reported (.notice asked (level fault) (tells fault)) accounted

theorem unlink {generation link : Nat} (answer : Except Fault Unit) (entry : Fault → LogEntry)
    (asked : attempt.operation = .subscribe q)
    (granted : .link q.peer generation (.ok link) ∈ attempt.exchanges)
    (level : ∀ fault, (entry fault).level = .debug)
    (tells : ∀ fault, (entry fault).Tells q.owner fault) (accounted : Accounted rest) :
    Accounted ((some attempt, .unlink q.peer link answer) ::
      (faultEntries entry answer).map (some attempt, ·) ++ rest) := by
  cases answer with
  | ok => exact .passed rfl nofun accounted
  | error fault => exact .reported (.unlink asked granted (level fault) (tells fault)) accounted

end

end Accounted

namespace Station
variable {s t : Station} {turn : Turn} {turns : List Turn} {held : Option Turn}

/-- The attempt by which a subscription came into the slot. -/
structure Stems (active : Subscription) (attempt : Turn) (q : Request) : Prop where
  asked : attempt.operation = .subscribe q
  owner : active.owner = q.owner
  peer : active.peer = q.peer
  callback : active.callback = q.callback
  granted : ∃ generation, .link q.peer generation (.ok active.link) ∈ attempt.exchanges

/-- The subscription in the slot, if there is one, stems from the attempt that was accepted last. -/
def Traced (held : Option Turn) (r : Registry) : Prop :=
  ∀ active, r.current = some active → ∃ attempt q, held = some attempt ∧ Stems active attempt q

section
variable {active : Subscription} {attempt : Turn} {q : Request}

theorem Stems.release (stems : Stems active attempt q) (answer : Except Fault Unit) :
    Accounted ((active.release answer).map (some attempt, ·)) := by
  obtain ⟨generation, granted⟩ := stems.granted
  have accounted := Accounted.unlink answer (.unlinkFailed q.owner) stems.asked granted
    (fun _ => rfl) (fun _ => ⟨rfl, rfl, _, rfl⟩) .nil
  simpa [Subscription.release, stems.owner, stems.peer] using accounted

theorem Stems.announced (stems : Stems active attempt q) {matched : List ScanResult}
    {xs : List Exchange} {answer : Except Fault Unit} {rest : List Attributed}
    (announces : Registry.Announces active matched xs answer) (accounted : Accounted rest) :
    Accounted ((xs ++ faultEntries (.resultsNotSent active.owner) answer).map (some attempt, ·) ++
      rest) := by
  have told (event : Event) (answer : Except Fault Unit) :=
    Accounted.notice event answer (.resultsNotSent q.owner) stems.asked (fun _ => rfl)
      (fun _ => ⟨rfl, rfl, _, rfl⟩) accounted
  rw [stems.owner]
  cases announces with
  | refused fault =>
    rw [stems.callback]
    exact told _ (.error fault)
  | taken =>
    rw [stems.callback]
    exact .passed rfl nofun (told _ answer)

end

theorem accounted_subscribes {q : Request} {xs : List Exchange} {accepted : Bool}
    {r r' : Registry} (course : r.Subscribes q xs accepted r')
    (asked : turn.operation = .subscribe q) (own : turn.exchanges = xs) :
    Accounted (xs.map (some turn, ·)) := by
  cases course with
  | rejected answer =>
    have told (event : Event) := Accounted.notice event answer (.failureNotSent q.owner) asked
      (fun _ => rfl) (fun _ => ⟨rfl, rfl, _, rfl⟩) .nil
    simp only [List.append_nil] at told
    exact .log rfl (told _)
  | linkFailed fault =>
    exact .reported (.link asked (by simp [own]) rfl ⟨rfl, rfl, _, rfl⟩) .nil
  | successNotSent link fault answer =>
    have granted : .link q.peer r.nextGeneration (.ok link) ∈ turn.exchanges := by simp [own]
    have released := Accounted.unlink answer (.unlinkAfterFailedAck q.owner) asked granted
      (fun _ => rfl) (fun _ => ⟨rfl, rfl, _, rfl⟩) .nil
    rw [List.append_nil] at released
    exact .passed rfl nofun (.reported (.notice asked rfl ⟨rfl, rfl, _, rfl⟩) released)
  | admitted => exact .passed rfl nofun (.passed rfl nofun (.log rfl .nil))

/-- All that an operation says to others is accounted for. -/
theorem accounted_takes (takes : Takes s turn t) (traced : Traced held s.registry) :
    Accounted (turn.exchanges.map (turn.origin held, ·)) := by
  have course := takes.course
  obtain ⟨op, _, xs, out, r, posted⟩ := turn
  cases course with
  | subscribe course => exact accounted_subscribes course rfl rfl
  | unsubscribe course =>
    cases course with
    | refused => exact .nil
    | @removed active answer released occupied owned =>
      obtain ⟨attempt, q, rfl, stems⟩ := traced _ occupied
      have ended : Accounted ((some attempt, .log (.unregistered q.owner)) ::
          (active.release released).map (some attempt, ·)) := .log rfl (stems.release released)
      have told := Accounted.notice (.removed .unregistered) answer (.removalNotSent q.owner)
        stems.asked (fun _ => rfl) (fun _ => ⟨rfl, rfl, _, rfl⟩) ended
      simpa [Turn.origin, ← owned, stems.owner, stems.callback] using told
  | deliver course =>
    cases course with
    | vacant | unmatched => exact .nil
    | matched released occupied _ announces =>
      obtain ⟨attempt, q, rfl, stems⟩ := traced _ occupied
      have told := stems.announced announces (stems.release released)
      rw [← List.map_append] at told
      exact .log rfl told
  | peerLost course =>
    cases course with
    | vacant => exact .nil
    | stale => exact .log rfl .nil
    | lost released occupied =>
      obtain ⟨attempt, q, rfl, stems⟩ := traced _ occupied
      exact .log rfl (stems.release released)
  | process course =>
    cases course with
    | vacant => exact .nil
    | @stale active =>
      have said := Accounted.logs held (.staleNotice · active.generation)
        (fun _ => rfl) s.inbox .nil
      rw [List.append_nil] at said
      exact said
    | @lost active before _ released occupied =>
      obtain ⟨attempt, q, rfl, stems⟩ := traced _ occupied
      have ended : Accounted ((some attempt, .log (.peerLost active.owner)) ::
          (active.release released).map (some attempt, ·)) := .log rfl (stems.release released)
      have said := Accounted.logs (some attempt) (.staleNotice · active.generation)
        (fun _ => rfl) before ended
      simpa [Turn.origin] using said
  | close course =>
    cases course with
    | vacant => exact .nil
    | released answer occupied =>
      obtain ⟨attempt, q, rfl, stems⟩ := traced _ occupied
      exact stems.release answer

theorem traced_takes (takes : Takes s turn t) (traced : Traced held s.registry) :
    Traced (turn.accepted held) t.registry := by
  have course := takes.course
  rw [takes.after_eq]
  obtain ⟨op, _, xs, out, r, posted⟩ := turn
  have emptied {held : Option Turn} : Traced held s.registry.emptied := nofun
  cases course with
  | subscribe course =>
    cases course with
    | rejected | linkFailed | successNotSent => exact traced
    | admitted link vacant =>
      rintro _ ⟨⟩
      exact ⟨_, _, rfl, rfl, rfl, rfl, rfl, s.registry.nextGeneration, by simp [Request.admitted]⟩
  | unsubscribe course =>
    cases course with
    | refused => exact traced
    | removed => exact emptied
  | deliver course =>
    cases course with
    | vacant | unmatched => exact traced
    | matched => exact emptied
  | peerLost course =>
    cases course with
    | vacant | stale => exact traced
    | lost => exact emptied
  | process course =>
    cases course with
    | vacant | stale => exact traced
    | lost => exact emptied
  | close course => cases course <;> exact emptied

theorem accounted_runs (runs : Runs s turns t) (traced : Traced held s.registry) :
    Accounted (attributed held turns) := by
  induction runs generalizing held with
  | nil => exact .nil
  | cons takes _ ih =>
    have rest := ih (traced_takes takes traced)
    exact (accounted_takes takes traced).append rest

theorem attributed_exchanges (held : Option Turn) (turns : List Turn) :
    (attributed held turns).map Prod.snd = turns.flatMap Turn.exchanges := by
  induction turns generalizing held with
  | nil => rfl
  | cons turn rest ih => simp [attributed, ih, Function.comp_def]

/-- In every run of a registry, whatever fails, the warnings stand for the refused notifications, the
errors for the refused links and the remaining reports of failures for the refused unlinks: one for
each, in their order, and none for anything else. -/
theorem failures_logged (runs : Runs {} turns t) :
    let calls := attributed none turns
    calls.map Prod.snd = turns.flatMap Turn.exchanges ∧
      List.Forall₂ Reports (calls.filter (·.2.isRefusedNotice))
        ((logged calls).filter (·.level = .warn)) ∧
      List.Forall₂ Reports (calls.filter (·.2.isRefusedLink))
        ((logged calls).filter (·.level = .error)) ∧
      List.Forall₂ Reports (calls.filter (·.2.isRefusedUnlink))
        ((logged calls).filter fun entry => entry.level = .debug && entry.fault?.isSome) := by
  intro calls
  have accounted : Accounted calls := accounted_runs runs nofun
  have loud {level : LogLevel} (other : level ≠ .debug) (entry : LogEntry)
      (here : decide (entry.level = level) = true) : entry.fault?.isSome = true := by
    apply LogEntry.fault?_of_level
    rwa [of_decide_eq_true here]
  refine ⟨attributed_exchanges none turns, ?_, ?_, ?_⟩
  · apply accounted.correspond _ (loud (by decide))
    · intro call entry reports
      cases reports <;> simp_all [Exchange.isRefusedNotice]
    · intro x failed
      simp [Exchange.isFailure, failed]
  · apply accounted.correspond _ (loud (by decide))
    · intro call entry reports
      cases reports <;> simp_all [Exchange.isRefusedLink]
    · intro x failed
      simp [Exchange.isFailure, failed]
  · apply accounted.correspond
    · intro x failed
      simp [Exchange.isFailure, failed]
    · intro entry here
      exact (Bool.and_eq_true_iff.mp here).2
    · intro call entry reports
      cases reports with
      | notice _ level => simp [Exchange.isRefusedUnlink, level]
      | link _ _ level => simp [Exchange.isRefusedUnlink, level]
      | unlink _ _ level tells => simp [Exchange.isRefusedUnlink, level, tells.about]

/-- A link is refused, an acknowledgement and the unlink after it fail, a rival cannot be told, and
the last unlink fails while the registry is closed. -/
theorem failures_logged_throughout :
    let ssid : Ssid := ⟨[0xC3, 0x28], by decide⟩
    let q := Request.forOne ⟨1⟩ ⟨0, "peer"⟩ ⟨0, "callback"⟩ ssid
    let rival := Request.forOne ⟨2⟩ ⟨0, "peer"⟩ ⟨1, "callback"⟩ ssid
    ∃ (turns : List Turn) (final : Station),
      Runs {} turns final ∧ final.isOpen = false ∧
      turns.map Turn.operation =
        [.subscribe q, .subscribe q, .subscribe q, .subscribe rival, .close] ∧
      let calls := attributed none turns
      ((logged calls).filter fun entry => entry.fault?.isSome) =
        [.linkFailed ⟨1⟩ .peerDead, .successNotSent ⟨1⟩ .callbackBufferFull,
          .unlinkAfterFailedAck ⟨1⟩ (.notLinked 5), .failureNotSent ⟨2⟩ .peerUnreachable,
          .unlinkFailed ⟨1⟩ (.notLinked 7)] ∧
      List.Forall₂ Reports (calls.filter (·.2.isRefusedNotice))
        [.successNotSent ⟨1⟩ .callbackBufferFull, .failureNotSent ⟨2⟩ .peerUnreachable] ∧
      List.Forall₂ Reports (calls.filter (·.2.isRefusedLink)) [.linkFailed ⟨1⟩ .peerDead] ∧
      List.Forall₂ Reports (calls.filter (·.2.isRefusedUnlink))
        [.unlinkAfterFailedAck ⟨1⟩ (.notLinked 5), .unlinkFailed ⟨1⟩ (.notLinked 7)] := by
  intro ssid q rival
  let held := q.admitted 7 3
  have refused : Takes {} _ ⟨⟨none, 0, 2⟩, [], true⟩ :=
    .of_course (.subscribe q) (.subscribe (.linkFailed .peerDead rfl)) rfl []
  have unacknowledged : Takes ⟨⟨none, 0, 2⟩, [], true⟩ _ ⟨⟨none, 0, 3⟩, [], true⟩ :=
    .of_course (.subscribe q)
      (.subscribe (.successNotSent 5 .callbackBufferFull (.error (.notLinked 5)) rfl)) rfl []
  have enters : Takes ⟨⟨none, 0, 3⟩, [], true⟩ _ ⟨⟨some held, 0, 4⟩, [], true⟩ :=
    .of_course (.subscribe q) (.subscribe (.admitted 7 rfl)) rfl []
  have clashes : Takes ⟨⟨some held, 0, 4⟩, [], true⟩ _ ⟨⟨some held, 0, 4⟩, [], true⟩ :=
    .of_course (.subscribe rival) (.subscribe (.rejected (.error .peerUnreachable) rfl)) rfl []
  have closes : Takes ⟨⟨some held, 0, 4⟩, [], true⟩ _ ⟨⟨none, 0, 4⟩, [], false⟩ :=
    .of_course .close (.close (.released (.error (.notLinked 7)) rfl)) rfl []
  have runs := Runs.cons refused
    (.cons unacknowledged (.cons enters (.cons clashes (.cons closes (.nil _)))))
  have accounts := failures_logged runs
  exact ⟨_, _, runs, rfl, rfl, rfl, accounts.2⟩

end Station
end ScanSlot
