import ScanSlot.Proofs.Station.History

/-! What a subscriber hears over the whole life of a registry. Each request ends in one of few
conversations, whatever the collaborators answer and in whatever order operations and notices
come: it is refused, or it is admitted and then hears at most once why it ended. -/
namespace ScanSlot

/-- What a callback was told and what it answered. -/
abbrev Told := Event × Except Fault Unit

def Exchange.toldTo (index : Nat) : Exchange → Option Told
  | .notify callback event answer => if callback.index = index then some (event, answer) else none
  | _ => none

/-- The calls made on one callback, failing ones included. -/
def told (index : Nat) (xs : List Exchange) : List Told :=
  xs.filterMap (Exchange.toldTo index)

section
variable {index : Nat} {xs ys : List Exchange}

@[simp] theorem told_nil : told index [] = [] := rfl

@[simp] theorem told_append : told index (xs ++ ys) = told index xs ++ told index ys :=
  List.filterMap_append

@[simp] theorem told_link {peer : PeerRef} {generation : Nat} {answer : Except Fault Nat} :
    told index (.link peer generation answer :: xs) = told index xs := rfl

@[simp] theorem told_unlink {peer : PeerRef} {link : Nat} {answer : Except Fault Unit} :
    told index (.unlink peer link answer :: xs) = told index xs := rfl

@[simp] theorem told_log {entry : LogEntry} : told index (.log entry :: xs) = told index xs := rfl

@[simp] theorem told_logs {α : Type} (entries : List α) (entry : α → LogEntry) :
    told index (entries.map fun a => .log (entry a)) = [] := by
  induction entries with
  | nil => rfl
  | cons a rest ih => exact ih

@[simp] theorem told_faultEntries {ε : Type} {entry : Fault → LogEntry} {answer : Except Fault ε} :
    told index (faultEntries entry answer) = [] := by
  cases answer <;> rfl

@[simp] theorem told_release {active : Subscription} {answer : Except Fault Unit} :
    told index (active.release answer) = [] := by
  simp [Subscription.release]

theorem told_notify_self {callback : CallbackRef} {event : Event} {answer : Except Fault Unit} :
    told callback.index (.notify callback event answer :: xs) =
      (event, answer) :: told callback.index xs := by
  simp [told, Exchange.toldTo]

theorem told_notify_other {callback : CallbackRef} {event : Event} {answer : Except Fault Unit}
    (other : callback.index ≠ index) :
    told index (.notify callback event answer :: xs) = told index xs := by
  simp [told, Exchange.toldTo, other]

end

/-- The callback that comes with an operation. -/
def Operation.callback? : Operation → Option Nat
  | .subscribe request => some request.callback.index
  | _ => none

namespace Station

/-- The callback of the subscription in the slot. -/
def callback? (s : Station) : Option Nat :=
  s.registry.current.map (·.callback.index)

theorem told_announces_other {active : Subscription} {matched : List ScanResult}
    {xs : List Exchange} {answer : Except Fault Unit} {index : Nat}
    (announced : Registry.Announces active matched xs answer)
    (other : active.callback.index ≠ index) : told index xs = [] := by
  cases announced with
  | refused => exact told_notify_other other
  | taken =>
    rw [told_notify_other other]
    exact told_notify_other other

/-- An operation speaks to the callback that comes with it and to the one in the slot. -/
theorem told_other {s : Station} {op : Operation} {xs : List Exchange} {out : Outcome}
    {r : Registry} {index : Nat} (course : op.Course s xs out r)
    (absent : s.callback? ≠ some index) (foreign : op.callback? ≠ some index) :
    told index xs = [] := by
  have other {active : Subscription} (occupied : s.registry.current = some active) :
      active.callback.index ≠ index := by
    simpa [callback?, occupied] using absent
  cases course with
  | subscribe course =>
    have own : _ ≠ index := fun same => foreign (congrArg some same)
    cases course with
    | rejected | successNotSent => simp [told_notify_other own]
    | linkFailed => simp
    | admitted => simp [told_notify_other own]
  | unsubscribe course =>
    cases course with
    | refused => rfl
    | removed _ _ occupied => simp [told_notify_other (other occupied)]
  | deliver course =>
    cases course with
    | vacant | unmatched => rfl
    | matched _ occupied _ announced =>
      simp [told_announces_other announced (other occupied)]
  | peerLost course => cases course <;> simp
  | process course => cases course <;> simp
  | close course => cases course <;> simp

/-- The slot is filled by the operation's own request or by nobody new. -/
theorem callback_after {s : Station} {op : Operation} {xs : List Exchange} {out : Outcome}
    {r : Registry} {index : Nat} (course : op.Course s xs out r)
    (absent : s.callback? ≠ some index) (foreign : op.callback? ≠ some index) :
    r.current.map (·.callback.index) ≠ some index := by
  unfold callback? at absent
  cases course with
  | subscribe course =>
    cases course with
    | rejected => exact absent
    | linkFailed | successNotSent => exact absent
    | admitted => exact foreign
  | unsubscribe course =>
    cases course with
    | refused => exact absent
    | removed => simp
  | deliver course =>
    cases course with
    | vacant => exact absent
    | unmatched => exact absent
    | matched => simp
  | peerLost course => cases course <;> simp_all
  | process course => cases course <;> simp_all
  | close course => cases course <;> simp_all

/-- A callback that is neither in the slot nor handed in hears nothing at all. -/
theorem told_silent {s t : Station} {turns : List Turn} {index : Nat} (runs : Runs s turns t)
    (absent : s.callback? ≠ some index)
    (foreign : ∀ turn ∈ turns, turn.operation.callback? ≠ some index) :
    told index (turns.flatMap Turn.exchanges) = [] ∧ t.callback? ≠ some index := by
  induction runs with
  | nil => exact ⟨rfl, absent⟩
  | cons takes _ ih =>
    have own := foreign _ List.mem_cons_self
    have left := callback_after takes.course absent own
    rw [← takes.after_eq] at left
    obtain ⟨quiet, still⟩ := ih left fun turn later => foreign turn (List.mem_cons_of_mem _ later)
    refine ⟨?_, still⟩
    rw [List.flatMap_cons, told_append, told_other takes.course absent own, quiet, List.nil_append]

/-- How an operation ends the subscription in the slot, and what its callback hears of it. -/
inductive Parting (s : Station) (active : Subscription) : Operation → List Told → Prop where
  | unregistered {owner : Owner} (owned : active.owner = owner) (answer : Except Fault Unit) :
      Parting s active (.unsubscribe owner) [(.removed .unregistered, answer)]
  | resultsRefused {batch : List ScanResult} (wanted : batch.filter active.wants ≠ [])
      (fault : Fault) :
      Parting s active (.deliver batch)
        [(.scanResultsAvailable (batch.filter active.wants), .error fault)]
  | resultsTaken {batch : List ScanResult} (wanted : batch.filter active.wants ≠ [])
      (answer : Except Fault Unit) :
      Parting s active (.deliver batch)
        [(.scanResultsAvailable (batch.filter active.wants), .ok ()),
          (.removed .resultsDelivered, answer)]
  | peerLost : Parting s active (.peerLost active.generation) []
  | processed (queued : active.generation ∈ s.inbox) : Parting s active .process []
  | closed : Parting s active .close []

theorem told_announces_self {active : Subscription} {matched : List ScanResult}
    {xs : List Exchange} {answer : Except Fault Unit}
    (announced : Registry.Announces active matched xs answer) :
    (∃ fault, told active.callback.index xs = [(.scanResultsAvailable matched, .error fault)]) ∨
      told active.callback.index xs =
        [(.scanResultsAvailable matched, .ok ()), (.removed .resultsDelivered, answer)] := by
  cases announced with
  | refused fault => exact .inl ⟨fault, told_notify_self⟩
  | taken answer =>
    refine .inr ?_
    rw [told_notify_self, told_notify_self]
    rfl

/-- A subscription either stays as it is or ends in one of these ways. -/
theorem stays_or_parts {s : Station} {op : Operation} {xs : List Exchange} {out : Outcome}
    {r : Registry} {active : Subscription} (course : op.Course s xs out r)
    (occupied : s.registry.current = some active)
    (foreign : op.callback? ≠ some active.callback.index) :
    (told active.callback.index xs = [] ∧ r.current = some active) ∨
      (r.current = none ∧ Parting s active op (told active.callback.index xs)) := by
  have same {held : Subscription} (there : s.registry.current = some held) : held = active :=
    Option.some.inj (there.symm.trans occupied)
  cases course with
  | subscribe course =>
    cases course with
    | rejected =>
      have own : _ ≠ active.callback.index := fun same => foreign (congrArg some same)
      exact .inl ⟨by simp [told_notify_other own], occupied⟩
    | linkFailed _ vacant | successNotSent _ _ _ vacant | admitted _ vacant =>
      rw [occupied] at vacant
      contradiction
  | unsubscribe course =>
    cases course with
    | refused => exact .inl ⟨rfl, occupied⟩
    | removed answer released there owned =>
      obtain rfl := same there
      refine .inr ⟨rfl, ?_⟩
      simpa [told_notify_self] using Parting.unregistered owned answer
  | deliver course =>
    cases course with
    | vacant vacant =>
      rw [occupied] at vacant
      contradiction
    | unmatched => exact .inl ⟨rfl, occupied⟩
    | matched released there wanted announced =>
      obtain rfl := same there
      refine .inr ⟨rfl, ?_⟩
      simp only [told_append, told_log, told_faultEntries, told_release, List.append_nil]
      rcases told_announces_self announced with ⟨fault, heard⟩ | heard
      · rw [heard]
        exact .resultsRefused wanted fault
      · rw [heard]
        exact .resultsTaken wanted _
  | peerLost course =>
    cases course with
    | vacant vacant =>
      rw [occupied] at vacant
      contradiction
    | stale => exact .inl ⟨rfl, occupied⟩
    | lost _ there generation =>
      obtain rfl := same there
      obtain rfl := generation
      exact .inr ⟨rfl, by simpa using Parting.peerLost⟩
  | process course =>
    cases course with
    | vacant vacant =>
      rw [occupied] at vacant
      contradiction
    | stale => exact .inl ⟨told_logs _ _, occupied⟩
    | lost _ _ _ there split =>
      obtain rfl := same there
      refine .inr ⟨rfl, ?_⟩
      simpa using Parting.processed (s := s) (by simp [split])
  | close course =>
    cases course with
    | vacant vacant =>
      rw [occupied] at vacant
      contradiction
    | released _ there =>
      obtain rfl := same there
      exact .inr ⟨rfl, by simpa using Parting.closed⟩

/-- What becomes of an admitted subscription in the turns that follow, and what its callback hears
of it: it is still in the slot at the end, or one turn ended it. -/
inductive Fate (active : Subscription) (s : Station) (turns : List Turn) (final : Station) :
    List Told → Prop where
  | stands (held : final.registry.current = some active) : Fate active s turns final []
  | ended (earlier later : List Turn) {turn : Turn} {before after : Station}
      {heard : List Told} (split : turns = earlier ++ turn :: later)
      (reached : Runs s earlier before)
      (held : before.registry.current = some active)
      (takes : Takes before turn after) (emptied : after.registry.current = none)
      (parting : Parting before active turn.operation heard)
      (rest : Runs after later final) : Fate active s turns final heard

theorem fate {active : Subscription} {s final : Station} {turns : List Turn}
    (runs : Runs s turns final) (held : s.registry.current = some active)
    (foreign : ∀ turn ∈ turns, turn.operation.callback? ≠ some active.callback.index) :
    Fate active s turns final (told active.callback.index (turns.flatMap Turn.exchanges)) := by
  induction runs with
  | nil => exact .stands held
  | @cons s t final turn turns takes rest ih =>
    have later : ∀ turn ∈ turns, turn.operation.callback? ≠ some active.callback.index := by
      intro turn here
      exact foreign turn (List.mem_cons_of_mem _ here)
    rw [List.flatMap_cons, told_append]
    obtain ⟨quiet, stays⟩ | ⟨emptied, parting⟩ :=
      stays_or_parts takes.course held (foreign turn List.mem_cons_self)
    · rw [← takes.after_eq] at stays
      rw [quiet, List.nil_append]
      have tail := ih stays later
      generalize told active.callback.index (turns.flatMap Turn.exchanges) = heard at tail ⊢
      cases tail with
      | stands held => exact .stands held
      | ended earlier later split reached held takes' emptied parting rest =>
        exact .ended (turn :: earlier) later (congrArg (turn :: ·) split) (.cons takes reached)
          held takes' emptied parting rest
    · rw [← takes.after_eq] at emptied
      have gone : t.callback? ≠ some active.callback.index := by simp [callback?, emptied]
      rw [(told_silent rest gone later).1, List.append_nil]
      exact .ended [] turns rfl (.nil s) held takes emptied parting rest

/-- The whole conversation of a registry with the callback of one request, by what the subscribe
of the request met. -/
inductive Conversation (q : Request) (s : Station) (turn : Turn) (t : Station) (after : List Turn)
    (final : Station) : List Told → Prop where
  | unlinked (vacant : s.registry.current = none) (fault : Fault)
      (refused : .link q.peer s.registry.nextGeneration (.error fault) ∈ turn.exchanges) :
      Conversation q s turn t after final []
  | rejected {active : Subscription} (occupied : s.registry.current = some active)
      (answer : Except Fault Unit) :
      Conversation q s turn t after final
        [(.registerFailed (if active.owner = q.owner then .alreadyRegistered else .resourceBusy),
          answer)]
  | unacknowledged (vacant : s.registry.current = none) (link : Nat)
      (linked : .link q.peer s.registry.nextGeneration (.ok link) ∈ turn.exchanges)
      (fault : Fault) :
      Conversation q s turn t after final [(.registerSuccess, .error fault)]
  | admitted (vacant : s.registry.current = none) (link : Nat)
      (linked : .link q.peer s.registry.nextGeneration (.ok link) ∈ turn.exchanges)
      (held : t.registry.current = some (q.admitted link s.registry.nextGeneration))
      {heard : List Told}
      (fate : Fate (q.admitted link s.registry.nextGeneration) t after final heard) :
      Conversation q s turn t after final ((.registerSuccess, .ok ()) :: heard)

/-- The callbacks that come with the turns, in order. -/
def callbacks (turns : List Turn) : List Nat :=
  turns.filterMap (·.operation.callback?)

theorem foreign_of_not_mem {turns : List Turn} {index : Nat} (absent : index ∉ callbacks turns) :
    ∀ turn ∈ turns, turn.operation.callback? ≠ some index := by
  intro turn here same
  exact absent (List.mem_filterMap.mpr ⟨turn, here, same⟩)

/-- Every request of every run from a new registry has one of these conversations, where each
request comes with a callback of its own. -/
theorem request_conversation {before after : List Turn} {turn : Turn} {q : Request}
    {s t final : Station} (first : Runs {} before s) (takes : Takes s turn t)
    (asked : turn.operation = .subscribe q) (rest : Runs t after final)
    (own : (callbacks (before ++ turn :: after)).Nodup) :
    Conversation q s turn t after final
      (told q.callback.index ((before ++ turn :: after).flatMap Turn.exchanges)) := by
  obtain ⟨op, _, xs, out, r, posted⟩ := turn
  subst asked
  have apart : q.callback.index ∉ callbacks before ∧ q.callback.index ∉ callbacks after := by
    simp only [callbacks, List.filterMap_append, List.filterMap_cons, Operation.callback?] at own ⊢
    rw [List.nodup_append, List.nodup_cons] at own
    refine ⟨?_, own.2.1.1⟩
    intro early
    exact own.2.2 _ early _ List.mem_cons_self rfl
  have later := foreign_of_not_mem apart.2
  obtain ⟨quiet, absent⟩ := told_silent first (by simp [callback?]) (foreign_of_not_mem apart.1)
  have left : t.registry = r := takes.after_eq
  rw [List.flatMap_append, List.flatMap_cons, told_append, told_append, quiet, List.nil_append]
  cases takes.course with
  | subscribe course =>
    cases course with
    | rejected answer occupied =>
      have silent := (told_silent rest (by simpa [callback?, left] using absent) later).1
      rw [silent, List.append_nil]
      rw [told_log, told_notify_self, told_faultEntries]
      exact .rejected occupied answer
    | linkFailed fault vacant =>
      have gone : t.callback? ≠ some q.callback.index := by simp [callback?, left, vacant]
      rw [(told_silent rest gone later).1, List.append_nil]
      exact .unlinked vacant fault List.mem_cons_self
    | successNotSent link fault answer vacant =>
      have gone : t.callback? ≠ some q.callback.index := by simp [callback?, left, vacant]
      rw [(told_silent rest gone later).1, List.append_nil]
      simpa [told_notify_self] using
        Conversation.unacknowledged vacant link List.mem_cons_self fault
    | admitted link vacant =>
      have held : t.registry.current = some (q.admitted link s.registry.nextGeneration) :=
        congrArg Registry.current left
      rw [told_link, told_notify_self, told_log, told_nil]
      exact .admitted vacant link List.mem_cons_self held (fate rest held later)

/-- A rival asks in between, a stale notice arrives, and the results cannot be delivered. -/
theorem request_conversation_unreachable :
    let seen : ScanResult := ⟨⟨[0xC3, 0x28], by decide⟩, "02:00:00:00:00:01", ⟨2412⟩, -40⟩
    let q := Request.forOne ⟨1⟩ ⟨0, "peer"⟩ ⟨0, "callback"⟩ seen.ssid
    let rival := Request.forOne ⟨2⟩ ⟨0, "peer"⟩ ⟨1, "callback"⟩ seen.ssid
    ∃ (turn : Turn) (t final : Station) (after : List Turn),
      Runs {} [] {} ∧ Takes {} turn t ∧ turn.operation = .subscribe q ∧ Runs t after final ∧
      after.map Turn.operation = [.subscribe rival, .process, .deliver [seen]] ∧
      (callbacks ([] ++ turn :: after)).Nodup ∧
      Conversation q {} turn t after final
        [(.registerSuccess, .ok ()),
          (.scanResultsAvailable [seen], .error .callbackBufferFull)] := by
  intro seen q rival
  let held := q.admitted 7 1
  have wanted : [seen].filter held.wants = [seen] := by
    apply List.filter_eq_self.mpr
    simp only [List.mem_singleton, forall_eq]
    exact Request.wants_forOne _ _ _ seen _ _
  have enters : Takes {} _ ⟨⟨some held, 0, 2⟩, [], true⟩ :=
    .of_course (.subscribe q) (.subscribe (.admitted 7 rfl)) rfl []
  have clashes : Takes ⟨⟨some held, 0, 2⟩, [], true⟩ _ ⟨⟨some held, 0, 2⟩, [5], true⟩ :=
    .of_course (.subscribe rival) (.subscribe (.rejected (.ok ()) rfl)) rfl [5]
  have ignores : Takes ⟨⟨some held, 0, 2⟩, [5], true⟩ _ ⟨⟨some held, 0, 2⟩, [], true⟩ :=
    .of_course .process (.process (.stale rfl (by decide))) rfl []
  have delivers : Takes ⟨⟨some held, 0, 2⟩, [], true⟩ _ ⟨⟨none, 0, 2⟩, [], true⟩ :=
    .of_course (.deliver [seen])
      (.deliver (.matched (.ok ()) rfl (by rw [wanted]; decide) (.refused .callbackBufferFull)))
      rfl []
  rw [wanted] at delivers
  have rest := Runs.cons clashes (.cons ignores (.cons delivers (.nil _)))
  have talk := request_conversation (.nil _) enters rfl rest (by decide)
  exact ⟨_, _, _, _, .nil _, enters, rfl, rest, rfl, by decide, talk⟩

end Station
end ScanSlot
