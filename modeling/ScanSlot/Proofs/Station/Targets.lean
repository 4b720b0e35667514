import ScanSlot.Proofs.Station.Refusals
import ScanSlot.Proofs.Station.Views
import Mathlib.Data.List.Dedup
import Mathlib.Data.List.Forall2

/-! What a subscriber lists is taken as a set of raw names and a set of frequencies. Requests that
list the same sets in other ways come to the same in every run, requests that do not can be told
apart, and the subscription in the slot always enumerates what was listed by the request that it came
from, each thing once and in ascending order. -/
namespace ScanSlot

/-- A request as it is handed in: it lists its targets. -/
structure Application where
  owner : Owner
  peer : PeerRef
  callback : CallbackRef
  ssids : List Ssid
  frequencies : List Frequency

namespace Application

def request (a : Application) : Except Fault Request :=
  Request.ofTargets a.owner a.peer a.callback a.ssids a.frequencies

/-- The same request, except that the lists may write the same sets in different ways. -/
structure Alike (a b : Application) : Prop where
  owner : a.owner = b.owner
  peer : a.peer = b.peer
  callback : a.callback = b.callback
  names : ∀ bytes, bytes ∈ a.ssids.map Ssid.bytes ↔ bytes ∈ b.ssids.map Ssid.bytes
  frequencies : ∀ f, f ∈ a.frequencies ↔ f ∈ b.frequencies

end Application

/-- What a registry is asked for, or what happens around it. -/
inductive Demand (σ : Type) where
  | subscribe (application : Application)
  | unsubscribe (owner : Owner)
  | deliver (batch : List ScanResult)
  | peerLost (generation : Nat)
  | process
  | close
  | outside (change : σ → σ)

/-- Two demands that differ at most in how a request writes its sets. -/
inductive Demand.Alike {σ : Type} : Demand σ → Demand σ → Prop where
  | same (d : Demand σ) : Alike d d
  | subscribe {a b : Application} (alike : a.Alike b) : Alike (.subscribe a) (.subscribe b)

/-- A request that cannot be put together never reaches the registry. -/
def Demand.occurrence {σ : Type} : Demand σ → Except Fault (Occurrence σ)
  | subscribe a => a.request.map fun q => .operation (.subscribe q)
  | unsubscribe owner => .ok (.operation (.unsubscribe owner))
  | deliver batch => .ok (.operation (.deliver batch))
  | peerLost generation => .ok (.operation (.peerLost generation))
  | process => .ok (.operation .process)
  | close => .ok (.operation .close)
  | outside change => .ok (.outside change)

/-- All that is told of a moment: what was answered, which calls and log entries were made, and what
the registry then answers when it is asked. -/
structure Account where
  outcome : Option Outcome
  exchanges : List Exchange
  snapshot : Option Snapshot
  json : Option String
  answers : Answers

def Moment.account {σ : Type} (m : Moment σ) : Account :=
  ⟨m.outcome, m.exchanges, m.registry.snapshot, m.registry.json, m.registry.answers⟩

namespace Host
variable {σ : Type}

def answer (h : Host σ) (x : Registry × σ) (d : Demand σ) : Except Fault (Moment σ) :=
  d.occurrence.map (h.meet x.1 x.2)

/-- A refused request leaves everything as it was. -/
def next (h : Host σ) (x : Registry × σ) (d : Demand σ) : Registry × σ :=
  match h.answer x d with
  | .ok m => (m.registry, m.surroundings)
  | .error _ => x

def attend (h : Host σ) (x : Registry × σ) : List (Demand σ) → List (Except Fault (Moment σ))
  | [] => []
  | d :: rest => h.answer x d :: h.attend (h.next x d) rest

/-- What is told of a run. -/
def accounts (h : Host σ) (x : Registry × σ) (demands : List (Demand σ)) :
    List (Except Fault Account) :=
  (h.attend x demands).map (·.map Moment.account)

end Host

namespace Application

/-- Nobody can tell by a run which of two requests it began with. -/
def Interchangeable (a b : Application) : Prop :=
  ∀ {σ : Type} (h : Host σ) (x : Registry × σ) {rest others : List (Demand σ)},
    List.Forall₂ Demand.Alike rest others →
      h.accounts x (.subscribe a :: rest) = h.accounts x (.subscribe b :: others)

variable {a b : Application} {q : Request}

theorem request_eq_error {fault : Fault} :
    a.request = .error fault ↔ a.ssids = [] ∧ fault = .emptyTargets := by
  rw [request, Request.ofTargets]
  split <;> simp_all [eq_comm]

/-- What a request that is put together targets. -/
theorem request_eq_ok :
    a.request = .ok q ↔ a.ssids ≠ [] ∧ q.owner = a.owner ∧ q.peer = a.peer ∧
      q.callback = a.callback ∧ q.names = .ofList (a.ssids.map Ssid.canonical) ∧
      q.frequencies = .ofList a.frequencies := by
  rw [request, Request.ofTargets]
  split
  · rename_i empty
    simp [empty]
  · rename_i nonempty
    rw [Except.ok.injEq]
    constructor
    · intro same
      subst same
      exact ⟨nonempty, rfl, rfl, rfl, rfl, rfl⟩
    · obtain ⟨owner, peer, callback, names, frequencies, _⟩ := q
      simp only [Request.mk.injEq, and_imp]
      intro _ owner peer callback names frequencies
      exact ⟨owner.symm, peer.symm, callback.symm, names.symm, frequencies.symm⟩

end Application

/-- An injective function loses nothing about which members lists have. -/
theorem members_map_iff {α β : Type} {f : α → β} (injective : Function.Injective f)
    {as bs : List α} : (∀ b, b ∈ as.map f ↔ b ∈ bs.map f) ↔ ∀ a, a ∈ as ↔ a ∈ bs := by
  constructor
  · intro same a
    rw [← List.mem_map_of_injective injective, same, List.mem_map_of_injective injective]
  · intro same b
    simp only [List.mem_map, same]

namespace Ssid
variable {ssids others : List Ssid}

theorem raw_iff : (∀ bs, bs ∈ ssids.map bytes ↔ bs ∈ others.map bytes) ↔
    ∀ ssid, ssid ∈ ssids ↔ ssid ∈ others :=
  members_map_iff fun _ _ => bytes_injective

/-- The canonical texts of two lists are the same set if and only if the raw names are. -/
theorem canonicals_eq_iff :
    SortedSet.ofList (ssids.map canonical) = SortedSet.ofList (others.map canonical) ↔
      ∀ bs, bs ∈ ssids.map bytes ↔ bs ∈ others.map bytes := by
  rw [raw_iff, SortedSet.ofList_eq_ofList]
  exact members_map_iff fun _ _ => canonical_injective

end Ssid

namespace SortedSet
variable {α : Type} [Ordered α] [DecidableEq α]

theorem toList_ofList_perm (as : List α) : (ofList as).toList.Perm as.dedup := by
  apply (List.perm_ext_iff_of_nodup (nodup_toList _) as.nodup_dedup).mpr
  intro a
  rw [List.mem_dedup]
  exact mem_ofList

end SortedSet

/-- A subscription enumerates what an application lists: every raw name once, by its canonical text,
and every frequency once, in ascending order. -/
structure Subscription.Enumerates (active : Subscription) (a : Application) : Prop where
  nonempty : active.names.toList ≠ []
  ascending : active.names.toList.Pairwise fun s t => Utf8.bytes s < Utf8.bytes t
  names : active.names.toList.Perm (a.ssids.dedup.map Ssid.canonical)
  apart : ∀ x ∈ a.ssids, ∀ y ∈ a.ssids, x.canonical = y.canonical ↔ x.bytes = y.bytes
  count : active.names.toList.length = (a.ssids.map Ssid.bytes).dedup.length
  rising : active.frequencies.toList.Pairwise fun f g => f.mhz.toInt < g.mhz.toInt
  frequencies : active.frequencies.toList.Perm a.frequencies.dedup

namespace Application
variable {a b : Application} {q : Request}

theorem enumerates (built : a.request = .ok q) (link generation : Nat) :
    (q.admitted link generation).Enumerates a := by
  obtain ⟨_, _, _, _, names, frequencies⟩ := request_eq_ok.mp built
  have listed : q.names.toList.Perm (a.ssids.dedup.map Ssid.canonical) := by
    rw [names, ← List.dedup_map_of_injective fun _ _ => Ssid.canonical_injective]
    exact SortedSet.toList_ofList_perm _
  refine ⟨q.names_ne, q.names.ascending, listed, ?_, ?_, q.frequencies.ascending, ?_⟩
  · exact fun x _ y _ => Ssid.canonical_eq_canonical
  · change q.names.toList.length = _
    rw [listed.length_eq, List.dedup_map_of_injective fun _ _ => Ssid.bytes_injective,
      List.length_map, List.length_map]
  · change q.frequencies.toList.Perm _
    rw [frequencies]
    exact SortedSet.toList_ofList_perm _

theorem Alike.ssids_eq_nil (alike : a.Alike b) : a.ssids = [] ↔ b.ssids = [] := by
  rw [List.eq_nil_iff_forall_not_mem, List.eq_nil_iff_forall_not_mem]
  simp only [Ssid.raw_iff.mp alike.names]

theorem Alike.request_eq (alike : a.Alike b) : a.request = b.request := by
  cases built : a.request with
  | error fault =>
    obtain ⟨empty, refused⟩ := request_eq_error.mp built
    exact (request_eq_error.mpr ⟨alike.ssids_eq_nil.mp empty, refused⟩).symm
  | ok q =>
    obtain ⟨nonempty, owner, peer, callback, names, frequencies⟩ := request_eq_ok.mp built
    refine (request_eq_ok.mpr ⟨?_, ?_, ?_, ?_, ?_, ?_⟩).symm
    · exact fun empty => nonempty (alike.ssids_eq_nil.mpr empty)
    · rw [owner, alike.owner]
    · rw [peer, alike.peer]
    · rw [callback, alike.callback]
    · rw [names]
      exact Ssid.canonicals_eq_iff.mpr alike.names
    · rw [frequencies]
      exact SortedSet.ofList_eq_ofList.mpr alike.frequencies

end Application

/-- Only an application makes a registry subscribe. -/
theorem Demand.exists_application {σ : Type} {d : Demand σ} {q : Request}
    (asked : d.occurrence = .ok (.operation (.subscribe q))) :
    ∃ a, d = .subscribe a ∧ a.request = .ok q := by
  cases d with
  | subscribe a =>
    cases built : a.request with
    | error fault => simp [occurrence, built, Except.map] at asked
    | ok q' =>
      obtain rfl : q' = q := by simpa [occurrence, built, Except.map] using asked
      exact ⟨a, rfl, built⟩
  | unsubscribe | deliver | peerLost | process | close | outside =>
    simp [occurrence] at asked

theorem Demand.Alike.occurrence_eq {σ : Type} {d e : Demand σ} (alike : d.Alike e) :
    d.occurrence = e.occurrence := by
  cases alike with
  | same => rfl
  | subscribe alike => rw [occurrence, occurrence, alike.request_eq]

namespace Host
variable {σ : Type} {h : Host σ} {x : Registry × σ}

/-- Runs go the same way as long as what is asked of them is alike. -/
theorem attend_congr {demands others : List (Demand σ)}
    (alike : List.Forall₂ Demand.Alike demands others) (x : Registry × σ) :
    h.attend x demands = h.attend x others := by
  induction alike generalizing x with
  | nil => rfl
  | @cons d e demands others alike _ ih =>
    have answered : h.answer x d = h.answer x e := by rw [answer, answer, alike.occurrence_eq]
    have after : h.next x d = h.next x e := by rw [next, next, answered]
    rw [attend, attend, answered, after, ih]

/-- An attempt that found the slot empty was accepted, and the subscription in the slot came of it:
it bears the generation of the attempt and enumerates what the attempt listed. -/
inductive Origin (h : Host σ) (x : Registry × σ) (demands : List (Demand σ))
    (active : Subscription) : Prop where
  | intro {a : Application} {m : Moment σ} (earlier later : List (Demand σ))
      (split : demands = earlier ++ .subscribe a :: later)
      (vacant : (earlier.foldl h.next x).1.current = none)
      (accepted : h.answer (earlier.foldl h.next x) (.subscribe a) = .ok m ∧
        m.outcome = some (.decided true))
      (owner : active.owner = a.owner) (peer : active.peer = a.peer)
      (callback : active.callback = a.callback)
      (generation : active.generation = (earlier.foldl h.next x).1.nextGeneration)
      (enumerates : active.Enumerates a)

namespace Origin
variable {demands : List (Demand σ)} {active : Subscription}

theorem before (d : Demand σ) (origin : h.Origin (h.next x d) demands active) :
    h.Origin x (d :: demands) active := by
  obtain ⟨earlier, later, split, vacant, accepted, owner, peer, callback, generation, enumerates⟩ :=
    origin
  exact .intro (d :: earlier) later (congrArg (d :: ·) split) vacant accepted owner peer callback
    generation enumerates

theorem after (origin : h.Origin x demands active) (more : List (Demand σ)) :
    h.Origin x (demands ++ more) active := by
  obtain ⟨earlier, later, rfl, vacant, accepted, owner, peer, callback, generation, enumerates⟩ :=
    origin
  exact .intro earlier (later ++ more) (List.append_assoc ..) vacant accepted owner peer callback
    generation enumerates

end Origin

variable {active : Subscription}

/-- A subscribe fills the empty slot and is accepted, or leaves the slot as it is. -/
theorem meet_subscribe (h : Host σ) (r : Registry) (s : σ) (q : Request) :
    ((h.meet r s (.operation (.subscribe q))).outcome = some (.decided true) ∧ r.current = none ∧
        ∃ link, (h.meet r s (.operation (.subscribe q))).registry.current =
          some (q.admitted link r.nextGeneration)) ∨
      ((h.meet r s (.operation (.subscribe q))).outcome = some (.decided false) ∧
        (h.meet r s (.operation (.subscribe q))).registry.current = r.current) := by
  obtain ⟨outcome, told, course⟩ := course_meet h r s (.subscribe q)
  rw [told]
  generalize (h.meet r s (.operation (.subscribe q))).registry = after at course ⊢
  generalize (h.meet r s (.operation (.subscribe q))).exchanges = xs at course
  cases course with
  | subscribe course =>
    cases course with
    | rejected | linkFailed | successNotSent => exact .inr ⟨rfl, rfl⟩
    | admitted link vacant => exact .inl ⟨rfl, vacant, link, rfl⟩

theorem answer_eq_ok {d : Demand σ} {m : Moment σ} :
    h.answer x d = .ok m ↔ ∃ occurrence, d.occurrence = .ok occurrence ∧
      m = h.meet x.1 x.2 occurrence := by
  rw [answer]
  cases d.occurrence <;> simp [Except.map, eq_comm]

theorem answer_eq_error {a : Application} {fault : Fault} :
    h.answer x (.subscribe a) = .error fault ↔ a.ssids = [] ∧ fault = .emptyTargets := by
  rw [← Application.request_eq_error, answer, Demand.occurrence]
  cases a.request <;> simp [Except.map]

theorem next_of_refused {a : Application} (empty : a.ssids = []) :
    h.next x (.subscribe a) = x := by
  rw [next, answer_eq_error.mpr ⟨empty, rfl⟩]

/-- An accepted application fills the slot. -/
theorem origin_of_accepted {a : Application} {m : Moment σ}
    (answered : h.answer x (.subscribe a) = .ok m) (accepted : m.outcome = some (.decided true)) :
    ∃ active, m.registry.current = some active ∧ active.Enumerates a ∧
      h.Origin x [.subscribe a] active := by
  obtain ⟨occurrence, asked, rfl⟩ := answer_eq_ok.mp answered
  cases built : a.request with
  | error fault => simp [Demand.occurrence, built, Except.map] at asked
  | ok q =>
    obtain rfl : Occurrence.operation (.subscribe q) = occurrence := by
      simpa [Demand.occurrence, built, Except.map] using asked
    obtain ⟨_, vacant, link, filled⟩ | ⟨refused, _⟩ := meet_subscribe h x.1 x.2 q
    · obtain ⟨_, owner, peer, callback, _⟩ := Application.request_eq_ok.mp built
      have enumerates := Application.enumerates built link x.1.nextGeneration
      exact ⟨_, filled, enumerates, .intro [] [] rfl vacant ⟨answered, accepted⟩ owner peer callback
        rfl enumerates⟩
    · rw [accepted] at refused
      simp at refused

/-- What is in the slot after a demand was there before it, or came of it. -/
theorem held_next (d : Demand σ) (held : (h.next x d).1.current = some active) :
    x.1.current = some active ∨ h.Origin x [d] active := by
  cases answered : h.answer x d with
  | error fault =>
    rw [next, answered] at held
    exact .inl held
  | ok m =>
    rw [next, answered] at held
    change m.registry.current = some active at held
    obtain ⟨occurrence, asked, rfl⟩ := answer_eq_ok.mp answered
    cases occurrence with
    | outside change => exact .inl held
    | operation op =>
      obtain ⟨_, _, course⟩ := course_meet h x.1 x.2 op
      cases occupied : x.1.current with
      | some before =>
        obtain ⟨_, emptied, _⟩ | ⟨_, _, kept⟩ := Station.retires_or_stays course occupied
        · rw [emptied] at held
          contradiction
        · exact .inl (kept.symm.trans held)
      | none =>
        obtain ⟨q, _, rfl, _⟩ | ⟨_, _, emptied⟩ := Station.attempts_or_rests course occupied
        · obtain ⟨a, rfl, _⟩ := Demand.exists_application asked
          obtain ⟨accepted, _⟩ | ⟨_, kept⟩ := meet_subscribe h x.1 x.2 q
          · obtain ⟨_, filled, _, origin⟩ := origin_of_accepted answered accepted
            obtain rfl := Option.some.inj (held.symm.trans filled)
            exact .inr origin
          · rw [kept, occupied] at held
            contradiction
        · rw [emptied] at held
          contradiction

/-- What is in the slot after a run was there at its beginning, or came of a demand on the way. -/
theorem held_run (demands : List (Demand σ))
    (held : (demands.foldl h.next x).1.current = some active) :
    x.1.current = some active ∨ h.Origin x demands active := by
  induction demands generalizing x with
  | nil => exact .inl held
  | cons d rest ih =>
    obtain there | origin := ih held
    · obtain there | origin := held_next d there
      · exact .inl there
      · exact .inr (origin.after rest)
    · exact .inr (origin.before d)

end Host

/-- Peers and callbacks that do all they are asked. -/
def Host.willing : Host Unit where
  link _ _ s := (.ok 1, s)
  unlink _ _ s := (.ok (), s)
  notify _ _ s := (.ok (), s)
  log _ s := s
  takeNotices s := ([], s)

namespace Application
variable {a b : Application} {q : Request}

theorem accounts_willing (built : a.request = .ok q) :
    Host.willing.accounts ({}, ()) [.subscribe a] =
      [.ok (Moment.account ⟨some (.decided true),
        [.link q.peer 1 (.ok 1), .notify q.callback .registerSuccess (.ok ()),
          .log (.activated q.owner 1)], ⟨some (q.admitted 1 1), 0, 2⟩, ()⟩)] := by
  have asked : (.subscribe a : Demand Unit).occurrence = .ok (.operation (.subscribe q)) := by
    rw [Demand.occurrence, built]
    rfl
  simp only [Host.accounts, Host.attend, Host.answer, asked]
  rfl

/-- What can be told of a run tells the sets that its request listed. -/
theorem alike_of_accounts (nonempty : a.ssids ≠ [])
    (same : Host.willing.accounts ({}, ()) [.subscribe a] =
      Host.willing.accounts ({}, ()) [.subscribe b]) : a.Alike b := by
  obtain ⟨p, built⟩ := Request.exists_ofTargets nonempty a.owner a.peer a.callback a.frequencies
  rw [accounts_willing built] at same
  cases other : b.request with
  | error fault =>
    simp [Host.accounts, Host.attend, Host.answer, Demand.occurrence, other, Except.map] at same
  | ok q =>
    rw [accounts_willing other] at same
    have told := Except.ok.inj (List.cons.inj same).1
    have names : p.names = q.names := congrArg (·.answers.names) told
    have frequencies : p.frequencies = q.frequencies := congrArg (·.answers.frequencies) told
    have calls := congrArg Account.exchanges told
    simp only [Moment.account, List.cons.injEq, Exchange.link.injEq, Exchange.notify.injEq,
      Exchange.log.injEq, LogEntry.activated.injEq, and_true] at calls
    obtain ⟨peer, callback, owner⟩ := calls
    obtain ⟨_, owner₁, peer₁, callback₁, names₁, frequencies₁⟩ := request_eq_ok.mp built
    obtain ⟨_, owner₂, peer₂, callback₂, names₂, frequencies₂⟩ := request_eq_ok.mp other
    refine ⟨?_, ?_, ?_, ?_, ?_⟩
    · rw [← owner₁, ← owner₂, owner]
    · rw [← peer₁, ← peer₂, peer]
    · rw [← callback₁, ← callback₂, callback]
    · apply Ssid.canonicals_eq_iff.mp
      rw [← names₁, ← names₂, names]
    · apply SortedSet.ofList_eq_ofList.mp
      rw [← frequencies₁, ← frequencies₂, frequencies]

theorem interchangeable_iff (nonempty : a.ssids ≠ []) : a.Interchangeable b ↔ a.Alike b := by
  constructor
  · intro interchangeable
    exact alike_of_accounts nonempty (interchangeable Host.willing ({}, ()) .nil)
  · intro alike σ h x rest others rests
    rw [Host.accounts, Host.accounts, Host.attend_congr (.cons (.subscribe alike) rests)]

end Application

/-- The lists of a request are sets. Requests that list the same raw names and the same frequencies,
however ordered and repeated, cannot be told apart by any run that goes on from any state, and only
they cannot. An accepted request fills the slot, and what is in the slot of a registry at any time came
of such a request and enumerates what it listed. A request is refused if and only if it lists no name,
and the registry does not notice. -/
theorem target_lists_are_sets :
    (∀ a b : Application, a.ssids ≠ [] → (a.Interchangeable b ↔ a.Alike b)) ∧
      (∀ {σ : Type} (h : Host σ) (x : Registry × σ) (a : Application) (m : Moment σ),
        h.answer x (.subscribe a) = .ok m → m.outcome = some (.decided true) →
          ∃ active, m.registry.current = some active ∧ active.Enumerates a) ∧
      (∀ {σ : Type} (h : Host σ) (s : σ) (demands : List (Demand σ)) (active : Subscription),
        (demands.foldl h.next ({}, s)).1.current = some active →
          h.Origin ({}, s) demands active) ∧
      ∀ {σ : Type} (h : Host σ) (x : Registry × σ) (a : Application),
        (∀ fault, h.answer x (.subscribe a) = .error fault ↔
            a.ssids = [] ∧ fault = .emptyTargets) ∧
          (a.ssids = [] → h.next x (.subscribe a) = x) := by
  refine ⟨fun a b => Application.interchangeable_iff, ?_, ?_, ?_⟩
  · intro σ h x a m answered accepted
    obtain ⟨active, filled, enumerates, _⟩ := Host.origin_of_accepted answered accepted
    exact ⟨active, filled, enumerates⟩
  · intro σ h s demands active held
    obtain there | origin := Host.held_run demands held
    · contradiction
    · exact origin
  · intro σ h x a
    exact ⟨fun fault => Host.answer_eq_error, Host.next_of_refused⟩

/-- One target is not UTF-8, the other one is the text of its hexadecimal digits. A request without
targets comes first and a batch without results last. -/
theorem target_lists_are_sets_digits :
    let broken : Ssid := ⟨[0xC3, 0x28], by decide⟩
    let digits : Ssid := ⟨Utf8.encode ['c', '3', '2', '8'], by decide⟩
    let a : Application :=
      ⟨⟨1⟩, ⟨0, "peer"⟩, ⟨0, "sink"⟩, [broken, digits, broken], [⟨5180⟩, ⟨-1⟩, ⟨5180⟩]⟩
    let b : Application := ⟨⟨1⟩, ⟨0, "peer"⟩, ⟨0, "sink"⟩, [digits, broken], [⟨-1⟩, ⟨5180⟩]⟩
    let aimless : Application := { a with ssids := [] }
    let demands : List (Demand Unit) := [.subscribe aimless, .subscribe a, .deliver []]
    ∃ m first active, a.ssids ≠ [] ∧ a.Alike b ∧ a.Interchangeable b ∧
      Host.willing.answer ({}, ()) (.subscribe a) = .ok m ∧ m.outcome = some (.decided true) ∧
      m.registry.current = some first ∧ first.Enumerates a ∧
      (demands.foldl Host.willing.next ({}, ())).1.current = some active ∧
      Host.willing.Origin ({}, ()) demands active ∧
      (demands.foldl Host.willing.next ({}, ())).1.cycles = 1 ∧
      active.names.toList = ["\"c328\"", "c328"] ∧ active.frequencies.toList = [⟨-1⟩, ⟨5180⟩] ∧
      Host.willing.answer ({}, ()) (.subscribe aimless) = .error .emptyTargets ∧
      Host.willing.next ({}, ()) (.subscribe aimless) = ({}, ()) := by
  intro broken digits a b aimless demands
  obtain ⟨interchangeable, admits, origin, refused⟩ := target_lists_are_sets
  have nonempty : a.ssids ≠ [] := List.cons_ne_nil _ _
  have alike : a.Alike b := by
    refine ⟨rfl, rfl, rfl, ?_, ?_⟩
    · intro bytes
      simp only [a, b, List.map_cons, List.map_nil, List.mem_cons, List.not_mem_nil, or_false]
      exact ⟨by tauto, by tauto⟩
    · intro f
      simp only [a, b, List.mem_cons, List.not_mem_nil, or_false]
      exact ⟨by tauto, by tauto⟩
  obtain ⟨first, filled, enumerates⟩ := admits Host.willing ({}, ()) a _ rfl rfl
  have none_listed := refused Host.willing ({}, ()) aimless
  exact ⟨_, first, _, nonempty, alike, (interchangeable a b nonempty).mpr alike, rfl, rfl, filled,
    enumerates, rfl, origin Host.willing () demands _ rfl, rfl, by decide +kernel,
    by decide +kernel, (none_listed.1 .emptyTargets).mpr ⟨rfl, rfl⟩, none_listed.2 rfl⟩

end ScanSlot
