import ScanSlot.Proofs.Station.Refusals
import ScanSlot.Proofs.Worker.Schedule

/-! A backlog of death notices. All that counts is whether it names the subscription in the slot:
then the slot is given up, once, and otherwise nothing happens. The order of the notices, how often
one is repeated and how they are handed over make no difference. -/
namespace ScanSlot

open Dialogue (path_run)

variable {σ τ : Type}

namespace Exchange

/-- Everything but an entry of the log. -/
def isCall : Exchange → Bool
  | log _ => false
  | link .. | unlink .. | notify .. => true

@[simp] theorem isCall_log (entry : LogEntry) : (log entry).isCall = false := rfl

end Exchange

/-- What is left of a site without the log. -/
def Site.seen (view : σ → τ) (s : Site σ) : Site τ :=
  ⟨s.inbox, s.exchanges.filter Exchange.isCall, view s.outside⟩

/-- A registry at its site, without the log. -/
def sight (view : σ → τ) (x : Registry × Site σ) : Registry × Site τ :=
  (x.1, x.2.seen view)

namespace Surroundings

/-- The log leaves no mark on what the view shows, and nothing else decides how a peer takes a link
that it is given back. -/
structure Deaf (e : Surroundings σ) (view : σ → τ) : Prop where
  log : ∀ entry s, view (e.log entry s) = view s
  unlink : ∀ peer link {s t}, view s = view t →
    Agrees view (e.unlink peer link s) (e.unlink peer link t)

/-- The subscription in the slot gives its link back and leaves if it is among the lost. -/
def settle (e : Surroundings σ) (lost : List Nat) (x : Registry × Site σ) : Registry × Site σ :=
  match x.1.current with
  | none => x
  | some active =>
      if active.generation ∈ lost then
        (x.1.emptied, (e.host.unlink active.peer active.link x.2).2)
      else x

/-- What a registry at its site comes to when the notices that wait there are settled. -/
def settled (e : Surroundings σ) (x : Registry × Site σ) : Registry × Site σ :=
  e.settle x.2.inbox (x.1, { x.2 with inbox := [] })

section
variable (e : Surroundings σ) {x : Registry × Site σ} {active : Subscription} {lost : List Nat}

theorem settle_vacant (vacant : x.1.current = none) (lost : List Nat) : e.settle lost x = x := by
  rw [settle, vacant]

theorem settle_of_mem (occupied : x.1.current = some active) (named : active.generation ∈ lost) :
    e.settle lost x = (x.1.emptied, (e.host.unlink active.peer active.link x.2).2) := by
  rw [settle, occupied]
  exact if_pos named

theorem settle_of_not_mem (occupied : x.1.current = some active)
    (absent : active.generation ∉ lost) : e.settle lost x = x := by
  rw [settle, occupied]
  exact if_neg absent

/-- Neither the order of the lost nor repetitions matter. -/
theorem settle_congr {other : List Nat}
    (same : ∀ generation, generation ∈ lost ↔ generation ∈ other) (x : Registry × Site σ) :
    e.settle lost x = e.settle other x := by
  simp only [settle, same]

theorem settle_append (first last : List Nat) (x : Registry × Site σ) :
    e.settle (first ++ last) x = e.settle last (e.settle first x) := by
  cases occupied : x.1.current with
  | none => rw [e.settle_vacant occupied, e.settle_vacant occupied, e.settle_vacant occupied]
  | some active =>
    by_cases named : active.generation ∈ first
    · rw [e.settle_of_mem occupied (List.mem_append_left last named),
        e.settle_of_mem occupied named, e.settle_vacant x.1.current_emptied]
    · rw [e.settle_of_not_mem occupied named]
      simp only [settle, occupied, List.mem_append, named, false_or]

theorem settle_nil (x : Registry × Site σ) : e.settle [] x = x := by
  unfold settle
  split
  · rfl
  · exact if_neg List.not_mem_nil

/-- The link is given back whatever waits in the inbox. -/
theorem settle_inbox (lost inbox : List Nat) (r : Registry) (s : Site σ) :
    e.settle lost (r, { s with inbox }) =
      ((e.settle lost (r, s)).1, { (e.settle lost (r, s)).2 with inbox }) := by
  cases occupied : r.current with
  | none => simp only [settle, occupied]
  | some active =>
    by_cases named : active.generation ∈ lost
    · simp only [settle, occupied, if_pos named]
      rfl
    · simp only [settle, occupied, if_neg named]

theorem inbox_settle (lost : List Nat) (x : Registry × Site σ) :
    (e.settle lost x).2.inbox = x.2.inbox := by
  unfold settle
  split
  · rfl
  · split <;> rfl

theorem settled_of_drained (drained : x.2.inbox = []) : e.settled x = x := by
  have same : (x.1, { x.2 with inbox := [] }) = x := by rw [← drained]
  rw [settled, drained, e.settle_nil, same]

/-- What waits can be settled after what is said now or before it. -/
theorem settled_settle (lost : List Nat) (x : Registry × Site σ) :
    e.settled (e.settle lost x) = e.settle lost (e.settled x) := by
  rw [settled, settled, e.inbox_settle, ← e.settle_append, ← e.settle_inbox, ← e.settle_append]
  exact e.settle_congr (by simp [or_comm]) _

end

namespace Deaf
variable {e : Surroundings σ} {view : σ → τ}

theorem unlink_seen (deaf : e.Deaf view) (peer : PeerRef) (link : Nat) {s t : Site σ}
    (same : s.seen view = t.seen view) :
    (e.host.unlink peer link s).2.seen view = (e.host.unlink peer link t).2.seen view := by
  obtain ⟨inbox, said, shown⟩ := Site.mk.inj same
  obtain ⟨answer, outside⟩ := deaf.unlink peer link shown
  simp only [Surroundings.host, Site.seen, List.filter_append, inbox, said, answer, outside]

/-- Entries of the log do not change what is seen. -/
theorem plays (deaf : e.Deaf view) {xs : List Exchange} {s u : Site σ}
    (plays : e.host.Plays xs s u) (entries : ∀ x ∈ xs, x.isCall = false) :
    u.seen view = s.seen view := by
  induction plays with
  | nil => rfl
  | link | unlink | notify => exact absurd (entries _ List.mem_cons_self) nofun
  | @log entry xs s u _ ih =>
    have first : (e.host.log entry s).seen view = s.seen view := by
      simp [Surroundings.host, Site.seen, deaf.log]
    exact (ih fun x later => entries x (List.mem_cons_of_mem _ later)).trans first

/-- What looks the same looks the same after the same losses. -/
theorem settle (deaf : e.Deaf view) (lost : List Nat) {x y : Registry × Site σ}
    (same : sight view x = sight view y) :
    sight view (e.settle lost x) = sight view (e.settle lost y) := by
  obtain ⟨r, s⟩ := x
  obtain ⟨_, t⟩ := y
  obtain ⟨rfl, shown⟩ := Prod.mk.inj same
  cases occupied : r.current with
  | none => rwa [e.settle_vacant occupied, e.settle_vacant occupied]
  | some active =>
    by_cases named : active.generation ∈ lost
    · rw [e.settle_of_mem occupied named, e.settle_of_mem occupied named]
      exact congrArg (Prod.mk r.emptied) (deaf.unlink_seen _ _ shown)
    · rwa [e.settle_of_not_mem occupied named, e.settle_of_not_mem occupied named]

theorem settled (deaf : e.Deaf view) {x y : Registry × Site σ}
    (same : sight view x = sight view y) :
    sight view (e.settled x) = sight view (e.settled y) := by
  obtain ⟨registry, shown⟩ := Prod.mk.inj same
  obtain ⟨inbox, said, outside⟩ := Site.mk.inj shown
  rw [Surroundings.settled, inbox]
  refine deaf.settle _ ?_
  simp only [sight, Site.seen, registry, said, outside]

theorem absorbs (deaf : e.Deaf view) {r r' : Registry} {lost : List Nat} {xs : List Exchange}
    {s u : Site σ} (course : r.Absorbs lost xs r') (plays : e.host.Plays xs s u) :
    sight view (r', u) = sight view (e.settle lost (r, s)) := by
  cases course with
  | vacant vacant =>
    rw [e.settle_vacant vacant]
    exact congrArg (Prod.mk r) (deaf.plays plays (List.forall_mem_nil _))
  | stale occupied absent =>
    rw [e.settle_of_not_mem occupied absent]
    exact congrArg (Prod.mk r) (deaf.plays plays (by simp))
  | @lost active before after answer occupied split first =>
    rw [e.settle_of_mem occupied (by simp [split])]
    rw [← List.singleton_append, ← List.append_assoc] at plays
    obtain ⟨t, entries, plays⟩ := plays.split
    cases plays with
    | unlink call reported =>
      have before := deaf.plays entries (by simp [or_imp, forall_and])
      have after := deaf.plays reported (by cases answer <;> simp [faultEntries])
      have unlinked := deaf.unlink_seen active.peer active.link before
      rw [call] at unlinked
      exact congrArg (Prod.mk r.emptied) (after.trans unlinked)

/-- Notices are applied one after another, and it comes to the same as settling them at once. -/
theorem run_applyNotices (deaf : e.Deaf view) (r : Registry) (lost : List Nat) (s : Site σ) :
    sight view ((r.applyNotices lost).run e.host.toCollaborators s) =
      sight view (e.settle lost (r, s)) := by
  have course := Registry.path_applyNotices.mp
    (path_run e.host.toCollaborators (r.applyNotices lost) s)
  exact deaf.absorbs course (Collaborators.plays_exchanges _ _ _)

theorem run_peerLost (deaf : e.Deaf view) (r : Registry) (generation : Nat) (s : Site σ) :
    sight view ((r.peerLost generation).run e.host.toCollaborators s) =
      sight view (e.settle [generation] (r, s)) := by
  have single : r.applyNotices [generation] = r.peerLost generation := bind_pure _
  rw [← single, deaf.run_applyNotices]

end Deaf

/-- A way of handing over notices: some are queued, the queue is processed, or one is told. -/
inductive Errand where
  | queue (generations : List Nat)
  | process
  | tell (generation : Nat)

def Errand.occurrence : Errand → Occurrence (Site σ)
  | queue generations => .outside fun s => { s with inbox := s.inbox ++ generations }
  | process => .operation .process
  | tell generation => .operation (.peerLost generation)

def Errand.notices : Errand → List Nat
  | queue generations => generations
  | process => []
  | tell generation => [generation]

/-- The registry and its site after an errand. -/
def run (e : Surroundings σ) (x : Registry × Site σ) (errand : Errand) : Registry × Site σ :=
  let m := e.host.meet x.1 x.2 errand.occurrence
  (m.registry, m.surroundings)

theorem run_process (e : Surroundings σ) (r : Registry) (s : Site σ) :
    e.run (r, s) .process =
      (r.applyNotices s.inbox).run e.host.toCollaborators { s with inbox := [] } := by
  simp only [run, Errand.occurrence, Host.meet, Host.handOver, Operation.ask, Dialogue.run_bind]
  rfl

theorem run_tell (e : Surroundings σ) (r : Registry) (s : Site σ) (generation : Nat) :
    e.run (r, s) (.tell generation) =
      (r.peerLost generation).run e.host.toCollaborators s := by
  simp only [run, Errand.occurrence, Host.meet, Host.handOver, Operation.ask, Dialogue.run_bind]
  rfl

namespace Deaf
variable {e : Surroundings σ} {view : σ → τ}

theorem run_process (deaf : e.Deaf view) (x : Registry × Site σ) :
    sight view (e.run x .process) = sight view (e.settled x) := by
  rw [Surroundings.run_process, deaf.run_applyNotices, Surroundings.settled]

theorem run_tell (deaf : e.Deaf view) (x : Registry × Site σ) (generation : Nat) :
    sight view (e.run x (.tell generation)) = sight view (e.settle [generation] x) := by
  rw [Surroundings.run_tell, deaf.run_peerLost]

/-- Nothing waits after processing. -/
theorem drained_process (deaf : e.Deaf view) (x : Registry × Site σ) :
    (e.run x .process).2.inbox = [] := by
  have shown := congrArg (fun y => y.2.inbox) (deaf.run_process x)
  exact shown.trans (e.inbox_settle _ _)

/-- An errand adds its notices to those that wait, or settles some of them. -/
theorem settled_run (deaf : e.Deaf view) (x : Registry × Site σ) (errand : Errand) :
    sight view (e.settled (e.run x errand)) =
      sight view (e.settle errand.notices (e.settled x)) := by
  cases errand with
  | queue generations =>
    rw [Surroundings.settled, Surroundings.settled, ← e.settle_append]
    rfl
  | process =>
    rw [e.settled_of_drained (deaf.drained_process x), deaf.run_process]
    exact congrArg (sight view) (e.settle_nil _).symm
  | tell generation =>
    rw [deaf.settled (deaf.run_tell x generation), e.settled_settle]
    rfl

theorem settled_runs (deaf : e.Deaf view) (errands : List Errand) (x : Registry × Site σ) :
    sight view (e.settled (errands.foldl e.run x)) =
      sight view (e.settle (errands.flatMap Errand.notices) (e.settled x)) := by
  induction errands generalizing x with
  | nil => exact congrArg (sight view) (e.settle_nil _).symm
  | cons errand rest ih =>
    rw [List.foldl_cons, ih, List.flatMap_cons, e.settle_append]
    exact deaf.settle _ (deaf.settled_run x errand)

/-- Once nothing waits, the notices have been settled, however they were handed over. -/
theorem runs_drained (deaf : e.Deaf view) {errands : List Errand} {x : Registry × Site σ}
    (drained : (errands.foldl e.run x).2.inbox = []) :
    sight view (errands.foldl e.run x) =
      sight view (e.settle (errands.flatMap Errand.notices) (e.settled x)) := by
  rw [← deaf.settled_runs, e.settled_of_drained drained]

/-- Handing the same notices over in another way comes to the same, once nothing waits. -/
theorem runs_unordered (deaf : e.Deaf view) {errands : List Errand} {r : Registry} {s : Site σ}
    (drained : (errands.foldl e.run (r, { s with inbox := [] })).2.inbox = [])
    (same : ∀ generation, generation ∈ errands.flatMap Errand.notices ↔ generation ∈ s.inbox) :
    sight view (errands.foldl e.run (r, { s with inbox := [] })) =
      sight view (e.run (r, s) .process) := by
  rw [deaf.runs_drained drained, e.settled_of_drained rfl, deaf.run_process]
  exact congrArg (sight view) (e.settle_congr same _)

theorem drained_portions (deaf : e.Deaf view) (parts : List (List Nat)) {x : Registry × Site σ}
    (drained : x.2.inbox = []) :
    ((parts.flatMap fun part => [.queue part, .process]).foldl e.run x).2.inbox = [] := by
  induction parts generalizing x with
  | nil => exact drained
  | cons part rest ih =>
    rw [List.flatMap_cons, List.foldl_append]
    exact ih (deaf.drained_process _)

theorem drained_tells (deaf : e.Deaf view) (order : List Nat) {x : Registry × Site σ}
    (drained : x.2.inbox = []) : ((order.map .tell).foldl e.run x).2.inbox = [] := by
  induction order generalizing x with
  | nil => exact drained
  | cons generation rest ih =>
    have shown := congrArg (fun y => y.2.inbox) (deaf.run_tell x generation)
    exact ih (shown.trans ((e.inbox_settle _ _).trans drained))

end Deaf

/-- What processing the notices that wait comes to. -/
structure Processes (e : Surroundings σ) (view : σ → τ) (r : Registry) (s : Site σ)
    (m : Moment (Site σ)) : Prop where
  counted : m.outcome = some (.counted s.inbox.length)
  drained : m.surroundings.inbox = []
  untold : ∀ index, told index m.exchanges = []
  ended : ∀ active, r.current = some active → active.generation ∈ s.inbox →
    m.registry = r.emptied ∧ m.registry.cycles = 0 ∧
      m.exchanges.filter Exchange.isCall = [.unlink active.peer active.link
        (e.unlink active.peer active.link s.outside).1] ∧
      view m.surroundings.outside = view (e.unlink active.peer active.link s.outside).2
  kept : (∀ active, r.current = some active → active.generation ∉ s.inbox) →
    m.registry = r ∧ m.exchanges.filter Exchange.isCall = [] ∧
      view m.surroundings.outside = view s.outside

/-- A site remembers what was said there. -/
theorem recorded {e : Surroundings σ} {xs : List Exchange} {s u : Site σ}
    (plays : e.host.Plays xs s u) : u.exchanges = s.exchanges ++ xs := by
  induction plays with
  | nil => exact (List.append_nil _).symm
  | link call _ ih | unlink call _ ih | notify call _ ih =>
    obtain ⟨rfl, rfl⟩ := Prod.mk.inj call
    exact ih.trans (List.append_assoc ..)
  | log _ ih => exact ih.trans (List.append_assoc ..)

namespace Deaf
variable {e : Surroundings σ} {view : σ → τ}

/-- What is left of a moment of processing, and the calls that were made in it. -/
theorem meet_process (deaf : e.Deaf view) (r : Registry) (s : Site σ) :
    let m := e.host.meet r s (.operation .process)
    sight view (m.registry, m.surroundings) = sight view (e.settled (r, s)) ∧
      m.surroundings.exchanges = s.exchanges ++ m.exchanges :=
  ⟨deaf.run_process (r, s), recorded (s := { s with inbox := [] })
    (Collaborators.plays_exchanges _ (Operation.process.ask ⟨r, s.inbox, true⟩) _)⟩

theorem processes (deaf : e.Deaf view) (r : Registry) (s : Site σ) :
    Processes e view r s (e.host.meet r s (.operation .process)) := by
  obtain ⟨outcome, same, course⟩ := course_meet e.host r s .process
  obtain ⟨shown, said⟩ := deaf.meet_process r s
  generalize e.host.meet r s (.operation .process) = m at course same shown said ⊢
  obtain ⟨_, xs, r', u⟩ := m
  dsimp only at shown said
  cases course with
  | process course =>
    refine ⟨same, ?_, ?_, ?_, ?_⟩
    · exact (congrArg (fun x => x.2.inbox) shown).trans (e.inbox_settle _ _)
    · cases course <;> simp
    · intro active occupied named
      rw [Surroundings.settled, e.settle_of_mem occupied named] at shown
      obtain ⟨rfl, seen⟩ := Prod.mk.inj shown
      obtain ⟨_, calls, outside⟩ := Site.mk.inj seen
      simp only [Surroundings.host, said, List.filter_append] at calls
      exact ⟨rfl, rfl, List.append_cancel_left calls, outside⟩
    · intro absent
      have untouched : e.settled (r, s) = (r, { s with inbox := [] }) := by
        cases occupied : r.current with
        | none => exact e.settle_vacant occupied _
        | some active => exact e.settle_of_not_mem occupied (absent active occupied)
      rw [untouched] at shown
      obtain ⟨rfl, seen⟩ := Prod.mk.inj shown
      obtain ⟨_, calls, outside⟩ := Site.mk.inj seen
      simp only [said, List.filter_append, List.append_right_eq_self] at calls
      exact ⟨rfl, calls, outside⟩

end Deaf

/-- In every state of the registry and for every backlog: processing takes all of it and speaks to
nobody but the peer of the subscription in the slot, whose link is given back, once, if the backlog
names that subscription. Another order and other repetitions come to the same, the number of notices
apart; and so do portions that are processed one by one, and telling the notices one by one. -/
theorem backlog_unordered {e : Surroundings σ} {view : σ → τ} (deaf : e.Deaf view) (r : Registry)
    (s : Site σ) :
    Processes e view r s (e.host.meet r s (.operation .process)) ∧
      (∀ queue, (∀ generation, generation ∈ queue ↔ generation ∈ s.inbox) →
        sight view (e.run (r, { s with inbox := queue }) .process) =
          sight view (e.run (r, s) .process)) ∧
      (∀ parts : List (List Nat),
        (∀ generation, generation ∈ parts.flatten ↔ generation ∈ s.inbox) →
          sight view ((parts.flatMap fun part => [.queue part, .process]).foldl e.run
            (r, { s with inbox := [] })) = sight view (e.run (r, s) .process)) ∧
      (∀ order : List Nat, (∀ generation, generation ∈ order ↔ generation ∈ s.inbox) →
        sight view ((order.map .tell).foldl e.run (r, { s with inbox := [] })) =
          sight view (e.run (r, s) .process)) := by
  refine ⟨deaf.processes r s, ?_, ?_, ?_⟩
  · intro queue same
    rw [deaf.run_process, deaf.run_process]
    exact congrArg (sight view) (e.settle_congr same _)
  · intro parts same
    refine deaf.runs_unordered (deaf.drained_portions parts rfl) fun generation => ?_
    rw [← same generation]
    simp [Errand.notices, List.flatMap_assoc]
  · intro order same
    refine deaf.runs_unordered (deaf.drained_tells order rfl) fun generation => ?_
    rw [← same generation]
    simp [Errand.notices]

/-- The notices that count stand twice among others of earlier and of no attempts, and the log shows
how they were handed over. -/
theorem backlog_unordered_repeated :
    let q := Request.forOne ⟨1⟩ ⟨0, "peer"⟩ ⟨0, "callback"⟩ ⟨[0x61], by decide⟩
    let e : Surroundings (List Nat × List LogEntry) :=
      { link := fun _ generation (links, journal) =>
          (.ok generation, [], (links ++ [generation], journal))
        unlink := fun _ link (links, journal) =>
          (if link ∈ links then .ok () else .error (.notLinked link), (links.erase link, journal))
        notify := fun _ _ outside => (.ok (), outside)
        log := fun entry (links, journal) => (links, journal ++ [entry]) }
    let r : Registry := ⟨some (q.admitted 7 2), 3, 3⟩
    let s : Site (List Nat × List LogEntry) := ⟨[1, 2, 2, 9], [], ([7, 8], [])⟩
    let m := e.host.meet r s (.operation .process)
    let parts := [[9], [2, 1], [], [2]].flatMap fun part => [Errand.queue part, .process]
    let portions := parts.foldl e.run (r, { s with inbox := [] })
    let tells := ([2, 9, 1].map Errand.tell).foldl e.run (r, { s with inbox := [] })
    e.Deaf Prod.fst ∧ Processes e Prod.fst r s m ∧ m.outcome = some (.counted 4) ∧
      m.registry = ⟨none, 0, 3⟩ ∧ m.registry.cycles = 0 ∧
      m.exchanges.filter Exchange.isCall = [.unlink q.peer 7 (.ok ())] ∧
      m.surroundings.outside.1 = [8] ∧
      sight Prod.fst portions = sight Prod.fst (m.registry, m.surroundings) ∧
      sight Prod.fst tells = sight Prod.fst (m.registry, m.surroundings) ∧
      portions.2.outside.2 ≠ m.surroundings.outside.2 := by
  intro q e r s m parts portions tells
  have deaf : e.Deaf Prod.fst := by
    refine ⟨fun _ _ => rfl, ?_⟩
    rintro _ link ⟨links, _⟩ ⟨_, _⟩ rfl
    exact ⟨rfl, rfl⟩
  obtain ⟨processes, _, portioned, told⟩ := backlog_unordered deaf r s
  have ended := processes.ended _ rfl (by decide)
  refine ⟨deaf, processes, processes.counted, ended.1, ended.2.1, ended.2.2.1, ended.2.2.2,
    portioned [[9], [2, 1], [], [2]] ?_, told [2, 9, 1] ?_, ?_⟩
  · intro generation
    simp [s]
    omega
  · intro generation
    simp [s]
    omega
  · decide

end Surroundings
end ScanSlot
