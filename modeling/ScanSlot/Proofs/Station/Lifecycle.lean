import ScanSlot.Registry.View
import ScanSlot.Proofs.Registry.Matching
import ScanSlot.Proofs.Station.Conversation
import ScanSlot.Proofs.Station.Links

/-! The slot as a state machine. A subscription leaves the slot by the few operations that end it and
by nothing else, and until then nothing about it changes; the empty slot is filled by an attempt whose
link and acknowledgement both succeed and by nothing else. No answer on the way out makes a
difference. -/
namespace ScanSlot

/-- The peer of a request grants a link, and its callback takes the acknowledgement. -/
structure Turn.Admits (turn : Turn) (q : Request) (link : Nat) : Prop where
  asked : turn.operation = .subscribe q
  granted : ∃ generation, .link q.peer generation (.ok link) ∈ turn.exchanges
  acknowledged : .notify q.callback .registerSuccess (.ok ()) ∈ turn.exchanges

namespace Station
variable {s t : Station} {turn : Turn} {active : Subscription}

/-- What a turn makes of the subscription that it finds in the slot. -/
structure Leaves (s : Station) (active : Subscription) (turn : Turn) (t : Station) : Prop where
  gone_iff : t.registry.current ≠ some active ↔ turn.operation.Retires s active
  ended : turn.operation.Retires s active →
    t.registry.current = none ∧ t.registry.cycles = 0 ∧
      ∃ answer, peerCalls turn.exchanges = [.unlink active.peer active.link answer]
  kept : ¬ turn.operation.Retires s active →
    t.registry.current = some active ∧ peerCalls turn.exchanges = [] ∧
      told active.callback.index turn.exchanges = []

/-- What a turn makes of the empty slot. -/
structure Fills (s : Station) (turn : Turn) (t : Station) : Prop where
  occupied_iff : t.registry.current ≠ none ↔ ∃ q link, turn.Admits q link
  admitted : ∀ q link, turn.Admits q link →
    t.registry.current = some (q.admitted link s.registry.nextGeneration) ∧ t.registry.cycles = 0

/-- The callback in the slot came with an earlier request. -/
theorem holder_called {earlier : List Turn} (first : Runs {} earlier s)
    (occupied : s.registry.current = some active) : active.callback.index ∈ callbacks earlier := by
  apply Decidable.byContradiction
  intro absent
  have gone := (told_silent first (by simp [callback?]) (foreign_of_not_mem absent)).2
  exact gone (congrArg (Option.map fun held : Subscription => held.callback.index) occupied)

theorem leaves (takes : Takes s turn t) (occupied : s.registry.current = some active)
    (foreign : turn.operation.callback? ≠ some active.callback.index) : Leaves s active turn t := by
  have left := takes.after_eq
  obtain ⟨retires, emptied, calls⟩ | ⟨stays, calls, held⟩ := retires_or_stays takes.course occupied
  · rw [← left] at emptied
    have gone : t.registry.current ≠ some active := by
      rw [emptied]
      exact nofun
    have cleared := takes.cleared (Registry.cleared_of_occupied occupied)
    exact {
      gone_iff := iff_of_true gone retires
      ended := fun _ => ⟨emptied, cleared emptied, calls⟩
      kept := fun stays => absurd retires stays }
  · rw [← left] at held
    have quiet : told active.callback.index turn.exchanges = [] := by
      obtain ⟨quiet, _⟩ | ⟨emptied, _⟩ := stays_or_parts takes.course occupied foreign
      · exact quiet
      · rw [← left, held] at emptied
        contradiction
    exact {
      gone_iff := iff_of_false (not_not_intro held) stays
      ended := fun retires => absurd retires stays
      kept := fun _ => ⟨held, calls, quiet⟩ }

theorem fills (takes : Takes s turn t) (cleared : s.registry.Cleared)
    (vacant : s.registry.current = none) : Fills s turn t := by
  have left := takes.after_eq
  obtain ⟨q, accepted, asked, attempt⟩ | ⟨other, _, empty⟩ := attempts_or_rests takes.course vacant
  · have own {q' : Request} {link : Nat} (admits : turn.Admits q' link) : q' = q :=
      Operation.subscribe.inj (admits.asked.symm.trans asked)
    have refused (failed : t.registry.current = none) (never : ∀ link, ¬ turn.Admits q link) :
        Fills s turn t := by
      refine ⟨iff_of_false (not_not_intro failed) ?_, ?_⟩
      · rintro ⟨q', link, admits⟩
        obtain rfl := own admits
        exact never link admits
      · intro q' link admits
        obtain rfl := own admits
        exact absurd admits (never link)
    generalize calls : turn.exchanges = xs at attempt
    generalize after : turn.after = r at attempt left
    cases attempt with
    | rejected _ occupied =>
      rw [vacant] at occupied
      contradiction
    | linkFailed fault =>
      refine refused (left ▸ vacant) ?_
      rintro link ⟨_, _, acknowledged⟩
      simp [calls] at acknowledged
    | successNotSent link fault answer =>
      refine refused (left ▸ vacant) ?_
      rintro link ⟨_, _, acknowledged⟩
      rw [calls] at acknowledged
      cases answer <;> simp [faultEntries] at acknowledged
    | admitted link =>
      have held : t.registry.current = some (q.admitted link s.registry.nextGeneration) :=
        congrArg Registry.current left
      have fresh : t.registry.cycles = 0 := (congrArg Registry.cycles left).trans (cleared vacant)
      have admits : turn.Admits q link :=
        ⟨asked, ⟨s.registry.nextGeneration, by simp [calls]⟩, by simp [calls]⟩
      refine ⟨iff_of_true (by simp [held]) ⟨q, link, admits⟩, ?_⟩
      intro q' link' admits'
      obtain rfl := own admits'
      obtain ⟨_, granted⟩ := admits'.granted
      simp only [calls, List.mem_cons, Exchange.link.injEq, Except.ok.injEq, reduceCtorEq,
        List.not_mem_nil, or_false] at granted
      rw [held, granted.2.2]
      exact ⟨rfl, fresh⟩
  · rw [← left] at empty
    have never : ∀ q link, ¬ turn.Admits q link := by
      intro q link admits
      exact other q admits.asked
    refine ⟨iff_of_false (not_not_intro empty) ?_, ?_⟩
    · rintro ⟨q, link, admits⟩
      exact never q link admits
    · intro q link admits
      exact absurd admits (never q link)

/-- In every state that a registry reaches and for every operation: the subscription in the slot is
ended by exactly the operations that retire it, whatever is answered on the way, and is otherwise
left as it is; the empty slot is filled by exactly the attempts that succeed, and nothing is counted
on it yet. A batch retires a subscription if it names one of its targets byte for byte. -/
theorem slot_transitions {earlier : List Turn} (first : Runs {} earlier s) (takes : Takes s turn t)
    (own : (callbacks (earlier ++ [turn])).Nodup) :
    (∀ active, s.registry.current = some active →
        Leaves s active turn t ∧
          ∀ targets, active.Seeks targets → ∀ batch,
            (Operation.deliver batch).Retires s active ↔ matching targets batch ≠ []) ∧
      (s.registry.current = none → Fills s turn t) := by
  refine ⟨?_, fills takes (cleared_of_runs first)⟩
  intro active occupied
  refine ⟨leaves takes occupied ?_, ?_⟩
  · intro same
    have apart : (callbacks earlier ++ callbacks [turn]).Nodup := by
      rwa [callbacks, List.filterMap_append] at own
    have late : active.callback.index ∈ callbacks [turn] :=
      List.mem_filterMap.mpr ⟨turn, List.mem_singleton_self turn, same⟩
    exact (List.nodup_append.mp apart).2.2 _ (holder_called first occupied) _ late rfl
  · intro targets seeks batch
    rw [← active.filter_wants seeks]
    constructor
    · rintro ⟨result, here, wanted⟩
      exact List.ne_nil_of_mem (List.mem_filter.mpr ⟨here, wanted⟩)
    · intro matched
      obtain ⟨result, here⟩ := List.exists_mem_of_ne_nil _ matched
      exact ⟨result, List.mem_filter.mp here⟩

/-- The results cannot be delivered and the link cannot be given back; the slot is emptied. -/
theorem slot_transitions_unheard :
    let seen : ScanResult := ⟨⟨[0xC3, 0x28], by decide⟩, "02:00:00:00:00:01", ⟨2412⟩, -40⟩
    let q := Request.forOne ⟨1⟩ ⟨0, "peer"⟩ ⟨0, "callback"⟩ seen.ssid
    ∃ (enters delivers : Turn) (s t : Station),
      Runs {} [enters] s ∧ Takes s delivers t ∧
      [enters, delivers].map Turn.operation = [.subscribe q, .deliver [seen]] ∧
      (callbacks ([enters] ++ [delivers])).Nodup ∧
      told 0 delivers.exchanges = [(.scanResultsAvailable [seen], .error .peerUnreachable)] ∧
      s.registry.current = some (q.admitted 7 1) ∧ t.registry.current = none ∧
      Leaves s (q.admitted 7 1) delivers t ∧
      peerCalls delivers.exchanges = [.unlink q.peer 7 (.error (.notLinked 7))] := by
  intro seen q
  let held := q.admitted 7 1
  have wanted : [seen].filter held.wants = [seen] := by
    apply List.filter_eq_self.mpr
    simp only [List.mem_singleton, forall_eq]
    exact Request.wants_forOne _ _ _ seen _ _
  have enters : Takes {} _ ⟨⟨some held, 0, 2⟩, [], true⟩ :=
    .of_course (.subscribe q) (.subscribe (.admitted 7 rfl)) rfl []
  have delivers : Takes ⟨⟨some held, 0, 2⟩, [], true⟩ _ ⟨⟨none, 0, 2⟩, [], true⟩ :=
    .of_course (.deliver [seen])
      (.deliver (.matched (.error (.notLinked 7)) rfl (by rw [wanted]; decide)
        (.refused .peerUnreachable)))
      rfl []
  rw [wanted] at delivers
  have first := Runs.cons enters (.nil _)
  have left := (slot_transitions first delivers (by decide)).1 held rfl
  exact ⟨_, _, _, _, first, delivers, rfl, by decide, rfl, rfl, rfl, left.1, rfl⟩

end Station
end ScanSlot
