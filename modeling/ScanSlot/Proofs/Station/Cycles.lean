import ScanSlot.Registry.Dump
import ScanSlot.Proofs.Station.Lifecycle

/-! How many batches the subscription in the slot has examined: those delivered since the turn that
admitted it, and none before. The count is cleared only when the slot is given up, and that is enough,
because nothing is counted on a slot that is empty. -/
namespace ScanSlot

def Operation.isDelivery : Operation → Bool
  | deliver _ => true
  | _ => false

namespace Turn

/-- The batches delivered in some turns, whether or not they were examined or had a match. -/
def deliveries (turns : List Turn) : Nat :=
  turns.countP (·.operation.isDelivery)

/-- A count of one's own that is kept beside the slot: giving the slot up clears it, a batch that finds a
subscription and leaves it there raises it, and nothing else touches it, an admission included. -/
def meter (count : UInt64) (turn : Turn) : UInt64 :=
  match turn.before.current, turn.after.current with
  | some _, none => 0
  | some _, some _ => if turn.operation.isDelivery then count + 1 else count
  | none, _ => count

end Turn

/-- Some turns end in the tenure of the subscription in the slot: an attempt was accepted, the turns
since then have admitted nothing else, and all they have changed is the number of batches examined. -/
inductive Tenure (turns : List Turn) (r : Registry) (later : List Turn) : Prop where
  | intro {q : Request} {link : Nat} (earlier : List Turn) (turn : Turn)
      (split : turns = earlier ++ turn :: later) (admits : turn.Admits q link)
      (accepted : turn.outcome = .decided true)
      (nobody : ∀ other ∈ later, ∀ q link, ¬ other.Admits q link)
      (held : r.current = some (q.admitted link turn.before.nextGeneration))
      (counted : r.cycles = .ofNat (Turn.deliveries later))

namespace Registry

/-- Whoever asks for the number of batches is told the same, however it is asked. -/
structure Reports (r : Registry) (count : Nat) : Prop where
  asked : r.cycles.toNat = count
  recorded : r.snapshot.map (·.cycles.toNat) = r.current.map fun _ => count
  dumped : ∃ head, r.dump =
    head ++ ("delivery_cycles: " ++ toString count ++ "\nSubscriptionRegistry - Log End ----\n")

theorem reports (r : Registry) : r.Reports r.cycles.toNat where
  asked := rfl
  recorded := by
    cases occupied : r.current <;> simp [snapshot, Subscription.snapshot, occupied]
  dumped := by
    have ending (count : String) : String.join (["delivery_cycles: " ++ count,
        "SubscriptionRegistry - Log End ----"].flatMap fun line => [line, "\n"]) =
          "delivery_cycles: " ++ count ++ "\nSubscriptionRegistry - Log End ----\n" := by
      simp [String.append_assoc]
    rw [dump, dumpPieces, dumpLines, List.flatMap_append, String.join_append, ending]
    exact ⟨_, rfl⟩

end Registry

namespace Station
variable {s t : Station} {turn : Turn} {turns : List Turn} {op : Operation}
  {xs : List Exchange} {out : Outcome} {r : Registry} {active : Subscription}

/-- An operation that leaves the subscription in the slot counts its batch, if it came with one. -/
theorem counted_course (course : op.Course s xs out r)
    (occupied : s.registry.current = some active) :
    r.current = none ∨ r = s.registry.counting (if op.isDelivery then 1 else 0) := by
  have same : s.registry = s.registry.counting 0 := s.registry.counting_zero.symm
  cases course with
  | subscribe course =>
    cases course with
    | rejected => exact .inr same
    | linkFailed _ vacant | successNotSent _ _ _ vacant | admitted _ vacant =>
      rw [occupied] at vacant
      contradiction
  | unsubscribe course =>
    cases course with
    | refused => exact .inr same
    | removed => exact .inl rfl
  | deliver course =>
    cases course with
    | vacant vacant => exact .inl vacant
    | unmatched => exact .inr rfl
    | matched => exact .inl rfl
  | peerLost course =>
    cases course with
    | vacant vacant => exact .inl vacant
    | stale => exact .inr same
    | lost => exact .inl rfl
  | process course =>
    cases course with
    | vacant vacant => exact .inl vacant
    | stale => exact .inr same
    | lost => exact .inl rfl
  | close course => cases course <;> exact .inl rfl

theorem not_admits_of_occupied (takes : Takes s turn t)
    (occupied : s.registry.current = some active) (q : Request) (link : Nat) :
    ¬ turn.Admits q link := by
  intro admits
  obtain ⟨generation, granted⟩ := admits.granted
  have call : .link q.peer generation (.ok link) ∈ peerCalls turn.exchanges :=
    List.mem_filter.mpr ⟨granted, rfl⟩
  obtain ⟨_, _, answer, calls⟩ | ⟨_, calls, _⟩ := retires_or_stays takes.course occupied
  · simp [calls] at call
  · simp [calls] at call

/-- A turn that admits a subscription says so. -/
theorem accepted_of_admits {q : Request} {link : Nat} (takes : Takes s turn t)
    (admits : turn.Admits q link) : turn.outcome = .decided true := by
  have course := takes.course
  have acknowledged := admits.acknowledged
  obtain ⟨op, _, xs, out, r, _⟩ := turn
  obtain rfl : op = .subscribe q := admits.asked
  cases course with
  | subscribe course =>
    cases course with
    | rejected answer => cases answer <;> simp [faultEntries] at acknowledged
    | linkFailed => simp at acknowledged
    | successNotSent _ _ answer => cases answer <;> simp [faultEntries] at acknowledged
    | admitted => rfl

/-- What is in the slot at the end was admitted on the way, or was there from the beginning. -/
theorem tenure (runs : Runs s turns t) (cleared : s.registry.Cleared)
    (occupied : t.registry.current = some active) :
    (∃ later, Tenure turns t.registry later) ∨
      s.registry.current = some active ∧ (∀ turn ∈ turns, ∀ q link, ¬ turn.Admits q link) ∧
        t.registry.cycles = s.registry.cycles + .ofNat (Turn.deliveries turns) := by
  induction runs with
  | nil s => exact .inr ⟨occupied, List.forall_mem_nil _, (UInt64.add_zero _).symm⟩
  | @cons s t final turn turns takes _ ih =>
    obtain ⟨later, earlier, entering, split, admits, accepted, nobody, held, counted⟩ |
      ⟨kept, nobody, counted⟩ := ih (takes.cleared cleared) occupied
    · exact .inl ⟨later, .intro (turn :: earlier) entering (congrArg (turn :: ·) split) admits
        accepted nobody held counted⟩
    · cases before : s.registry.current with
      | none =>
        have filled := fills takes cleared before
        obtain ⟨q, link, admits⟩ := filled.occupied_iff.mp (by rw [kept]; exact nofun)
        obtain ⟨entered, fresh⟩ := filled.admitted q link admits
        rw [kept, ← takes.before_eq] at entered
        rw [fresh, UInt64.zero_add] at counted
        exact .inl ⟨turns, .intro [] turn rfl admits (accepted_of_admits takes admits) nobody
          (occupied.trans entered) counted⟩
      | some first =>
        obtain empty | stays := counted_course takes.course before
        · rw [← takes.after_eq, kept] at empty
          contradiction
        · rw [← takes.after_eq] at stays
          refine .inr ⟨?_, ?_, ?_⟩
          · rw [← before, ← kept, stays, Registry.current_counting]
          · exact List.forall_mem_cons.mpr ⟨not_admits_of_occupied takes before, nobody⟩
          · rw [counted, stays, Registry.counting, UInt64.add_assoc, ← UInt64.ofNat_add,
              Turn.deliveries, Turn.deliveries, List.countP_cons, Nat.add_comm]

theorem meter_takes (takes : Takes s turn t) (cleared : s.registry.Cleared) :
    turn.meter s.registry.cycles = t.registry.cycles := by
  rw [Turn.meter, takes.before_eq, ← takes.after_eq]
  cases before : s.registry.current with
  | none =>
    change s.registry.cycles = _
    rw [cleared before]
    cases after : t.registry.current with
    | none => exact (takes.cleared cleared after).symm
    | some active =>
      have filled := fills takes cleared before
      obtain ⟨q, link, admits⟩ := filled.occupied_iff.mp (by rw [after]; exact nofun)
      exact (filled.admitted q link admits).2.symm
  | some active =>
    cases after : t.registry.current with
    | none => exact (takes.cleared cleared after).symm
    | some _ =>
      obtain empty | stays := counted_course takes.course before
      · rw [← takes.after_eq, after] at empty
        contradiction
      · rw [← takes.after_eq] at stays
        rw [stays]
        cases turn.operation.isDelivery
        · exact (UInt64.add_zero _).symm
        · rfl

theorem meter_runs (runs : Runs s turns t) (cleared : s.registry.Cleared) :
    turns.foldl Turn.meter s.registry.cycles = t.registry.cycles := by
  induction runs with
  | nil => rfl
  | cons takes _ ih =>
    rw [List.foldl_cons, meter_takes takes cleared, ih (takes.cleared cleared)]

theorem cycles_of_tenure {later : List Turn} (tenure : Tenure turns r later)
    (few : turns.length < UInt64.size) : r.cycles.toNat = Turn.deliveries later := by
  obtain ⟨earlier, turn, rfl, _, _, _, _, counted⟩ := tenure
  have least : Turn.deliveries later ≤ later.length := List.countP_le_length
  rw [List.length_append, List.length_cons] at few
  rw [counted]
  exact UInt64.toNat_ofNat_of_lt' (by omega)

/-- After fewer than `2 ^ 64` operations, whatever was answered to them: nothing is counted on an
empty slot, and the count of an occupied one is the number of batches delivered since the attempt
that was accepted, those without any result included. Reading the count, recording the slot and
dumping it give this one number, and it is also that of a count of one's own kept beside the slot. -/
theorem cycles_since_admission (runs : Runs {} turns s) (few : turns.length < UInt64.size) :
    (s.registry.current = none → s.registry.Reports 0) ∧
      (∀ active, s.registry.current = some active →
        ∃ later, Tenure turns s.registry later ∧ s.registry.Reports (Turn.deliveries later)) ∧
      turns.foldl Turn.meter 0 = s.registry.cycles := by
  have told := s.registry.reports
  refine ⟨?_, ?_, meter_runs runs fun _ => rfl⟩
  · intro vacant
    rwa [cleared_of_runs runs vacant] at told
  · intro active occupied
    obtain ⟨later, since⟩ | ⟨there, _⟩ := tenure runs (fun _ => rfl) occupied
    · rw [cycles_of_tenure since few] at told
      exact ⟨later, since, told⟩
    · contradiction

/-- A batch before anyone subscribed, one in an earlier tenure, a failed attempt, a rejected one and
a notice from the earlier tenure count for nothing. -/
theorem cycles_since_admission_again :
    let q := Request.forOne ⟨1⟩ ⟨0, "peer"⟩ ⟨0, "callback"⟩ ⟨[0x61], by decide⟩
    ∃ turns s later, Runs {} turns s ∧ turns.length < UInt64.size ∧
      turns.map Turn.operation =
        [.deliver [], .subscribe q, .deliver [], .unsubscribe ⟨1⟩, .subscribe q, .subscribe q,
          .deliver [], .peerLost 1, .subscribe q, .deliver []] ∧
      s.registry = ⟨some (q.admitted 8 3), 2, 4⟩ ∧
      Tenure turns s.registry later ∧ Turn.deliveries later = 2 ∧
      s.registry.Reports 2 ∧ turns.foldl Turn.meter 0 = 2 := by
  intro q
  have early : Takes {} _ ⟨⟨none, 0, 1⟩, [], true⟩ :=
    .of_course (.deliver []) (.deliver (.vacant rfl)) rfl []
  have enters : Takes ⟨⟨none, 0, 1⟩, [], true⟩ _ ⟨⟨some (q.admitted 7 1), 0, 2⟩, [], true⟩ :=
    .of_course (.subscribe q) (.subscribe (.admitted 7 rfl)) rfl []
  have waits : Takes ⟨⟨some (q.admitted 7 1), 0, 2⟩, [], true⟩ _
      ⟨⟨some (q.admitted 7 1), 1, 2⟩, [], true⟩ :=
    .of_course (.deliver []) (.deliver (.unmatched rfl rfl)) rfl []
  have leaves : Takes ⟨⟨some (q.admitted 7 1), 1, 2⟩, [], true⟩ _ ⟨⟨none, 0, 2⟩, [], true⟩ :=
    .of_course (.unsubscribe ⟨1⟩) (.unsubscribe (.removed (.ok ()) (.ok ()) rfl rfl)) rfl []
  have fails : Takes ⟨⟨none, 0, 2⟩, [], true⟩ _ ⟨⟨none, 0, 3⟩, [], true⟩ :=
    .of_course (.subscribe q)
      (.subscribe (.successNotSent 7 .peerUnreachable (.ok ()) rfl)) rfl []
  have returns : Takes ⟨⟨none, 0, 3⟩, [], true⟩ _ ⟨⟨some (q.admitted 8 3), 0, 4⟩, [], true⟩ :=
    .of_course (.subscribe q) (.subscribe (.admitted 8 rfl)) rfl []
  have first : Takes ⟨⟨some (q.admitted 8 3), 0, 4⟩, [], true⟩ _
      ⟨⟨some (q.admitted 8 3), 1, 4⟩, [], true⟩ :=
    .of_course (.deliver []) (.deliver (.unmatched rfl rfl)) rfl []
  have stale : Takes ⟨⟨some (q.admitted 8 3), 1, 4⟩, [], true⟩ _
      ⟨⟨some (q.admitted 8 3), 1, 4⟩, [], true⟩ :=
    .of_course (.peerLost 1) (.peerLost (.stale rfl (by decide))) rfl []
  have rejected : Takes ⟨⟨some (q.admitted 8 3), 1, 4⟩, [], true⟩ _
      ⟨⟨some (q.admitted 8 3), 1, 4⟩, [], true⟩ :=
    .of_course (.subscribe q) (.subscribe (.rejected (.ok ()) rfl)) rfl []
  have second : Takes ⟨⟨some (q.admitted 8 3), 1, 4⟩, [], true⟩ _
      ⟨⟨some (q.admitted 8 3), 2, 4⟩, [], true⟩ :=
    .of_course (.deliver []) (.deliver (.unmatched rfl rfl)) rfl []
  have runs := Runs.cons early (.cons enters (.cons waits (.cons leaves (.cons fails
    (.cons returns (.cons first (.cons stale (.cons rejected (.cons second (.nil _))))))))))
  obtain ⟨_, tenures, metered⟩ := cycles_since_admission runs (by decide)
  obtain ⟨later, tenure, told⟩ := tenures _ rfl
  have two : Turn.deliveries later = 2 := told.asked.symm.trans (by decide)
  rw [two] at told
  exact ⟨_, _, later, runs, by decide, rfl, rfl, tenure, two, told, metered⟩

end Station
end ScanSlot
