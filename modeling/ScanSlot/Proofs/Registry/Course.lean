import ScanSlot.Registry.Basic
import ScanSlot.Proofs.Dialogue.Path

/-! What each operation of a registry can come to: the calls it makes in their order, the answers
it may get, and the registry it leaves. Each list of cases is complete, so whatever follows about
runs of operations argues by these cases and does not open the operations again. -/
namespace ScanSlot

open Dialogue (Path report reportFault path_bind path_pure path_callLink path_callUnlink
  path_callNotify path_report path_reportFault)

/-- The only call that gives a link back. -/
def Subscription.release (active : Subscription) (answer : Except Fault Unit) : List Exchange :=
  .unlink active.peer active.link answer :: faultEntries (.unlinkFailed active.owner) answer

def Subscription.rejection (active : Subscription) (q : Request) : Rejection :=
  if active.owner = q.owner then .alreadyRegistered else .resourceBusy

namespace Request

/-- The subscription that an admitted request becomes. -/
def admitted (q : Request) (link generation : Nat) : Subscription :=
  { owner := q.owner, peer := q.peer, link, generation, callback := q.callback,
    names := q.names, frequencies := q.frequencies }

/-- A request for one name. -/
def forOne (owner : Owner) (peer : PeerRef) (callback : CallbackRef) (ssid : Ssid) : Request :=
  { owner, peer, callback, names := SortedSet.ofList [ssid.canonical], frequencies := .empty,
    names_ne := SortedSet.toList_ofList_ne_nil (List.cons_ne_nil _ _) }

theorem wants_forOne (owner : Owner) (peer : PeerRef) (callback : CallbackRef)
    (result : ScanResult) (link generation : Nat) :
    ((forOne owner peer callback result.ssid).admitted link generation).wants result = true := by
  simp [Subscription.wants, admitted, forOne]

end Request

namespace Registry

/-- More batches examined. -/
def counting (r : Registry) (batches : Nat) : Registry :=
  { r with cycles := r.cycles + UInt64.ofNat batches }

/-- The next generation is used up. -/
def advanced (r : Registry) : Registry :=
  { r with nextGeneration := r.nextGeneration + 1 }

def holding (r : Registry) (active : Subscription) : Registry :=
  { r with current := some active }

@[simp] theorem current_emptied (r : Registry) : r.emptied.current = none := rfl

@[simp] theorem nextGeneration_emptied (r : Registry) :
    r.emptied.nextGeneration = r.nextGeneration := rfl

@[simp] theorem cycles_emptied (r : Registry) : r.emptied.cycles = 0 := rfl

@[simp] theorem current_counting (r : Registry) (batches : Nat) :
    (r.counting batches).current = r.current := rfl

@[simp] theorem nextGeneration_counting (r : Registry) (batches : Nat) :
    (r.counting batches).nextGeneration = r.nextGeneration := rfl

@[simp] theorem emptied_counting (r : Registry) (batches : Nat) :
    (r.counting batches).emptied = r.emptied := rfl

theorem counting_zero (r : Registry) : r.counting 0 = r := by
  simp [counting]

theorem counting_counting (r : Registry) (m n : Nat) :
    (r.counting m).counting n = r.counting (m + n) := by
  simp [counting, UInt64.add_assoc]

@[simp] theorem current_advanced (r : Registry) : r.advanced.current = r.current := rfl

@[simp] theorem nextGeneration_advanced (r : Registry) :
    r.advanced.nextGeneration = r.nextGeneration + 1 := rfl

@[simp] theorem cycles_advanced (r : Registry) : r.advanced.cycles = r.cycles := rfl

@[simp] theorem current_holding (r : Registry) (active : Subscription) :
    (r.holding active).current = some active := rfl

@[simp] theorem nextGeneration_holding (r : Registry) (active : Subscription) :
    (r.holding active).nextGeneration = r.nextGeneration := rfl

@[simp] theorem cycles_holding (r : Registry) (active : Subscription) :
    (r.holding active).cycles = r.cycles := rfl

/-- Nothing is counted on an empty slot. An admission relies on it. -/
def Cleared (r : Registry) : Prop :=
  r.current = none → r.cycles = 0

theorem cleared_emptied (r : Registry) : r.emptied.Cleared := fun _ => rfl

theorem cleared_of_occupied {r : Registry} {active : Subscription}
    (occupied : r.current = some active) : r.Cleared := by
  intro vacant
  rw [occupied] at vacant
  contradiction

/-- Emptying the slot. -/
inductive Vacates (r : Registry) : List Exchange → Registry → Prop where
  | vacant (vacant : r.current = none) : Vacates r [] r.emptied
  | released {active : Subscription} (answer : Except Fault Unit)
      (occupied : r.current = some active) : Vacates r (active.release answer) r.emptied

theorem path_vacate {r r' : Registry} {xs : List Exchange} :
    Path r.vacate xs r' ↔ Vacates r xs r' := by
  unfold vacate
  constructor
  · intro path
    split at path
    · rename_i vacant
      obtain ⟨rfl, rfl⟩ := path_pure.mp path
      exact .vacant vacant
    · rename_i active occupied
      simp only [path_bind, path_callUnlink, path_reportFault, path_pure] at path
      obtain ⟨_, answer, _, rfl, rfl, _, _, _, rfl, rfl, rfl, rfl⟩ := path
      rw [List.append_nil]
      exact .released answer occupied
  · rintro (vacant | ⟨answer, occupied⟩)
    · rw [vacant]
      exact .done _
    · rw [occupied]
      simp only [path_bind, path_callUnlink, path_reportFault, path_pure]
      exact ⟨_, answer, _, rfl, rfl, _, (), _, (List.append_nil _).symm, rfl, rfl, trivial⟩

/-- Subscribing. -/
inductive Subscribes (r : Registry) (q : Request) : List Exchange → Bool → Registry → Prop where
  | rejected {active : Subscription} (answer : Except Fault Unit)
      (occupied : r.current = some active) :
      Subscribes r q
        (.log (.rejecting q.owner active.owner (active.rejection q)) ::
          .notify q.callback (.registerFailed (active.rejection q)) answer ::
          faultEntries (.failureNotSent q.owner) answer) false r
  | linkFailed (fault : Fault) (vacant : r.current = none) :
      Subscribes r q
        [.link q.peer r.nextGeneration (.error fault), .log (.linkFailed q.owner fault)]
        false r.advanced
  | successNotSent (link : Nat) (fault : Fault) (answer : Except Fault Unit)
      (vacant : r.current = none) :
      Subscribes r q
        (.link q.peer r.nextGeneration (.ok link) ::
          .notify q.callback .registerSuccess (.error fault) ::
          .log (.successNotSent q.owner fault) :: .unlink q.peer link answer ::
          faultEntries (.unlinkAfterFailedAck q.owner) answer) false r.advanced
  | admitted (link : Nat) (vacant : r.current = none) :
      Subscribes r q
        [.link q.peer r.nextGeneration (.ok link), .notify q.callback .registerSuccess (.ok ()),
          .log (.activated q.owner r.nextGeneration)]
        true (r.advanced.holding (q.admitted link r.nextGeneration))

theorem path_reject {active : Subscription} {q : Request} {xs : List Exchange} {u : Unit} :
    Path (reject active q) xs u ↔
      ∃ answer, xs = .log (.rejecting q.owner active.owner (active.rejection q)) ::
        .notify q.callback (.registerFailed (active.rejection q)) answer ::
        faultEntries (.failureNotSent q.owner) answer := by
  simp only [reject, path_bind, path_report, path_callNotify, path_reportFault]
  constructor
  · rintro ⟨_, _, _, rfl, rfl, _, answer, _, rfl, rfl, rfl⟩
    exact ⟨answer, rfl⟩
  · rintro ⟨answer, rfl⟩
    exact ⟨_, (), _, rfl, rfl, _, answer, _, rfl, rfl, rfl⟩

theorem path_occupy {r r' : Registry} {q : Request} {xs : List Exchange} {accepted : Bool}
    (vacant : r.current = none) :
    Path (r.occupy q) xs (accepted, r') ↔ Subscribes r q xs accepted r' := by
  unfold occupy
  constructor
  · intro path
    replace path := path_bind.mp path
    obtain ⟨_, answer, rest, rfl, linked, path⟩ := path
    obtain rfl := path_callLink.mp linked
    cases answer with
    | error fault =>
      simp only [path_bind, path_report, path_pure, Prod.mk.injEq] at path
      obtain ⟨_, _, _, rfl, rfl, rfl, rfl, rfl⟩ := path
      exact .linkFailed fault vacant
    | ok link =>
      replace path := path_bind.mp path
      obtain ⟨_, answer, rest, rfl, told, path⟩ := path
      obtain rfl := path_callNotify.mp told
      cases answer with
      | error fault =>
        simp only [path_bind, path_report, path_callUnlink, path_reportFault, path_pure,
          Prod.mk.injEq] at path
        obtain ⟨_, _, _, rfl, rfl, _, answer, _, rfl, rfl, _, _, _, rfl, rfl, rfl, rfl, rfl⟩ := path
        rw [List.append_nil]
        exact .successNotSent link fault answer vacant
      | ok =>
        simp only [path_bind, path_report, path_pure, Prod.mk.injEq] at path
        obtain ⟨_, _, _, rfl, rfl, rfl, rfl, rfl⟩ := path
        exact .admitted link vacant
  · rintro (⟨_, occupied⟩ | ⟨fault, _⟩ | ⟨link, fault, answer, _⟩ | ⟨link, _⟩)
    · rw [vacant] at occupied
      contradiction
    · exact .link _ (.log (.done _))
    · refine .link _ (.notify _ (.log (.unlink answer ?_)))
      refine path_bind.mpr ⟨[], answer, _, rfl, .done _, ?_⟩
      exact path_bind.mpr ⟨_, (), _, (List.append_nil _).symm, path_reportFault.mpr rfl, .done _⟩
    · exact .link _ (.notify _ (.log (.done _)))

theorem path_subscribe {r r' : Registry} {q : Request} {xs : List Exchange} {accepted : Bool} :
    Path (r.subscribe q) xs (accepted, r') ↔ Subscribes r q xs accepted r' := by
  unfold subscribe
  cases occupied : r.current with
  | none => exact path_occupy occupied
  | some active =>
    simp only [path_bind, path_reject, path_pure, Prod.mk.injEq]
    constructor
    · rintro ⟨_, _, _, rfl, ⟨answer, rfl⟩, rfl, rfl, rfl⟩
      rw [List.append_nil]
      exact .rejected answer occupied
    · intro course
      cases course with
      | rejected answer same =>
        obtain rfl := Option.some.inj (occupied.symm.trans same)
        exact ⟨_, (), _, (List.append_nil _).symm, ⟨answer, rfl⟩, rfl, rfl, rfl⟩
      | linkFailed _ vacant | successNotSent _ _ _ vacant | admitted _ vacant =>
        rw [occupied] at vacant
        contradiction

/-- Giving the slot up. -/
inductive Unsubscribes (r : Registry) (owner : Owner) :
    List Exchange → Bool → Registry → Prop where
  | refused (other : ∀ active, r.current = some active → active.owner ≠ owner) :
      Unsubscribes r owner [] false r
  | removed {active : Subscription} (answer released : Except Fault Unit)
      (occupied : r.current = some active) (owned : active.owner = owner) :
      Unsubscribes r owner
        (.notify active.callback (.removed .unregistered) answer ::
          faultEntries (.removalNotSent owner) answer ++
          .log (.unregistered owner) :: active.release released) true r.emptied

theorem path_vacate_occupied {r r' : Registry} {active : Subscription} {xs : List Exchange}
    (occupied : r.current = some active) :
    Path r.vacate xs r' ↔ ∃ answer, xs = active.release answer ∧ r' = r.emptied := by
  rw [path_vacate]
  constructor
  · rintro (vacant | ⟨answer, same⟩)
    · rw [occupied] at vacant
      contradiction
    · obtain rfl := Option.some.inj (occupied.symm.trans same)
      exact ⟨answer, rfl, rfl⟩
  · rintro ⟨answer, rfl, rfl⟩
    exact .released answer occupied

theorem path_unsubscribe {r r' : Registry} {owner : Owner} {xs : List Exchange}
    {accepted : Bool} :
    Path (r.unsubscribe owner) xs (accepted, r') ↔ Unsubscribes r owner xs accepted r' := by
  unfold unsubscribe
  constructor
  · intro path
    split at path
    · rename_i vacant
      simp only [path_pure, Prod.mk.injEq] at path
      obtain ⟨rfl, rfl, rfl⟩ := path
      exact .refused (by simp [vacant])
    · rename_i active occupied
      split at path
      · rename_i owned
        simp only [path_bind, path_callNotify, path_reportFault, path_report,
          path_vacate_occupied occupied, path_pure, Prod.mk.injEq] at path
        obtain ⟨_, answer, _, rfl, rfl, _, _, _, rfl, rfl, _, _, _, rfl, rfl, _, _, _, rfl,
          ⟨released, rfl, rfl⟩, rfl, rfl, rfl⟩ := path
        rw [List.append_nil]
        exact .removed answer released occupied owned
      · rename_i other
        simp only [path_pure, Prod.mk.injEq] at path
        obtain ⟨rfl, rfl, rfl⟩ := path
        exact .refused (by simpa [occupied] using other)
  · intro course
    cases course with
    | refused other =>
      split
      · exact .done _
      · rename_i active occupied
        rw [if_neg (other active occupied)]
        exact .done _
    | removed answer released occupied owned =>
      simp only [occupied, if_pos owned, path_bind, path_callNotify, path_reportFault,
        path_report, path_vacate_occupied occupied, path_pure, Prod.mk.injEq]
      refine ⟨_, answer, _, ?_, rfl, _, (), _, rfl, rfl, _, (), _, rfl, rfl, _, _, _,
        (List.append_nil _).symm, ⟨released, rfl, rfl⟩, rfl, trivial, rfl⟩
      simp only [List.cons_append, List.nil_append]

/-- Announcing results: the removal is told only where the results were taken. -/
inductive Announces (active : Subscription) (matched : List ScanResult) :
    List Exchange → Except Fault Unit → Prop where
  | refused (fault : Fault) : Announces active matched
      [.notify active.callback (.scanResultsAvailable matched) (.error fault)] (.error fault)
  | taken (answer : Except Fault Unit) : Announces active matched
      [.notify active.callback (.scanResultsAvailable matched) (.ok ()),
        .notify active.callback (.removed .resultsDelivered) answer] answer

theorem path_announce {active : Subscription} {matched : List ScanResult} {xs : List Exchange}
    {answer : Except Fault Unit} :
    Path (announce active matched) xs answer ↔ Announces active matched xs answer := by
  unfold announce
  rw [path_bind]
  constructor
  · rintro ⟨_, first, rest, rfl, told, path⟩
    obtain rfl := path_callNotify.mp told
    cases first with
    | error fault =>
      obtain ⟨rfl, rfl⟩ := path_pure.mp path
      exact .refused fault
    | ok =>
      obtain rfl := path_callNotify.mp path
      exact .taken answer
  · rintro (fault | answer)
    · exact ⟨_, .error fault, [], rfl, path_callNotify.mpr rfl, .done _⟩
    · exact ⟨_, .ok (), _, rfl, path_callNotify.mpr rfl, path_callNotify.mpr rfl⟩

/-- Delivering a batch. -/
inductive Delivers (r : Registry) (batch : List ScanResult) : List Exchange → Registry → Prop where
  | vacant (vacant : r.current = none) : Delivers r batch [] r
  | unmatched {active : Subscription} (occupied : r.current = some active)
      (none_wanted : batch.filter active.wants = []) :
      Delivers r batch [] (r.counting 1)
  | matched {active : Subscription} {xs : List Exchange} {answer : Except Fault Unit}
      (released : Except Fault Unit) (occupied : r.current = some active)
      (wanted : batch.filter active.wants ≠ [])
      (announced : Announces active (batch.filter active.wants) xs answer) :
      Delivers r batch
        (.log (.delivering active.owner (batch.filter active.wants).length) :: xs ++
          faultEntries (.resultsNotSent active.owner) answer ++ active.release released) r.emptied

/-- Delivering to a subscription: the batch is counted before it is looked at. -/
theorem deliver_occupied {r : Registry} {active : Subscription}
    (occupied : r.current = some active) (batch : List ScanResult) :
    r.deliver batch =
      (if batch.filter active.wants = [] then pure (r.counting 1) else do
        report (.delivering active.owner (batch.filter active.wants).length)
        reportFault (.resultsNotSent active.owner)
          (← announce active (batch.filter active.wants))
        (r.counting 1).vacate) := by
  unfold deliver
  split
  · rename_i vacant
    rw [occupied] at vacant
    contradiction
  · rename_i same
    obtain rfl := Option.some.inj (occupied.symm.trans same)
    simp only [List.isEmpty_iff]
    rfl

theorem path_deliver {r r' : Registry} {batch : List ScanResult} {xs : List Exchange} :
    Path (r.deliver batch) xs r' ↔ Delivers r batch xs r' := by
  constructor
  · intro path
    cases occupied : r.current with
    | none =>
      simp only [deliver, occupied, path_pure] at path
      obtain ⟨rfl, rfl⟩ := path
      exact .vacant occupied
    | some active =>
      rw [deliver_occupied occupied] at path
      split at path
      · rename_i unwanted
        obtain ⟨rfl, rfl⟩ := path_pure.mp path
        exact .unmatched occupied unwanted
      · rename_i wanted
        have counted : (r.counting 1).current = some active := occupied
        simp only [path_bind, path_report, path_announce, path_reportFault,
          path_vacate_occupied counted] at path
        obtain ⟨_, _, _, rfl, rfl, xs, answer, _, rfl, announced, _, _, _, rfl, rfl, released,
          rfl, rfl⟩ := path
        have course := Delivers.matched released occupied wanted announced
        simpa only [List.cons_append, List.nil_append, List.append_assoc, emptied_counting]
          using course
  · intro course
    cases course with
    | vacant vacant =>
      rw [deliver, vacant]
      exact .done _
    | unmatched occupied unwanted =>
      rw [deliver_occupied occupied, if_pos unwanted]
      exact .done _
    | @matched active _ _ released occupied wanted announced =>
      have counted : (r.counting 1).current = some active := occupied
      rw [deliver_occupied occupied, if_neg wanted]
      simp only [path_bind, path_report, path_announce, path_reportFault,
        path_vacate_occupied counted]
      refine ⟨_, (), _, ?_, rfl, _, _, _, rfl, announced, _, (), _, rfl, rfl, released, rfl, rfl⟩
      simp only [List.cons_append, List.nil_append, List.append_assoc]

/-- Taking one notice of a peer's death. -/
inductive Loses (r : Registry) (generation : Nat) : List Exchange → Registry → Prop where
  | vacant (vacant : r.current = none) : Loses r generation [] r
  | stale {active : Subscription} (occupied : r.current = some active)
      (other : active.generation ≠ generation) :
      Loses r generation [.log (.staleNotice generation active.generation)] r
  | lost {active : Subscription} (released : Except Fault Unit)
      (occupied : r.current = some active) (same : active.generation = generation) :
      Loses r generation (.log (.peerLost active.owner) :: active.release released) r.emptied

theorem path_peerLost {r r' : Registry} {generation : Nat} {xs : List Exchange} :
    Path (r.peerLost generation) xs r' ↔ Loses r generation xs r' := by
  unfold peerLost
  constructor
  · intro path
    split at path
    · rename_i vacant
      obtain ⟨rfl, rfl⟩ := path_pure.mp path
      exact .vacant vacant
    · rename_i active occupied
      split at path
      · rename_i same
        simp only [path_bind, path_report, path_vacate_occupied occupied] at path
        obtain ⟨_, _, _, rfl, rfl, released, rfl, rfl⟩ := path
        exact .lost released occupied same
      · rename_i other
        simp only [path_bind, path_report, path_pure] at path
        obtain ⟨_, _, _, rfl, rfl, rfl, rfl⟩ := path
        exact .stale occupied other
  · intro course
    cases course with
    | vacant vacant =>
      rw [vacant]
      exact .done _
    | stale occupied other =>
      simp only [occupied, if_neg other]
      exact .log (.done _)
    | lost released occupied same =>
      simp only [occupied, if_pos same]
      exact .log ((path_vacate_occupied occupied).mpr ⟨released, rfl, rfl⟩)

/-- Taking notices one after another: those before the one that counts are stale, and after it the
slot is empty and nothing is said any more. -/
inductive Absorbs (r : Registry) (generations : List Nat) : List Exchange → Registry → Prop where
  | vacant (vacant : r.current = none) : Absorbs r generations [] r
  | stale {active : Subscription} (occupied : r.current = some active)
      (absent : active.generation ∉ generations) :
      Absorbs r generations
        (generations.map fun g => .log (.staleNotice g active.generation)) r
  | lost {active : Subscription} (before after : List Nat) (released : Except Fault Unit)
      (occupied : r.current = some active)
      (split : generations = before ++ active.generation :: after)
      (first : active.generation ∉ before) :
      Absorbs r generations
        ((before.map fun g => .log (.staleNotice g active.generation)) ++
          .log (.peerLost active.owner) :: active.release released) r.emptied

theorem absorbs_nil {r r' : Registry} {xs : List Exchange} :
    Absorbs r [] xs r' ↔ xs = [] ∧ r' = r := by
  constructor
  · rintro (_ | ⟨_, _⟩ | ⟨_, _, _, _, split, _⟩)
    · exact ⟨rfl, rfl⟩
    · exact ⟨rfl, rfl⟩
    · simp at split
  · rintro ⟨rfl, rfl⟩
    cases occupied : r'.current with
    | none => exact .vacant occupied
    | some active => exact .stale occupied List.not_mem_nil

theorem absorbs_cons {r r' : Registry} {generation : Nat} {rest : List Nat}
    {xs : List Exchange} :
    Absorbs r (generation :: rest) xs r' ↔
      ∃ first s last, xs = first ++ last ∧ Loses r generation first s ∧ Absorbs s rest last r' := by
  constructor
  · rintro (vacant | ⟨occupied, absent⟩ | @⟨active, before, after, released, occupied, split, first⟩)
    · exact ⟨[], r, [], rfl, .vacant vacant, .vacant vacant⟩
    · simp only [List.mem_cons, not_or] at absent
      exact ⟨_, r, _, rfl, .stale occupied absent.1, .stale occupied absent.2⟩
    · cases before with
      | nil =>
        simp only [List.nil_append, List.cons.injEq] at split
        obtain ⟨same, _⟩ := split
        exact ⟨_, _, [], (List.append_nil _).symm, .lost released occupied same.symm,
          .vacant rfl⟩
      | cons head before =>
        simp only [List.cons_append, List.cons.injEq] at split
        obtain ⟨rfl, split⟩ := split
        simp only [List.mem_cons, not_or] at first
        exact ⟨[_], r, _, rfl, .stale occupied first.1, .lost before after released occupied split first.2⟩
  · rintro ⟨_, s, last, rfl, vacant | ⟨occupied, other⟩ | ⟨released, occupied, rfl⟩, absorbed⟩
    · rcases absorbed with vacant' | ⟨occupied, _⟩ | ⟨_, _, _, occupied, _, _⟩
      · exact .vacant vacant
      all_goals
        rw [vacant] at occupied
        contradiction
    · rcases absorbed with vacant | ⟨held, absent⟩ | ⟨before, after, released, held, rfl, first⟩
      · rw [occupied] at vacant
        contradiction
      · obtain rfl := Option.some.inj (occupied.symm.trans held)
        exact .stale occupied (by simp [other, absent])
      · obtain rfl := Option.some.inj (occupied.symm.trans held)
        exact .lost (generation :: before) after released occupied rfl (by simp [other, first])
    · rcases absorbed with _ | ⟨held, _⟩ | ⟨_, _, _, held, _, _⟩
      · rw [List.append_nil]
        exact .lost [] rest released occupied rfl List.not_mem_nil
      all_goals
        rw [current_emptied] at held
        contradiction

theorem path_applyNotices {r r' : Registry} {generations : List Nat} {xs : List Exchange} :
    Path (r.applyNotices generations) xs r' ↔ Absorbs r generations xs r' := by
  induction generations generalizing r xs with
  | nil => exact path_pure.trans absorbs_nil.symm
  | cons generation rest ih =>
    rw [absorbs_cons]
    unfold applyNotices at ih ⊢
    simp only [List.foldlM_cons, path_bind, path_peerLost, ih]

section
variable {r r' : Registry} {xs : List Exchange}

theorem Vacates.cleared (course : r.Vacates xs r') : r'.Cleared := by
  cases course <;> exact cleared_emptied r

theorem Subscribes.cleared {q : Request} {accepted : Bool}
    (course : r.Subscribes q xs accepted r') (cleared : r.Cleared) : r'.Cleared := by
  cases course with
  | rejected | linkFailed | successNotSent => exact cleared
  | admitted => exact cleared_of_occupied rfl

theorem Unsubscribes.cleared {owner : Owner} {accepted : Bool}
    (course : r.Unsubscribes owner xs accepted r') (cleared : r.Cleared) : r'.Cleared := by
  cases course with
  | refused => exact cleared
  | removed => exact cleared_emptied r

theorem Delivers.cleared {batch : List ScanResult} (course : r.Delivers batch xs r')
    (cleared : r.Cleared) : r'.Cleared := by
  cases course with
  | vacant => exact cleared
  | unmatched occupied => exact cleared_of_occupied occupied
  | matched => exact cleared_emptied r

theorem Loses.cleared {generation : Nat} (course : r.Loses generation xs r')
    (cleared : r.Cleared) : r'.Cleared := by
  cases course with
  | vacant | stale => exact cleared
  | lost => exact cleared_emptied r

theorem Absorbs.cleared {generations : List Nat} (course : r.Absorbs generations xs r')
    (cleared : r.Cleared) : r'.Cleared := by
  cases course with
  | vacant | stale => exact cleared
  | lost => exact cleared_emptied r

end

end Registry
end ScanSlot
