import ScanSlot.Registry.View
import ScanSlot.Proofs.Registry.Course
import ScanSlot.Proofs.Ssid

/-! Which results reach a subscriber: those of the first batch that names one of its targets byte
for byte, in the order of the batch, and nothing before or after them. The slot compares canonical
texts, and these stand for the bytes. -/
namespace ScanSlot

open Dialogue (Path path_run)

/-- The results of a batch that bear the name of a target. -/
def matching (targets : List Ssid) (batch : List ScanResult) : List ScanResult :=
  batch.filter fun result => ∃ target ∈ targets, target.bytes = result.ssid.bytes

/-- The same observation on another frequency. -/
def ScanResult.retuned (tune : ScanResult → Frequency) (result : ScanResult) : ScanResult :=
  { result with frequency := tune result }

theorem matching_retuned (targets : List Ssid) (tune : ScanResult → Frequency)
    (batch : List ScanResult) :
    matching targets (batch.map (.retuned tune)) =
      (matching targets batch).map (.retuned tune) :=
  List.filter_map

/-- A subscription wants what bears a target's name. -/
def Subscription.Seeks (active : Subscription) (targets : List Ssid) : Prop :=
  ∀ result, active.wants result = true ↔ ∃ target ∈ targets, target.bytes = result.ssid.bytes

namespace Request
variable {owner : Owner} {peer : PeerRef} {callback : CallbackRef} {targets : List Ssid}
  {frequencies : List Frequency} {q : Request}

theorem exists_ofTargets (nonempty : targets ≠ []) (owner : Owner) (peer : PeerRef)
    (callback : CallbackRef) (frequencies : List Frequency) :
    ∃ q, ofTargets owner peer callback targets frequencies = .ok q := by
  rw [ofTargets, dif_neg nonempty]
  exact ⟨_, rfl⟩

theorem names_ofTargets (built : ofTargets owner peer callback targets frequencies = .ok q) :
    q.names = SortedSet.ofList (targets.map Ssid.canonical) := by
  rw [ofTargets] at built
  split at built
  · contradiction
  · obtain rfl := Except.ok.inj built
    rfl

theorem admitted_seeks (built : ofTargets owner peer callback targets frequencies = .ok q)
    (link generation : Nat) : (q.admitted link generation).Seeks targets := by
  intro result
  have names : (q.admitted link generation).names = q.names := rfl
  simp only [Subscription.wants, names, names_ofTargets built, SortedSet.mem_ofList,
    List.mem_map, Ssid.canonical_eq_canonical, decide_eq_true_eq]

end Request

namespace Subscription
variable {active : Subscription} {targets : List Ssid}

theorem filter_wants (seeks : active.Seeks targets) (batch : List ScanResult) :
    batch.filter active.wants = matching targets batch := by
  refine List.filter_congr fun result _ => ?_
  rw [Bool.eq_iff_iff, seeks result, decide_eq_true_eq]

end Subscription

namespace Registry

/-- Delivers batches one after another. -/
def deliverAll (r : Registry) (batches : List (List ScanResult)) : Dialogue Registry :=
  batches.foldlM deliver r

theorem deliverAll_cons (r : Registry) (batch : List ScanResult)
    (rest : List (List ScanResult)) :
    r.deliverAll (batch :: rest) = r.deliver batch >>= (deliverAll · rest) :=
  List.foldlM_cons

theorem deliverAll_append (r : Registry) (before after : List (List ScanResult)) :
    r.deliverAll (before ++ after) = r.deliverAll before >>= (deliverAll · after) :=
  List.foldlM_append

theorem deliverAll_vacant {r : Registry} (vacant : r.current = none)
    (batches : List (List ScanResult)) : r.deliverAll batches = pure r := by
  induction batches with
  | nil => rfl
  | cons batch rest ih =>
    have skipped : r.deliver batch = pure r := by rw [deliver, vacant]
    rw [deliverAll_cons, skipped, pure_bind, ih]

variable {r : Registry} {active : Subscription} {targets : List Ssid}

theorem deliver_unmatched (occupied : r.current = some active) (seeks : active.Seeks targets)
    {batch : List ScanResult} (unmatched : matching targets batch = []) :
    r.deliver batch = pure (r.counting 1) := by
  rw [deliver_occupied occupied, active.filter_wants seeks, if_pos unmatched]

theorem deliverAll_unmatched (occupied : r.current = some active) (seeks : active.Seeks targets)
    {batches : List (List ScanResult)} (unmatched : ∀ batch ∈ batches, matching targets batch = []) :
    r.deliverAll batches = pure (r.counting batches.length) := by
  induction batches generalizing r with
  | nil =>
    rw [List.length_nil, r.counting_zero]
    rfl
  | cons batch rest ih =>
    have first := deliver_unmatched occupied seeks (unmatched batch List.mem_cons_self)
    have counted : (r.counting 1).current = some active := occupied
    have last := ih counted fun batch member => unmatched batch (List.mem_cons_of_mem _ member)
    rw [deliverAll_cons, first, pure_bind, last, r.counting_counting, Nat.add_comm,
      List.length_cons]

/-- With a match the slot is given up, so what comes after finds it empty. -/
theorem current_of_matched (occupied : r.current = some active) (seeks : active.Seeks targets)
    {batch : List ScanResult} (matched : matching targets batch ≠ []) {xs : List Exchange}
    {r' : Registry} (path : Path (r.deliver batch) xs r') : r'.current = none := by
  rcases path_deliver.mp path with vacant | ⟨same, unwanted⟩ | _
  · exact vacant
  · obtain rfl := Option.some.inj (occupied.symm.trans same)
    rw [active.filter_wants seeks] at unwanted
    exact absurd unwanted matched
  · rfl

theorem deliverAll_matched (occupied : r.current = some active) (seeks : active.Seeks targets)
    {before : List (List ScanResult)} {batch : List ScanResult}
    (unmatched : ∀ earlier ∈ before, matching targets earlier = [])
    (matched : matching targets batch ≠ []) (after : List (List ScanResult)) :
    r.deliverAll (before ++ batch :: after) = (r.counting before.length).deliver batch := by
  have counted : (r.counting before.length).current = some active := occupied
  rw [deliverAll_append, deliverAll_unmatched occupied seeks unmatched, pure_bind,
    deliverAll_cons]
  refine Dialogue.bind_eq_self fun xs r' path => deliverAll_vacant ?_ after
  exact current_of_matched counted seeks matched path

/-- What a subscriber is told, and the end of its subscription. -/
def completion (active : Subscription) (results : List ScanResult)
    (released : Except Fault Unit) : List Exchange :=
  .log (.delivering active.owner results.length) ::
    .notify active.callback (.scanResultsAvailable results) (.ok ()) ::
    .notify active.callback (.removed .resultsDelivered) (.ok ()) :: active.release released

theorem completion_of_path (occupied : r.current = some active) (seeks : active.Seeks targets)
    {batch : List ScanResult} (matched : matching targets batch ≠ []) {xs : List Exchange}
    {r' : Registry} (path : Path (r.deliver batch) xs r')
    (heard : ∀ callback event answer, .notify callback event answer ∈ xs → answer = .ok ()) :
    ∃ released, xs = completion active (matching targets batch) released ∧ r' = r.emptied := by
  rcases path_deliver.mp path with
    vacant | ⟨same, unwanted⟩ | @⟨_, _, answer, released, same, _, announced⟩
  · rw [occupied] at vacant
    contradiction
  · obtain rfl := Option.some.inj (occupied.symm.trans same)
    rw [active.filter_wants seeks] at unwanted
    exact absurd unwanted matched
  · obtain rfl := Option.some.inj (occupied.symm.trans same)
    rw [active.filter_wants seeks] at announced heard ⊢
    cases announced with
    | refused fault =>
      have taken := heard active.callback (.scanResultsAvailable (matching targets batch))
        (.error fault) (by simp)
      contradiction
    | taken =>
      obtain rfl := heard active.callback (.removed .resultsDelivered) answer (by simp)
      exact ⟨released, rfl, rfl⟩

/-- The same slot after a request for other frequencies. -/
def retuned (frequencies : SortedSet Frequency) (r : Registry) : Registry :=
  { r with current := r.current.map ({ · with frequencies }) }

theorem vacate_retuned (frequencies : SortedSet Frequency) (r : Registry) :
    (r.retuned frequencies).vacate = retuned frequencies <$> r.vacate := by
  have emptied_retuned : (r.retuned frequencies).emptied = retuned frequencies r.emptied := rfl
  cases occupied : r.current with
  | none =>
    have vacant : (r.retuned frequencies).current = none := by rw [retuned, occupied]; rfl
    simp only [vacate, vacant, occupied, emptied_retuned, map_pure]
  | some active =>
    have held : (r.retuned frequencies).current = some { active with frequencies } := by
      rw [retuned, occupied]
      rfl
    simp only [vacate, held, occupied, emptied_retuned, map_bind, map_pure]

theorem deliver_retuned (frequencies : SortedSet Frequency) (r : Registry)
    (batch : List ScanResult) :
    (r.retuned frequencies).deliver batch = retuned frequencies <$> r.deliver batch := by
  cases occupied : r.current with
  | none => simp only [deliver, retuned, occupied, Option.map_none, map_pure]
  | some active =>
    have held : (r.retuned frequencies).current = some { active with frequencies } := by
      simp only [retuned, occupied, Option.map_some]
    have counted : (r.retuned frequencies).counting 1 = retuned frequencies (r.counting 1) := rfl
    rw [deliver_occupied held, deliver_occupied occupied, counted]
    change (if batch.filter active.wants = [] then _ else _) = _
    split
    · rw [map_pure]
    · simp only [map_bind, vacate_retuned]
      rfl

theorem deliverAll_retuned (frequencies : SortedSet Frequency) (r : Registry)
    (batches : List (List ScanResult)) :
    (r.retuned frequencies).deliverAll batches = retuned frequencies <$> r.deliverAll batches := by
  induction batches generalizing r with
  | nil => rfl
  | cons batch rest ih =>
    simp only [deliverAll_cons, deliver_retuned, bind_map_left, map_bind, ih]

/-- How a subscription fares over a sequence of batches. -/
structure FirstMatch {σ : Type} (c : Collaborators σ) (targets : List Ssid)
    (active : Subscription) (r : Registry) (s : σ) (batches : List (List ScanResult)) :
    Prop where
  waiting : (∀ batch ∈ batches, matching targets batch = []) →
    (r.deliverAll batches).exchanges c s = [] ∧
      (r.deliverAll batches).run c s =
        ({ r with current := some active, cycles := .ofNat batches.length }, s) ∧
      (batches.length < UInt64.size →
        ((r.deliverAll batches).run c s).1.cycles.toNat = batches.length)
  ending : ∀ before batch after, batches = before ++ batch :: after →
    (∀ earlier ∈ before, matching targets earlier = []) → matching targets batch ≠ [] →
    (∃ released, (r.deliverAll batches).exchanges c s =
        completion active (matching targets batch) released) ∧
      ((r.deliverAll batches).run c s).1 = r.emptied ∧ r.emptied.cycles = 0 ∧
      r.deliverAll batches = r.deliverAll (before ++ [batch])

theorem firstMatch {σ : Type} (c : Collaborators σ) (occupied : r.current = some active)
    (fresh : r.cycles = 0) (seeks : active.Seeks targets) (s : σ)
    {batches : List (List ScanResult)}
    (heard : ∀ callback event answer,
      .notify callback event answer ∈ (r.deliverAll batches).exchanges c s → answer = .ok ()) :
    FirstMatch c targets active r s batches where
  waiting unmatched := by
    have counted : r.counting batches.length =
        { r with current := some active, cycles := .ofNat batches.length } := by
      rw [counting, fresh, UInt64.zero_add, ← occupied]
    rw [deliverAll_unmatched occupied seeks unmatched, counted]
    exact ⟨rfl, rfl, UInt64.toNat_ofNat_of_lt'⟩
  ending before batch after split unmatched matched := by
    have whole := deliverAll_matched occupied seeks unmatched matched after
    have start := deliverAll_matched occupied seeks unmatched matched []
    rw [← split] at whole
    have path := path_run c (r.deliverAll batches) s
    generalize (r.deliverAll batches).exchanges c s = xs at heard path ⊢
    rw [whole] at path ⊢
    have held : (r.counting before.length).current = some active := occupied
    obtain ⟨released, rfl, final⟩ := completion_of_path held seeks matched path heard
    exact ⟨⟨released, rfl⟩, final, rfl, start.symm⟩

/-- After a subscription for some targets has been admitted, batches without a target are only
counted, and the first batch with one completes the subscription: its matching results are told,
all of them and nothing else, then the removal; the slot is empty, and batches behind that one do
nothing. Frequencies play no part, neither those asked for nor those observed. The count begins at
zero because nothing is counted on an empty slot, which is so in every run (`cleared_of_runs`). -/
theorem delivered_exactly_matching {targets : List Ssid} (nonempty : targets ≠ [])
    (owner : Owner) (peer : PeerRef) (callback : CallbackRef) (frequencies : List Frequency) :
    ∃ q, Request.ofTargets owner peer callback targets frequencies = .ok q ∧
      ∀ {σ : Type} (c : Collaborators σ) (r r₁ : Registry) (s s₁ : σ), r.Cleared →
        (r.subscribe q).run c s = ((true, r₁), s₁) →
        ∃ link, r₁.current = some (q.admitted link r.nextGeneration) ∧
          ∀ batches,
            (∀ callback event answer,
              .notify callback event answer ∈ (r₁.deliverAll batches).exchanges c s₁ →
                answer = .ok ()) →
            FirstMatch c targets (q.admitted link r.nextGeneration) r₁ s₁ batches ∧
              (∀ others, (r₁.retuned others).deliverAll batches =
                retuned others <$> r₁.deliverAll batches) ∧
              ∀ tune, ∀ batch ∈ batches, matching targets (batch.map (.retuned tune)) =
                (matching targets batch).map (.retuned tune) := by
  obtain ⟨q, built⟩ := Request.exists_ofTargets nonempty owner peer callback frequencies
  refine ⟨q, built, ?_⟩
  intro σ c r r₁ s s₁ cleared entered
  have path := path_run c (r.subscribe q) s
  rw [entered] at path
  generalize (r.subscribe q).exchanges c s = xs at path
  cases path_subscribe.mp path with
  | admitted link vacant =>
    have fresh : (r.advanced.holding (q.admitted link r.nextGeneration)).cycles = 0 :=
      cleared vacant
    refine ⟨link, rfl, fun batches heard => ⟨?_, ?_, ?_⟩⟩
    · exact firstMatch c rfl fresh (Request.admitted_seeks built link _) s₁ heard
    · exact fun others => deliverAll_retuned others _ batches
    · exact fun tune batch _ => matching_retuned targets tune batch

/-- The target is not UTF-8. A network whose name is the text of the target's hexadecimal digits is
passed over, and the last batch comes too late. -/
theorem delivered_exactly_matching_illFormed :
    let target : Ssid := ⟨[0xC3, 0x28], by decide⟩
    let seen : ScanResult := ⟨target, "02:00:00:00:00:01", ⟨2412⟩, -40⟩
    let digits : ScanResult :=
      ⟨⟨Utf8.encode (Hex.encode target.bytes), by decide⟩, "02:00:00:00:00:02", ⟨2412⟩, -50⟩
    let heedful : Collaborators (List Event) :=
      { link := fun _ _ told => (.ok 7, told), unlink := fun _ _ told => (.ok (), told)
        notify := fun _ event told => (.ok (), told ++ [event]), log := fun _ told => told }
    let batches := [[digits], [seen, digits, seen], [seen]]
    ∃ q r₁, Request.ofTargets ⟨1⟩ ⟨0, "peer"⟩ ⟨0, "callback"⟩ [target] [] = .ok q ∧
      (subscribe {} q).run heedful [] = ((true, r₁), [.registerSuccess]) ∧
      matching [target] [digits] = [] ∧
      matching [target] [seen, digits, seen] = [seen, seen] ∧
      FirstMatch heedful [target] (q.admitted 7 1) r₁ [.registerSuccess] batches := by
  intro target seen digits heedful batches
  obtain ⟨q, built, served⟩ := delivered_exactly_matching
    (List.cons_ne_nil target []) ⟨1⟩ ⟨0, "peer"⟩ ⟨0, "callback"⟩ []
  obtain ⟨link, held, served⟩ := served heedful {} _ [] _ (fun _ => rfl) rfl
  have heard := (served batches fun callback event answer said => by
    obtain ⟨told, rfl⟩ := (heedful.plays_exchanges _ _).answered said
    rfl).1
  obtain rfl : 7 = link := congrArg Subscription.link (Option.some.inj held)
  exact ⟨q, _, built, rfl, by decide, by decide, heard⟩

end Registry
end ScanSlot
