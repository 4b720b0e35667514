import ScanSlot.Proofs.Station.Conversation
import ScanSlot.Proofs.Station.Links
import ScanSlot.Proofs.World.Veil

/-! Requests that are turned away leave no trace. Two runs are compared, one of which lacks some of the
subscribes that found the slot occupied and of the unsubscribes that were declined: nobody but the
callbacks of the missing requests can tell the runs apart, and neither can the registry later. -/
namespace ScanSlot

/-- What a registry lives through: an operation, or a change of its surroundings such as the death
of a peer. -/
inductive Occurrence (σ : Type) where
  | operation (op : Operation)
  | outside (change : σ → σ)

/-- What came of an occurrence, with the registry and the surroundings that it left. -/
structure Moment (σ : Type) where
  outcome : Option Outcome
  exchanges : List Exchange
  registry : Registry
  surroundings : σ

section
variable {σ τ : Type}

namespace Host

/-- The notices that an operation takes up before it begins. -/
def handOver (h : Host σ) (s : σ) : Operation → List Nat × σ
  | .process => h.takeNotices s
  | _ => ([], s)

def meet (h : Host σ) (r : Registry) (s : σ) : Occurrence σ → Moment σ
  | .outside change => ⟨none, [], r, change s⟩
  | .operation op =>
      let (inbox, s) := h.handOver s op
      let d := op.ask ⟨r, inbox, true⟩
      let ((outcome, r), t) := d.run h.toCollaborators s
      ⟨some outcome, d.exchanges h.toCollaborators s, r, t⟩

def trace (h : Host σ) (r : Registry) (s : σ) : List (Occurrence σ) → List (Moment σ)
  | [] => []
  | occurrence :: rest =>
      let moment := h.meet r s occurrence
      moment :: h.trace moment.registry moment.surroundings rest

/-- All calls of a run with their answers. -/
def calls (h : Host σ) (r : Registry) (s : σ) (occurrences : List (Occurrence σ)) :
    List Exchange :=
  (h.trace r s occurrences).flatMap Moment.exchanges

end Host

/-- A moment as it is seen from outside: of the surroundings there remain the notices that are
queued and what the view shows. -/
def Moment.seen (h : Host σ) (view : σ → τ) (m : Moment σ) : Moment (List Nat × τ) :=
  { m with surroundings := ((h.takeNotices m.surroundings).1, view m.surroundings) }

/-- A request that is turned away: a subscribe, with a callback that stands apart, that finds the slot
occupied, or an unsubscribe that is declined. -/
inductive TurnedAway (h : Host σ) (apart : Nat → Prop) (r : Registry) (s : σ) : Operation → Prop where
  | rejected (q : Request) (occupied : r.isOccupied = true) (far : apart q.callback.index) :
      TurnedAway h apart r s (.subscribe q)
  | declined (owner : Owner)
      (refused : (h.meet r s (.operation (.unsubscribe owner))).outcome = some (.decided false)) :
      TurnedAway h apart r s (.unsubscribe owner)

/-- The long run without some of the requests that it turned away, and the moments that are left of
it. No other request comes with a callback that stands apart. -/
inductive Thinned (h : Host σ) (apart : Nat → Prop) (view : σ → τ) :
    Registry → σ → List (Occurrence σ) → List (Occurrence σ) → List (Moment σ) → Prop where
  | nil (r : Registry) (s : σ) : Thinned h apart view r s [] [] []
  | operation {r : Registry} {s : σ} {long short : List (Occurrence σ)} {kept : List (Moment σ)}
      (op : Operation) (near : ∀ index, op.callback? = some index → ¬ apart index)
      (rest : Thinned h apart view (h.meet r s (.operation op)).registry
        (h.meet r s (.operation op)).surroundings long short kept) :
      Thinned h apart view r s (.operation op :: long) (.operation op :: short)
        (h.meet r s (.operation op) :: kept)
  | outside {r : Registry} {s : σ} {long short : List (Occurrence σ)} {kept : List (Moment σ)}
      (change : σ → σ) (blind : ∀ {s t}, view s = view t → view (change s) = view (change t))
      (rest : Thinned h apart view r (change s) long short kept) :
      Thinned h apart view r s (.outside change :: long) (.outside change :: short)
        (h.meet r s (.outside change) :: kept)
  | missing {r : Registry} {s : σ} {long short : List (Occurrence σ)} {kept : List (Moment σ)}
      {op : Operation} (turnedAway : TurnedAway h apart r s op)
      (rest : Thinned h apart view (h.meet r s (.operation op)).registry
        (h.meet r s (.operation op)).surroundings long short kept) :
      Thinned h apart view r s (.operation op :: long) short kept

namespace Exchange
variable {apart : Nat → Prop} {xs : List Exchange}

theorem aside_faultEntries {ε : Type} {entry : Fault → LogEntry} {answer : Except Fault ε} :
    ∀ x ∈ faultEntries entry answer, x.Aside apart := by
  cases answer <;> simp [faultEntries, Aside]

theorem peerCalls_aside (aside : ∀ x ∈ xs, x.Aside apart) : peerCalls xs = [] := by
  apply List.filter_eq_nil_iff.mpr
  intro x here
  have far := aside x here
  cases x with
  | link | unlink => exact far.elim
  | notify | log => exact Bool.false_ne_true

theorem told_aside {index : Nat} (near : ¬ apart index) (aside : ∀ x ∈ xs, x.Aside apart) :
    told index xs = [] := by
  apply List.filterMap_eq_nil_iff.mpr
  intro x here
  have far := aside x here
  cases x with
  | link | unlink => exact far.elim
  | log => rfl
  | notify callback event answer =>
    apply if_neg
    rintro rfl
    exact near far

theorem mem_told {callback : CallbackRef} {event : Event} {answer : Except Fault Unit}
    (said : .notify callback event answer ∈ xs) : (event, answer) ∈ told callback.index xs :=
  List.mem_filterMap.mpr ⟨_, said, if_pos rfl⟩

end Exchange

/-- The callback in the slot does not stand apart. -/
def Registry.Near (apart : Nat → Prop) (r : Registry) : Prop :=
  ∀ index, apart index → r.current.map (·.callback.index) ≠ some index

section
variable {h : Host σ} {apart : Nat → Prop} {view : σ → τ} {r : Registry} {s t : σ}

theorem course_meet (h : Host σ) (r : Registry) (s : σ) (op : Operation) :
    ∃ outcome, (h.meet r s (.operation op)).outcome = some outcome ∧
      op.Course ⟨r, (h.handOver s op).1, true⟩ (h.meet r s (.operation op)).exchanges outcome
        (h.meet r s (.operation op)).registry := by
  have path := Dialogue.path_run h.toCollaborators (op.ask ⟨r, (h.handOver s op).1, true⟩)
    (h.handOver s op).2
  exact ⟨_, rfl, Operation.path_ask.mp path⟩

/-- A request that is turned away leaves the registry as it is and speaks to its own callback only. -/
theorem TurnedAway.aside {op : Operation} (turnedAway : TurnedAway h apart r s op) :
    (h.meet r s (.operation op)).registry = r ∧
      ∀ x ∈ (h.meet r s (.operation op)).exchanges, x.Aside apart := by
  obtain ⟨outcome, same, course⟩ := course_meet h r s op
  cases turnedAway with
  | rejected q occupied far =>
    obtain ⟨active, held⟩ := Option.isSome_iff_exists.mp occupied
    generalize h.meet r s (.operation (.subscribe q)) = m at course ⊢
    obtain ⟨_, xs, r', _⟩ := m
    cases course with
    | subscribe course =>
      cases course with
      | rejected =>
        refine ⟨rfl, ?_⟩
        simp only [List.mem_cons]
        rintro x (rfl | rfl | later)
        · trivial
        · exact far
        · exact Exchange.aside_faultEntries x later
      | linkFailed _ vacant | successNotSent _ _ _ vacant | admitted _ vacant =>
        rw [held] at vacant
        contradiction
  | declined owner refused =>
    obtain rfl := Option.some.inj (same.symm.trans refused)
    generalize h.meet r s (.operation (.unsubscribe owner)) = m at course ⊢
    obtain ⟨_, xs, r', _⟩ := m
    cases course with
    | unsubscribe course =>
      cases course with
      | refused => exact ⟨rfl, nofun⟩

theorem near_meet {op : Operation} (near : r.Near apart)
    (own : ∀ index, op.callback? = some index → ¬ apart index) :
    (h.meet r s (.operation op)).registry.Near apart := by
  obtain ⟨outcome, _, course⟩ := course_meet h r s op
  intro index far
  exact Station.callback_after course (near index far) fun same => own index same far

/-- An operation never speaks to a callback that stands apart, unless it comes with one. -/
theorem spares_ask {op : Operation} {inbox : List Nat} (near : r.Near apart)
    (own : ∀ index, op.callback? = some index → ¬ apart index) :
    (op.ask ⟨r, inbox, true⟩).Spares apart := by
  apply Dialogue.spares_of_paths
  rintro xs ⟨outcome, r'⟩ path callback event answer said far
  have quiet := Station.told_other (Operation.path_ask.mp path) (near _ far)
    fun same => own _ same far
  have heard := Exchange.mem_told said
  rw [quiet] at heard
  contradiction

namespace Secluded

theorem handOver (secluded : Secluded h apart view) (same : view s = view t) (op : Operation) :
    Agrees view (h.handOver s op) (h.handOver t op) := by
  cases op with
  | process => exact secluded.notices same
  | subscribe | unsubscribe | deliver | peerLost | close => exact ⟨rfl, same⟩

theorem seen_eq (secluded : Secluded h apart view) {m n : Moment σ}
    (outcome : m.outcome = n.outcome) (exchanges : m.exchanges = n.exchanges)
    (registry : m.registry = n.registry) (same : view m.surroundings = view n.surroundings) :
    m.seen h view = n.seen h view := by
  have queued := (secluded.notices same).1
  simp only [Moment.seen, outcome, exchanges, registry, same, queued]

/-- An operation cannot tell surroundings apart that look the same. -/
theorem meet (secluded : Secluded h apart view) (near : r.Near apart) (same : view s = view t)
    {op : Operation} (own : ∀ index, op.callback? = some index → ¬ apart index) :
    (h.meet r s (.operation op)).seen h view = (h.meet r t (.operation op)).seen h view := by
  obtain ⟨inbox, shown⟩ := secluded.handOver same op
  obtain ⟨agrees, said⟩ := secluded.run (spares_ask near own) shown
  simp only [Host.meet, inbox]
  apply secluded.seen_eq
  · exact congrArg some (congrArg Prod.fst agrees.1)
  · exact said
  · exact congrArg Prod.snd agrees.1
  · exact agrees.2

/-- The surroundings look the same after a request that was turned away. -/
theorem turnedAway (secluded : Secluded h apart view) {op : Operation}
    (turnedAway : TurnedAway h apart r s op) :
    view (h.meet r s (.operation op)).surroundings = view s := by
  have plays := Collaborators.plays_exchanges h.toCollaborators
    (op.ask ⟨r, (h.handOver s op).1, true⟩) (h.handOver s op).2
  have kept : (h.handOver s op).2 = s := by
    cases turnedAway <;> rfl
  exact (secluded.plays plays turnedAway.aside.2).trans (congrArg view kept)

end Secluded

/-- The two runs side by side, from surroundings that look the same. -/
theorem Thinned.agrees (secluded : Secluded h apart view) {long short : List (Occurrence σ)}
    {kept : List (Moment σ)} (thinned : Thinned h apart view r s long short kept)
    (near : r.Near apart) (same : view s = view t) :
    (h.trace r t short).map (Moment.seen h view) = kept.map (Moment.seen h view) ∧
      peerCalls (h.calls r s long) = peerCalls (h.calls r t short) ∧
      ∀ index, ¬ apart index → told index (h.calls r s long) = told index (h.calls r t short) := by
  induction thinned generalizing t with
  | nil => exact ⟨rfl, rfl, fun _ _ => rfl⟩
  | @operation r s long short kept op own _ ih =>
    -- Both runs perform it, and agree on all that the rest of the runs can depend on.
    have alike := secluded.meet near same own
    obtain ⟨_, said, left, shown⟩ := Moment.mk.inj alike
    obtain ⟨seen, peers, heard⟩ := ih (near_meet near own) (congrArg Prod.snd shown)
    rw [left] at seen peers heard
    simp only [Host.calls, Host.trace, List.flatMap_cons, List.map_cons, peerCalls_append,
      told_append] at peers heard ⊢
    rw [left, said, alike, seen, peers]
    refine ⟨rfl, rfl, ?_⟩
    intro index close
    rw [heard index close]
  | @outside r s _ _ _ change blind _ ih =>
    have shown : (h.meet r t (.outside change)).seen h view =
        (h.meet r s (.outside change)).seen h view :=
      secluded.seen_eq rfl rfl rfl (blind same).symm
    obtain ⟨seen, peers, heard⟩ := ih near (blind same)
    refine ⟨?_, peers, heard⟩
    exact List.cons_eq_cons.mpr ⟨shown, seen⟩
  | missing turnedAway _ ih =>
    -- Only the long run performs it, and goes on as if it had not.
    obtain ⟨left, aside⟩ := turnedAway.aside
    have shown := secluded.turnedAway turnedAway
    rw [left] at ih
    obtain ⟨seen, peers, heard⟩ := ih near (shown.trans same)
    simp only [Host.calls, Host.trace, List.flatMap_cons, peerCalls_append, told_append,
      Exchange.peerCalls_aside aside, List.nil_append, left] at peers heard ⊢
    refine ⟨seen, peers, ?_⟩
    intro index close
    rw [Exchange.told_aside close aside, List.nil_append]
    exact heard index close

theorem Thinned.sublist {long short : List (Occurrence σ)} {kept : List (Moment σ)}
    (thinned : Thinned h apart view r s long short kept) : kept.Sublist (h.trace r s long) := by
  induction thinned with
  | nil => exact .slnil
  | operation _ _ _ ih => exact ih.cons_cons _
  | outside _ _ _ ih => exact ih.cons_cons _
  | missing _ _ ih => exact ih.cons _

/-- Whether or not some of the requests that were turned away had been made, and whatever their
callbacks answered: every other occurrence comes to the same, peers hear the same, and so does every
callback but theirs. -/
theorem refusals_leave_no_trace (secluded : Secluded h apart view)
    {long short : List (Occurrence σ)} {kept : List (Moment σ)}
    (thinned : Thinned h apart view {} s long short kept) (same : view s = view t) :
    kept.Sublist (h.trace {} s long) ∧
      (h.trace {} t short).map (Moment.seen h view) = kept.map (Moment.seen h view) ∧
      peerCalls (h.calls {} s long) = peerCalls (h.calls {} t short) ∧
      ∀ index, ¬ apart index →
        told index (h.calls {} s long) = told index (h.calls {} t short) :=
  ⟨thinned.sublist, thinned.agrees secluded nofun same⟩

/-- A rival asks and gives up in vain, and cannot even be told that it failed; then the peer dies. -/
theorem refusals_leave_no_trace_unheard :
    let ssid : Ssid := ⟨[0xC3, 0x28], by decide⟩
    let q := Request.forOne ⟨1⟩ ⟨0, "peer"⟩ ⟨0, "callback"⟩ ssid
    let rival := Request.forOne ⟨2⟩ ⟨0, "peer"⟩ ⟨1, "rival"⟩ ssid
    let w : World :=
      { stations := [{}], peers := [.inProcess { name := "peer" }],
        callbacks := [.channel { capacity := 4 }, .scripted { fails := [.registerFailed] }] }
    let h := World.host 0
    let view := World.veil (· = 1)
    let long : List (Occurrence World) :=
      [.operation (.subscribe q), .operation (.subscribe rival), .operation (.unsubscribe ⟨2⟩),
        .outside (World.kill 0), .operation .process]
    let short : List (Occurrence World) :=
      [.operation (.subscribe q), .outside (World.kill 0), .operation .process]
    ∃ kept, Secluded h (· = 1) view ∧ Thinned h (· = 1) view {} w long short kept ∧
      kept.map Moment.outcome = [some (.decided true), none, some (.counted 1)] ∧
      (told 1 (h.calls {} w long)).length = 1 ∧
      (h.trace {} w short).map (Moment.seen h view) = kept.map (Moment.seen h view) ∧
      peerCalls (h.calls {} w long) = peerCalls (h.calls {} w short) ∧
      told 0 (h.calls {} w long) = told 0 (h.calls {} w short) := by
  intro ssid q rival w h view long short
  have secluded : Secluded h (· = 1) view := World.secluded 0 _
  have clashes : TurnedAway h (· = 1) (h.meet {} w (.operation (.subscribe q))).registry
      (h.meet {} w (.operation (.subscribe q))).surroundings (.subscribe rival) :=
    .rejected rival rfl rfl
  obtain ⟨kept, thinned, outcomes⟩ : ∃ kept, Thinned h (· = 1) view {} w long short kept ∧
      kept.map Moment.outcome = [some (.decided true), none, some (.counted 1)] := by
    refine ⟨_, .operation _ ?_ (.missing clashes (.missing (.declined ⟨2⟩ ?_)
      (.outside _ (World.kill_blind 0) (.operation .process nofun (.nil _ _))))), ?_⟩
    · rintro _ ⟨⟩
      decide
    · rfl
    · decide +kernel
  have alike := refusals_leave_no_trace secluded thinned rfl
  have heard : (told 1 (h.calls {} w long)).length = 1 := by decide +kernel
  exact ⟨kept, secluded, thinned, outcomes, heard, alike.2.1, alike.2.2.1,
    alike.2.2.2 0 (by decide)⟩

end

end

end ScanSlot
