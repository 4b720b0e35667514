import ScanSlot.Proofs.Worker.Answers

/-! The end of a service. What its clients ask before the first shutdown is done, once each and in
the order of arrival, and every caller hears what came of its own call. What they ask later is never
done and touches nothing but the callback that came with it. The worker comes to an end, and the
last thing it does is to release the slot. -/
namespace ScanSlot

open Relation (ReflTransGen)
open Dialogue (Path path_bind_pure)

namespace Service
variable {σ : Type}

/-! ### What is said and done -/

/-- Deeds one after another, each of which takes the registry where the last one left it. -/
inductive Follows : Registry → List Deed → Registry → Prop where
  | nil (r : Registry) : Follows r [] r
  | snoc {r : Registry} {deeds : List Deed} {deed : Deed} (first : Follows r deeds deed.before)
      (lawful : Path (deed.job.program deed.before) deed.exchanges (deed.reply, deed.after)) :
      Follows r (deeds ++ [deed]) deed.after

/-- The last deed gives the slot up, and no other does. -/
structure Retires (journal : List Deed) (r : Registry) (earlier : List Deed) (last : Deed) :
    Prop where
  split : journal = earlier ++ [last]
  job : last.job = .retire
  first : ∀ deed ∈ earlier, deed.job ≠ .retire
  released : Registry.Vacates last.before last.exchanges r

/-- The registry and all that is said to peers and callbacks come from the deeds of the worker. -/
structure Recorded (r : Registry) (site : Site σ) (t : Service σ) : Prop where
  course : Follows r t.journal t.registry
  said : t.site.exchanges = site.exchanges ++ t.journal.flatMap Deed.exchanges
  working : t.phase ≠ .gone → ∀ deed ∈ t.journal, deed.job ≠ .retire
  retired : t.phase = .gone → ∃ earlier last, Retires t.journal t.registry earlier last

theorem recorded_start (r : Registry) (site : Site σ) : Recorded r site (start r site) where
  course := .nil r
  said := (List.append_nil _).symm
  working _ := by simp [start]
  retired gone := by contradiction

theorem acts_recorded {e : Environment σ} {r : Registry} {site : Site σ} {t t' : Service σ}
    (acts : Acts e t t') (recorded : Recorded r site t) : Recorded r site t' := by
  cases acts <;> exact ⟨recorded.course, recorded.said, recorded.working, recorded.retired⟩

theorem Recorded.follows {r : Registry} {site : Site σ} {t : Service σ}
    (recorded : Recorded r site t) (e : Environment σ) (job : Job) (inbox : List Nat) :
    Follows r (t.journal ++ [t.deed e job inbox]) (t.outcome e job inbox).1.2 :=
  .snoc recorded.course (deed_lawful e job inbox t)

theorem Recorded.says {r : Registry} {site : Site σ} {t : Service σ}
    (recorded : Recorded r site t) (e : Environment σ) (job : Job) (inbox : List Nat) :
    (t.outcome e job inbox).2.exchanges =
      site.exchanges ++ (t.journal ++ [t.deed e job inbox]).flatMap Deed.exchanges := by
  have said := act_exchanges e job inbox t.phase t
  simp only [act] at said
  rw [said, recorded.said, List.flatMap_append, List.append_assoc]
  simp only [List.flatMap_cons, List.flatMap_nil, List.append_nil]

theorem vacates_of_retire {r r' : Registry} {xs : List Exchange} {reply : Reply}
    (path : Path (Job.retire.program r) xs (reply, r')) : Registry.Vacates r xs r' := by
  obtain ⟨r'', path, same⟩ := path_bind_pure.mp path
  obtain ⟨_, rfl⟩ := Prod.mk.inj same
  exact Registry.path_vacate.mp path

theorem works_recorded {e : Environment σ} {r : Registry} {site : Site σ} {t t' : Service σ}
    (works : Works e t t') (recorded : Recorded r site t) : Recorded r site t' := by
  have ongoing {job : Job} {inbox : List Nat} (phase : t.phase ≠ .gone) (other : job ≠ .retire)
      (deed : Deed) (done : deed ∈ t.journal ++ [t.deed e job inbox]) : deed.job ≠ .retire := by
    rcases List.mem_append.mp done with earlier | last
    · exact recorded.working phase deed earlier
    · obtain rfl := List.mem_singleton.mp last
      exact other
  cases works with
  | notice serving | handle serving | stop serving | abandon serving =>
    exact ⟨recorded.follows e _ _, recorded.says e _ _,
      fun _ => ongoing (by simp [serving]) (by simp), fun gone => by contradiction⟩
  | discard leaving =>
    exact ⟨recorded.course, recorded.said, fun _ => recorded.working (by simp [leaving]),
      fun gone => by contradiction⟩
  | exit closing =>
    refine ⟨recorded.follows e _ _, recorded.says e _ _, fun working => absurd rfl working,
      fun _ => ⟨t.journal, t.deed e .retire t.site.inbox, rfl, rfl, ?_, ?_⟩⟩
    · exact recorded.working (by simp [closing])
    · exact vacates_of_retire (deed_lawful e .retire t.site.inbox t)

/-! ### From one state to a later one -/

theorem step_answers {e : Environment σ} {t t' : Service σ} (step : Step e t t') :
    t.answers <+: t'.answers := by
  rcases step with acts | works
  · cases acts with
    | accepted | refused | joined => exact List.prefix_append _ _
    | deserted | posted | changed => exact List.prefix_refl _
  · cases works with
    | handle | discard => exact List.prefix_append _ _
    | notice | stop | abandon | exit => exact List.prefix_refl _

/-- What arrives when the queue is gone is refused. -/
theorem step_refused {e : Environment σ} {t t' : Service σ} (step : Step e t t')
    (closed : t.isOpen = false) :
    t'.isOpen = false ∧
      ((t'.calls = t.calls ∧ t'.refused = t.refused) ∨
        ∃ m, t'.calls = t.calls ++ [m] ∧ t'.refused = t.refused ++ [(m, t.calls.length)]) := by
  rcases step with acts | works
  · cases acts with
    | accepted m present accepting => exact absurd (accepting.symm.trans closed) (by decide)
    | refused m => exact ⟨closed, .inr ⟨m, rfl, rfl⟩⟩
    | joined | deserted | posted | changed => exact ⟨closed, .inl ⟨rfl, rfl⟩⟩
  · cases works with
    | notice serving | handle serving | stop serving | abandon serving =>
      rw [isOpen_of_serving serving] at closed
      contradiction
    | discard leaving =>
      rw [isOpen, leaving] at closed
      contradiction
    | exit => exact ⟨rfl, .inl ⟨rfl, rfl⟩⟩

theorem refused_later {e : Environment σ} {t t' : Service σ} (rest : ReflTransGen (Step e) t t')
    (closed : t.isOpen = false) :
    t'.isOpen = false ∧ ∀ (ticket : Nat) (m : Message), t.calls.length ≤ ticket →
      t'.calls[ticket]? = some m → (m, ticket) ∈ t'.refused := by
  induction rest with
  | refl =>
    refine ⟨closed, fun ticket m late called => ?_⟩
    have inside := (List.getElem?_eq_some_iff.mp called).1
    omega
  | tail _ step ih =>
    obtain ⟨closed, refused⟩ := ih
    obtain ⟨closed', ⟨calls, same⟩ | ⟨new, calls, more⟩⟩ := step_refused step closed
    · rw [calls, same]
      exact ⟨closed', refused⟩
    · refine ⟨closed', fun ticket m late called => ?_⟩
      rw [calls] at called
      rw [more]
      have entry : (m, ticket) ∈ (_ ++ [new]).zipIdx := List.mem_zipIdx_iff_getElem?.mpr called
      rw [zipIdx_snoc] at entry
      rcases List.mem_append.mp entry with earlier | last
      · exact List.mem_append_left _
          (refused ticket m late (List.mem_zipIdx_iff_getElem?.mp earlier))
      · exact List.mem_append_right _ last

/-! ### The whole -/

/-- What holds of a service at any time. -/
structure Orderly (r : Registry) (site : Site σ) (t : Service σ) : Prop where
  handled : t.handled <+: ahead t.calls
  finished : t.phase ≠ .serving → t.handled = ahead t.calls
  answered : ∀ deed ∈ t.journal, ∀ generations ticket command,
    deed.job = .command generations ticket command → t.heard ticket = [.ok deed.reply]
  late : ∀ command ticket, (.command command, ticket) ∈ behind t.calls →
    (.command command, ticket) ∉ t.handled ∧
      (t.isOpen = false → t.heard ticket = [.error .serviceStopped] ∨
        (∃ batch, command = .deliver batch) ∧ (.command command, ticket) ∈ t.discarded ∧
          t.heard ticket = [.ok .done])
  shutdown : ∀ ticket : Nat, t.calls[ticket]? = some .shutdown →
    t.heard ticket = [] ∨ t.phase = .gone ∧ t.heard ticket = [.ok .done]
  once : ∀ ticket, (t.heard ticket).length ≤ 1
  settled : t.isOpen = false → ∀ command (ticket : Nat),
    t.calls[ticket]? = some (.command command) → (t.heard ticket).length = 1
  course : Follows r t.journal t.registry
  said : t.site.exchanges = site.exchanges ++ t.journal.flatMap Deed.exchanges
  dropped : t.dropped =
    if t.isOpen then [] else (behind t.calls).filterMap (·.1.callback?)
  retired : t.phase = .gone → ∃ earlier last, Retires t.journal t.registry earlier last

theorem orderly {r : Registry} {site : Site σ} {t : Service σ} (ledger : Ledger t)
    (tells : Tells t) (recorded : Recorded r site t) : Orderly r site t where
  handled := ledger.handled_prefix
  finished left := (ledger.split left).1
  answered deed done generations ticket command job := tells.placed (.handled done job)
  late command ticket later := by
    refine ⟨ledger.not_handled later, fun closed => ?_⟩
    have left : t.phase ≠ .serving := fun serving => by simp [isOpen, serving] at closed
    have untaken : (.command command, ticket) ∈ t.untaken := by
      obtain ⟨other, split⟩ | ⟨nothing, _⟩ := (ledger.split left).2
      · rw [split] at later
        exact (List.mem_cons.mp later).resolve_left (by simp)
      · rw [nothing] at later
        contradiction
    rw [Service.untaken, ledger.emptied closed, List.nil_append] at untaken
    rcases List.mem_append.mp untaken with discarded | refused
    · rw [tells.placed (.discarded discarded)]
      exact (verdict_of_discarded command).imp_right fun told => ⟨told.1, discarded, told.2⟩
    · exact .inl (tells.placed (.refused refused))
  shutdown _ asked := tells.shutdown asked
  once ticket := by
    cases called : t.calls[ticket]? with
    | none =>
      rw [tells.coming (List.getElem?_eq_none_iff.mp called)]
      exact Nat.zero_le 1
    | some m =>
      cases m with
      | shutdown => obtain told | ⟨_, told⟩ := tells.shutdown called <;> simp [told]
      | command command =>
        obtain ⟨told, place, atMost, _⟩ := ledger.place called
        rwa [tells.placed place]
  settled closed command ticket called := by
    obtain ⟨told, place, _, settled⟩ := ledger.place called
    rw [tells.placed place]
    exact settled closed
  course := recorded.course
  said := recorded.said
  dropped := by
    cases closed : t.isOpen with
    | true => exact ledger.dropped_open closed
    | false => exact ledger.dropped_behind closed
  retired := recorded.retired

theorem reaches_invariants {e : Environment σ} {r : Registry} {site : Site σ} {t : Service σ}
    (run : ReflTransGen (Step e) (start r site) t) :
    Ledger t ∧ Tells t ∧ Recorded r site t := by
  induction run with
  | refl => exact ⟨ledger_start r site, tells_start r site, recorded_start r site⟩
  | tail _ step ih =>
    obtain ⟨ledger, tells, recorded⟩ := ih
    rcases step with acts | works
    · exact ⟨acts_ledger acts ledger, acts_tells acts ledger tells, acts_recorded acts recorded⟩
    · exact ⟨works_ledger works ledger, works_tells works ledger tells,
        works_recorded works recorded⟩

theorem answers_grow {e : Environment σ} {t t' : Service σ}
    (rest : ReflTransGen (Step e) t t') : t.answers <+: t'.answers := by
  induction rest with
  | refl => exact List.prefix_refl _
  | tail _ step ih => exact ih.trans (step_answers step)

/-- Whatever clients, peers and callbacks do, and whenever: commands that arrive before the first
shutdown are handled once each, in the order of arrival, and each caller hears what came of its own
call. Commands that arrive later are not handled; their callers hear that the service has stopped,
except those that left results in the queue in time, and nothing comes of them but that their
callbacks are dropped. The worker ends, and the last thing it does is to give the slot up. -/
theorem orderly_shutdown {e : Environment σ} {r : Registry} {site : Site σ} {t t' : Service σ}
    (run : ReflTransGen (Step e) (start r site) t) (rest : ReflTransGen (Step e) t t') :
    Orderly r site t ∧ t.answers <+: t'.answers ∧
      (t.isOpen = false → ∀ command (ticket : Nat), t.calls.length ≤ ticket →
        t'.calls[ticket]? = some (.command command) →
          t'.heard ticket = [.error .serviceStopped]) ∧
      (.shutdown ∈ t.calls ∨ t.deserted = true → t.phase ≠ .gone → ∃ u, Works e t u) ∧
      ¬ ∃ services : Nat → Service σ,
        services 0 = t ∧ ∀ n, Works e (services n) (services (n + 1)) := by
  obtain ⟨ledger, tells, recorded⟩ := reaches_invariants run
  refine ⟨orderly ledger tells recorded, answers_grow rest, ?_, ledger.works e, ?_⟩
  · intro closed command ticket late called
    have refused := (refused_later rest closed).2 ticket _ late called
    exact (reaches_invariants (run.trans rest)).2.1.placed (.refused refused)
  · rintro ⟨services, first, steps⟩
    exact not_acc_iff_exists_descending_chain.mpr ⟨services, first, steps⟩ (works_acc e t)

/-- A subscription is admitted before a shutdown. A question, some results and another subscription
are in the queue behind it, and more calls come when the worker is gone. -/
theorem orderly_shutdown_late :
    let ssid : Ssid := ⟨[0x4E], by decide⟩
    let first := Request.forOne ⟨1⟩ ⟨0, "peer"⟩ ⟨0, "first"⟩ ssid
    let second := Request.forOne ⟨2⟩ ⟨0, "peer"⟩ ⟨1, "second"⟩ ssid
    let e : Environment (List CallbackRef) :=
      { link := fun _ _ o => (.ok 7, [], o), unlink := fun _ _ o => (.ok (), o)
        notify := fun _ _ o => (.ok (), o), log := fun _ o => o
        drop := fun callback o => o ++ [callback] }
    let stopped : Except Fault Reply := .error .serviceStopped
    ∃ t, ReflTransGen (Step e) (start {} ⟨[], [], []⟩) t ∧ t.phase = .gone ∧
      t.answers = [(3, .ok .done), (0, .ok (.decided true)), (2, stopped), (4, stopped),
        (5, stopped), (1, .ok .done)] ∧
      t.site.exchanges = [.link first.peer 1 (.ok 7),
        .notify first.callback .registerSuccess (.ok ()), .log (.activated first.owner 1),
        .unlink first.peer 7 (.ok ())] ∧
      t.site.outside = [second.callback] ∧ Orderly {} ⟨[], [], []⟩ t := by
  intro ssid first second e stopped
  let called := ((((((start {} ⟨[], [], []⟩ : Service (List CallbackRef)).accept
    (.command (.subscribe first))).accept .shutdown).accept (.command .snapshot)).accept
    (.command (.deliver []))).accept (.command (.subscribe second)))
  have calls : ReflTransGen (Step e) (start {} ⟨[], [], []⟩) called :=
    ((((ReflTransGen.refl.tail (.inl (.accepted _ rfl rfl))).tail
      (.inl (.accepted _ rfl rfl))).tail (.inl (.accepted _ rfl rfl))).tail
      (.inl (.accepted _ rfl rfl))).tail (.inl (.accepted _ rfl rfl))
  have left := (((calls.tail (.inr (.handle rfl rfl))).tail (.inr (.stop rfl rfl))).tail
    (.inr (.discard rfl))).tail (.inr (.exit rfl))
  have run := ((left.tail (.inl (.refused (.command (.unsubscribe ⟨1⟩)) rfl rfl))).tail
    (.inl (.refused .shutdown rfl rfl))).tail (.inl (.joined 1 rfl rfl rfl))
  exact ⟨_, run, rfl, rfl, rfl, rfl, (orderly_shutdown run .refl).1⟩

end Service
end ScanSlot
