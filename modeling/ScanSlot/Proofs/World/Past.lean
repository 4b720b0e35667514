import ScanSlot.Proofs.World.Accounts
import ScanSlot.Proofs.Ensemble.Hooks

/-! Generations that are past. Once a registry has counted beyond a generation that is nobody's, no
hook bears it any more, and no notice ever will. -/
namespace ScanSlot

open Relation (ReflTransGen)

/-- The generation belongs to nobody any more and is not given out again. -/
structure Station.Past (generation : Nat) (s : Station) : Prop where
  unqueued : generation ∉ s.inbox
  unbound : ∀ active, s.registry.current = some active → active.generation ≠ generation
  used : s.isOpen = true → generation < s.registry.nextGeneration

/-- An operation never returns to an earlier generation. -/
theorem Operation.Course.generations {op : Operation} {s : Station} {xs : List Exchange}
    {out : Outcome} {r : Registry} (course : op.Course s xs out r)
    (counted : 0 < s.registry.nextGeneration) :
    s.registry.nextGeneration ≤ r.nextGeneration ∧ ∀ active, r.current = some active →
      active.generation = s.registry.nextGeneration ∨
        ∃ held, s.registry.current = some held ∧ held.generation = active.generation := by
  -- The state of the registry is the tally of some run, which the operation continues.
  obtain ⟨attempts, next⟩ := Nat.exists_eq_add_one.mpr counted
  have before : Tally.Fits ⟨attempts, s.registry.current.map Subscription.generation⟩ s.registry :=
    ⟨next, rfl⟩
  have after := (Tally.after_course course before []).2
  constructor
  · rw [after.next, Tally.attempts_after, next]
    split <;> simp
  · intro active held
    have standing := after.standing held
    rw [Tally.after] at standing
    split at standing
    · obtain ⟨_, same⟩ := Option.ite_none_right_eq_some.mp standing
      exact .inl ((Option.some.inj same).symm.trans next.symm)
    · obtain ⟨_, kept⟩ := Option.ite_none_left_eq_some.mp standing
      obtain ⟨first, occupied, same⟩ := Option.map_eq_some_iff.mp kept
      exact .inr ⟨first, occupied, same⟩

namespace Station.Past
variable {g : Nat} {s : Station}

theorem course {op : Operation} {xs : List Exchange} {out : Outcome} {r : Registry}
    (past : s.Past g) (opened : s.isOpen = true) (course : op.Course s xs out r) :
    (op.finish r (op.begin s)).Past g := by
  have used := past.used opened
  obtain ⟨next, generations⟩ := course.generations (Nat.zero_lt_of_lt used)
  constructor
  · intro queued
    have taken := (Ensemble.finish_inbox_sublist op r (op.begin s)).trans
      (Ensemble.begin_inbox_sublist op s)
    exact past.unqueued (taken.subset queued)
  · intro active held
    rw [registry_finish] at held
    obtain fresh | ⟨before, kept, same⟩ := generations active held
    · exact fresh ▸ Nat.ne_of_gt used
    · exact same ▸ past.unbound before kept
  · intro _
    rw [registry_finish]
    exact Nat.lt_of_lt_of_le used next

theorem postAll {generations : List Nat} (past : s.Past g) (others : g ∉ generations) :
    (s.postAll generations).Past g := by
  constructor
  · intro queued
    have queued := (s.inbox_postAll_sublist generations).subset queued
    exact (List.mem_append.mp queued).elim past.unqueued others
  · rw [registry_postAll]
    exact past.unbound
  · rw [registry_postAll, isOpen_postAll]
    exact past.used

end Station.Past

namespace World
variable {i g : Nat} {w w' : World}

/-- A station at which a generation is past. -/
def PastAt (i g : Nat) (w : World) : Prop :=
  ∃ s, w.stations[i]? = some s ∧ s.Past g

theorem PastAt.set (past : w.PastAt i g) {j : Nat} {s s' : Station}
    (there : w.stations[j]? = some s) (stations : w'.stations = w.stations.set j s')
    (kept : s.Past g → s'.Past g) : w'.PastAt i g := by
  obtain ⟨t, met, past⟩ := past
  unfold PastAt
  rw [stations]
  by_cases own : j = i
  · subst own
    obtain rfl := Option.some.inj (there.symm.trans met)
    exact ⟨s', getElem?_set_of_some there s', kept past⟩
  · exact ⟨t, by rw [List.getElem?_set_ne own, met], past⟩

theorem PastAt.operate (past : w.PastAt i g) {j : Nat} {s : Station} (inProcess : w.InProcess)
    (there : w.stations[j]? = some s) (opened : s.isOpen = true)
    (known : ∀ b, s.registry.bond = some b → ∃ p, w.peers[b.peer]? = some (.inProcess p))
    (op : Operation) : (w.operate j op).PastAt i g := by
  obtain ⟨_, _, _, course, stations, _⟩ := operate_effect inProcess there opened known op
  exact past.set there stations fun before => before.course opened course

theorem PastAt.operate_guarded (past : w.PastAt i g) (guarded : Guarded w.stations w.peers)
    {j : Nat} {s : Station} (there : w.stations[j]? = some s) (opened : s.isOpen = true)
    (op : Operation) : (w.operate j op).PastAt i g :=
  past.operate (inProcess_of_guarded guarded) there opened (known_of_guarded guarded there) op

theorem PastAt.heed (past : w.PastAt i g) (guarded : Guarded w.stations w.peers)
    {j generation : Nat} {rest : List Nat} {s : Station} (there : w.stations[j]? = some s)
    (opened : s.isOpen = true) (queued : s.inbox = generation :: rest) :
    (w.heed j generation rest).PastAt i g := by
  have taken := getElem?_modifyStation (fun s => { s with inbox := rest }) there
  have inProcess : w.InProcess := inProcess_of_guarded guarded
  have known := known_of_guarded guarded there
  have left : (w.modifyStation j fun s => { s with inbox := rest }).PastAt i g := by
    refine past.set there (stations_modifyStation _ there) fun before => ?_
    refine ⟨fun here => before.unqueued ?_, before.unbound, before.used⟩
    rw [queued]
    exact List.mem_cons_of_mem _ here
  exact left.operate inProcess taken opened known (.peerLost generation)

theorem PastAt.tell (past : w.PastAt i g) (guarded : Guarded w.stations w.peers) {j : Nat}
    {s : Station} (there : w.stations[j]? = some s) (opened : s.isOpen = true) (m : Message) :
    (w.tell j m).2.PastAt i g := by
  have processed := past.operate_guarded guarded there opened .process
  have guarded' := guarded_change guarded (move_change guarded (.operate .process there opened))
  obtain ⟨_, _, r, _, stations, _⟩ := World.operate_guarded guarded there opened .process
  have there' := getElem?_set_of_some there (Operation.process.finish r (Operation.process.begin s))
  rw [← stations] at there'
  rw [tell_open there opened]
  cases m with
  | command c =>
    simp only [perform_handle there']
    cases c.operation? with
    | none => exact processed
    | some op => exact processed.operate_guarded guarded' there' opened op
  | shutdown =>
    have closed := processed.operate_guarded guarded' there' opened .close
    obtain ⟨_, _, r', _, stations', _⟩ := World.operate_guarded guarded' there' opened .close
    have there'' := getElem?_set_of_some there'
      (Operation.close.finish r' (Operation.close.begin
        (Operation.process.finish r (Operation.process.begin s))))
    rw [← stations'] at there''
    refine closed.set there'' (stations_modifyStation _ there'') fun _ => ?_
    exact ⟨List.not_mem_nil, nofun, nofun⟩

theorem stations_dies (index : Nat) (p : InProcessPeer DeathHook) (hooks : List DeathHook)
    (w : World) : (w.dies index p hooks).stations = postHooks hooks w.stations :=
  fireAll_stations hooks _

/-- The hooks of a live peer are those of subscriptions in slots: none is of a past generation. -/
theorem PastAt.dies (past : w.PastAt i g) (guarded : Guarded w.stations w.peers) {index : Nat}
    {p : InProcessPeer DeathHook} {hooks : List DeathHook}
    (there : w.peers[index]? = some (.inProcess p)) (alive : p.alive = true)
    (order : hooks.Perm (p.hooks.map Prod.snd)) : (w.dies index p hooks).PastAt i g := by
  obtain ⟨s, met, past⟩ := past
  obtain ⟨_, ⟨⟩, warns⟩ := guarded.warns _ _ there
  refine ⟨s.postAll (generationsFor i hooks), ?_, past.postAll ?_⟩
  · rw [stations_dies, getElem?_postHooks, met]
    rfl
  · intro fired
    rw [mem_generationsFor, order.mem_iff] at fired
    obtain ⟨⟨link, _⟩, hooked, rfl⟩ := List.mem_map.mp fired
    have bond := (binds_self met).mp ((warns.bound alive _ _).mp hooked)
    obtain ⟨active, held, same⟩ := Option.map_eq_some_iff.mp bond
    exact past.unbound active held (congrArg Bond.generation same)

theorem PastAt.move (past : w.PastAt i g) (guarded : Guarded w.stations w.peers)
    (move : Move w w') : w'.PastAt i g := by
  have ⟨s, met, still⟩ := past
  cases move with
  | station => exact ⟨s, getElem?_concat_of_some _ met, still⟩
  | peer | channel => exact ⟨s, met, still⟩
  | drain index =>
    unfold drain
    split <;> exact ⟨s, met, still⟩
  | closeReceiver index =>
    unfold closeReceiver
    split <;> exact ⟨s, met, still⟩
  | operate op there opened => exact past.operate_guarded guarded there opened op
  | heed there opened queued => exact past.heed guarded there opened queued
  | tell m there opened => exact past.tell guarded there opened m
  | kill index =>
    cases there : w.peers[index]? with
    | none =>
      rw [kill, there]
      exact past
    | some found =>
      obtain ⟨p, rfl, _⟩ := guarded.warns index found there
      cases alive : p.alive with
      | false => rwa [kill_dead there alive]
      | true =>
        rw [kill_alive there alive]
        exact past.dies guarded there alive (.refl _)
  | dies there alive order => exact past.dies guarded there alive order

/-- A past generation stays past, whatever happens. -/
theorem PastAt.happens {later : World} (past : w.PastAt i g) (reached : ReflTransGen Happens {} w)
    (run : ReflTransGen Happens w later) : later.PastAt i g := by
  induction run with
  | refl => exact past
  | tail before happens ih =>
    cases happens with
    | move move => exact ih.move (happens_guarded (reached.trans before)) move
    | callbacks => exact ih

end World
end ScanSlot
