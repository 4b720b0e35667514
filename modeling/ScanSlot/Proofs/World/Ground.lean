import ScanSlot.World.Operation
import ScanSlot.Proofs.Station.History

/-! How the operations of a station act on its world: which course they take, what the peers of
the same process make of the calls, and what the worker of a station does in terms of them. -/
namespace ScanSlot

open Dialogue (path_run)

namespace World

/-- An operation of a station, without what it returns. -/
def operate (station : Nat) (op : Operation) (w : World) : World :=
  match op with
  | .subscribe request => (w.perform station (·.subscribe request)).2
  | .unsubscribe owner => (w.perform station (·.unsubscribe owner)).2
  | .deliver batch => (w.perform station fun r => do return ((), ← r.deliver batch)).2
  | .peerLost generation =>
      (w.perform station fun r => do return ((), ← r.peerLost generation)).2
  | .process => (w.processInbox station).2
  | .close => w.close station

theorem modifyStation_modifyStation (station : Nat) (f g : Station → Station) (w : World) :
    (w.modifyStation station f).modifyStation station g =
      w.modifyStation station (g ∘ f) := by
  simp only [modifyStation, List.modify_modify_eq]

theorem modifyStation_comm {f g : Station → Station} (i j : Nat) (w : World)
    (comm : ∀ s, f (g s) = g (f s)) :
    (w.modifyStation i f).modifyStation j g = (w.modifyStation j g).modifyStation i f := by
  have same : (w.stations.modify i f).modify j g = (w.stations.modify j g).modify i f := by
    apply List.ext_getElem?
    intro k
    simp only [List.getElem?_modify]
    cases w.stations[k]? with
    | none => simp
    | some s => by_cases i = k <;> by_cases j = k <;> simp [*]
  simp only [modifyStation, same]

theorem modifyStation_eq_self (station : Nat) (w : World) :
    w.modifyStation station (fun s => s) = w := by
  have same : w.stations.modify station (fun s => s) = w.stations := List.modify_id station _
  simp only [modifyStation, same]

theorem stations_modifyStation {i : Nat} {s : Station} {w : World} (f : Station → Station)
    (there : w.stations[i]? = some s) :
    (w.modifyStation i f).stations = w.stations.set i (f s) := by
  apply List.ext_getElem?
  intro k
  simp only [modifyStation, List.getElem?_modify, List.getElem?_set]
  by_cases same : i = k
  · subst same
    obtain ⟨inside, rfl⟩ := List.getElem?_eq_some_iff.mp there
    simp [inside]
  · simp [same]

theorem registry_eq {i : Nat} {s : Station} {w : World} (there : w.stations[i]? = some s) :
    w.registry i = s.registry := by
  simp only [registry, there, Option.map_some, Option.getD_some]

theorem setPeer_eq_self {w : World} {index : Nat} {peer : Peer}
    (there : w.peers[index]? = some peer) : w.setPeer index peer = w := by
  obtain ⟨inside, rfl⟩ := List.getElem?_eq_some_iff.mp there
  simp only [World.setPeer, List.set_getElem_self]

/-! The peers and callbacks of a world never look at its registries. -/

theorem fireAll_setRegistry (i : Nat) (r : Registry) (hooks : List DeathHook) (w : World) :
    (w.setRegistry i r).fireAll hooks = (w.fireAll hooks).setRegistry i r := by
  induction hooks generalizing w with
  | nil => rfl
  | cons hook rest ih =>
    have first : (w.setRegistry i r).fire hook = (w.fire hook).setRegistry i r := by
      apply modifyStation_comm _ _ _
      intro s
      unfold Station.post
      by_cases opened : s.isOpen = true <;> simp [opened]
    change ((w.setRegistry i r).fire hook).fireAll rest = _
    rw [first]
    exact ih _

theorem link_setRegistry (i : Nat) (r : Registry) (index : Nat) (hook : DeathHook) (w : World) :
    (w.setRegistry i r).link index hook =
      ((w.link index hook).1, (w.link index hook).2.setRegistry i r) := by
  have peers : (w.setRegistry i r).peers = w.peers := rfl
  unfold link
  rw [peers]
  match w.peers[index]? with
  | none => rfl
  | some (.inProcess p) => rfl
  | some (.scripted p) =>
    exact congrArg _ (fireAll_setRegistry i r _ (w.setPeer index (.scripted (p.link hook).2.2)))

theorem unlink_setRegistry (i : Nat) (r : Registry) (index l : Nat) (w : World) :
    (w.setRegistry i r).unlink index l =
      ((w.unlink index l).1, (w.unlink index l).2.setRegistry i r) := by
  have peers : (w.setRegistry i r).peers = w.peers := rfl
  unfold unlink
  rw [peers]
  match w.peers[index]? with
  | none => rfl
  | some (.inProcess p) => rfl
  | some (.scripted p) => rfl

theorem notify_setRegistry (i : Nat) (r : Registry) (index : Nat) (event : Event) (w : World) :
    (w.setRegistry i r).notify index event =
      ((w.notify index event).1, (w.notify index event).2.setRegistry i r) := by
  have callbacks : (w.setRegistry i r).callbacks = w.callbacks := rfl
  unfold notify
  rw [callbacks]
  match w.callbacks[index]? with
  | none => rfl
  | some (.channel c) => rfl
  | some (.scripted c) => rfl

theorem run_setRegistry {α : Type} (i j : Nat) (r : Registry) (d : Dialogue α) (w : World) :
    d.run (host j).toCollaborators (w.setRegistry i r) =
      ((d.run (host j).toCollaborators w).1,
        (d.run (host j).toCollaborators w).2.setRegistry i r) := by
  induction d generalizing w with
  | done a => rfl
  | link peer generation next ih =>
    simp only [Dialogue.run, host, link_setRegistry]
    exact ih _ _
  | unlink peer l next ih =>
    simp only [Dialogue.run, host, unlink_setRegistry]
    exact ih _ _
  | notify callback event next ih =>
    simp only [Dialogue.run, host, notify_setRegistry]
    exact ih _ _
  | log entry next ih => exact ih (w.log entry)

theorem setRegistry_setRegistry (i : Nat) (r r' : Registry) (w : World) :
    (w.setRegistry i r).setRegistry i r' = w.setRegistry i r' :=
  modifyStation_modifyStation i _ _ w

theorem length_fireAll (hooks : List DeathHook) (w : World) :
    (w.fireAll hooks).stations.length = w.stations.length := by
  induction hooks generalizing w with
  | nil => rfl
  | cons hook rest ih => exact (ih (w.fire hook)).trans (List.length_modify _ _ _)

theorem length_run {α : Type} (i : Nat) (d : Dialogue α) (w : World) :
    (d.run (host i).toCollaborators w).2.stations.length = w.stations.length := by
  induction d generalizing w with
  | done a => rfl
  | link peer generation next ih =>
    apply (ih _ _).trans
    change (w.link peer.index ⟨i, generation⟩).2.stations.length = w.stations.length
    unfold World.link
    split
    · rfl
    · rfl
    · exact length_fireAll _ _
  | unlink peer l next ih =>
    apply (ih _ _).trans
    change (w.unlink peer.index l).2.stations.length = w.stations.length
    unfold World.unlink
    split <;> rfl
  | notify callback event next ih =>
    apply (ih _ _).trans
    change (w.notify callback.index event).2.stations.length = w.stations.length
    unfold World.notify
    split <;> rfl
  | log entry next ih => exact ih (w.log entry)

theorem registry_setRegistry {i : Nat} {w : World} (r : Registry)
    (there : i < w.stations.length) : (w.setRegistry i r).registry i = r := by
  simp [registry, setRegistry, modifyStation, List.getElem?_eq_getElem there]

theorem getElem?_modifyStation {i : Nat} {s : Station} {w : World} (f : Station → Station)
    (there : w.stations[i]? = some s) : (w.modifyStation i f).stations[i]? = some (f s) := by
  simp [modifyStation, there]

theorem takeInbox_eq {i : Nat} {s : Station} {w : World} (there : w.stations[i]? = some s) :
    w.takeInbox i = (s.inbox, w.modifyStation i fun s => { s with inbox := [] }) := by
  simp only [takeInbox, there, Option.map_some, Option.getD_some]

/-- An operation as one dialogue between its beginning and its end. -/
theorem operate_run {i : Nat} {s : Station} {w : World} (there : w.stations[i]? = some s)
    (op : Operation) :
    let ((_, r), w₁) := (op.ask s).run (host i).toCollaborators (w.modifyStation i op.begin)
    w.operate i op = w₁.modifyStation i (op.finish r) := by
  have same : w.modifyStation i (fun s => s) = w := modifyStation_eq_self i w
  have met := registry_eq there
  cases op with
  | subscribe | unsubscribe | deliver | peerLost =>
    simp only [operate, perform, met, Operation.ask, Operation.begin, same, Dialogue.run_bind]
    rfl
  | process =>
    have left := registry_eq (getElem?_modifyStation (fun s => { s with inbox := [] }) there)
    simp only [operate, processInbox, takeInbox_eq there, perform, left, Operation.ask,
      Operation.begin, Dialogue.run_bind]
    rfl
  | close =>
    simp only [operate, close, perform, met, Operation.ask, Operation.begin, same,
      Dialogue.run_bind, setRegistry, modifyStation_modifyStation]
    rfl

/-- An operation takes one of its courses, and the world answers. -/
theorem operate_course {i : Nat} {s : Station} {w : World} (there : w.stations[i]? = some s)
    (op : Operation) :
    ∃ xs out r w₁, op.Course s xs out r ∧ (host i).Plays xs (w.modifyStation i op.begin) w₁ ∧
      w.operate i op = w₁.modifyStation i (op.finish r) := by
  have path := path_run (host i).toCollaborators (op.ask s) (w.modifyStation i op.begin)
  have plays := Collaborators.plays_exchanges (host i).toCollaborators (op.ask s)
    (w.modifyStation i op.begin)
  exact ⟨_, _, _, _, Operation.path_ask.mp path, plays, operate_run there op⟩

/-- What taking and applying the inbox comes to. -/
theorem operate_process {i : Nat} {s : Station} {w : World} (there : w.stations[i]? = some s) :
    w.operate i .process =
      (Worker.applyQueued (host i) s.registry w).2.setRegistry i
        (Worker.applyQueued (host i) s.registry w).1 := by
  have left := registry_eq (getElem?_modifyStation (fun s => { s with inbox := [] }) there)
  have taken : (host i).takeNotices w = w.takeInbox i := rfl
  simp only [operate, processInbox, Worker.applyQueued, taken, takeInbox_eq there, perform, left,
    Dialogue.run_bind]
  rfl

/-- A message for the worker of an open station is handled in the world in which the notices are
applied; a shutdown closes the station and forgets its registry. -/
theorem tell_open {i : Nat} {s : Station} {w : World} (there : w.stations[i]? = some s)
    (opened : s.isOpen = true) (m : Message) :
    w.tell i m =
      match m with
      | .command c =>
          let (reply, w) := (w.operate i .process).perform i c.handle
          (.ok reply, w)
      | .shutdown =>
          (.ok .done, ((w.operate i .process).operate i .close).modifyStation i
            fun _ => { isOpen := false }) := by
  obtain ⟨r, inbox, _⟩ := s
  obtain rfl : _ = true := opened
  have inside : i < (Worker.applyQueued (host i) r w).2.stations.length := by
    obtain ⟨inside, _⟩ := List.getElem?_eq_some_iff.mp there
    refine Nat.lt_of_lt_of_eq inside (Eq.symm ?_)
    exact (length_run i _ _).trans (List.length_modify _ _ _)
  have processed := operate_process there
  simp only at processed
  generalize applied : Worker.applyQueued (host i) r w = result at inside processed
  obtain ⟨r₁, w₁⟩ := result
  have met := registry_setRegistry r₁ inside
  cases m with
  | command c =>
    simp only [tell, there, Worker.receive, applied, processed, perform, met, run_setRegistry,
      setRegistry_setRegistry]
  | shutdown =>
    simp only [tell, there, Worker.receive, applied, processed]
    simp only [operate, close, perform, met, Dialogue.run_bind, run_setRegistry]
    simp only [setRegistry, modifyStation_modifyStation]
    rfl

end World
end ScanSlot
