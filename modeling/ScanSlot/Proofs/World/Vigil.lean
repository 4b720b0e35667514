import ScanSlot.Proofs.World.Guard
import Mathlib.Logic.Relation

/-! Worlds whose peers all live in the same process and whose callbacks are channels, at any point
of any run. A dead peer is always about to lose its slots, and a worker never lets it have them. -/
namespace ScanSlot

open Relation (ReflTransGen)
open Dialogue (Path path_run path_bind_pure)

/-- What a command asks of the registry, unless it only looks. -/
def Command.operation? : Command → Option Operation
  | subscribe request => some (.subscribe request)
  | unsubscribe owner => some (.unsubscribe owner)
  | deliver batch => some (.deliver batch)
  | dump | snapshot | names | frequencies => none

namespace World

/-- One thing that happens. Nobody but the station itself takes hooks away or empties its inbox. -/
inductive Move : World → World → Prop where
  | station (w : World) : Move w w.addStation.2
  | peer (name : String) (w : World) : Move w (w.addPeer (.inProcess { name })).2
  | channel (capacity : Nat) (w : World) : Move w (w.addChannel capacity).2
  | drain (index : Nat) (w : World) : Move w (w.drain index).2
  | closeReceiver (index : Nat) (w : World) : Move w (w.closeReceiver index)
  | operate {i : Nat} {s : Station} {w : World} (op : Operation)
      (there : w.stations[i]? = some s) (opened : s.isOpen = true) : Move w (w.operate i op)
  | heed {i generation : Nat} {rest : List Nat} {s : Station} {w : World}
      (there : w.stations[i]? = some s) (opened : s.isOpen = true)
      (queued : s.inbox = generation :: rest) : Move w (w.heed i generation rest)
  | tell {i : Nat} {s : Station} {w : World} (m : Message) (there : w.stations[i]? = some s)
      (opened : s.isOpen = true) : Move w (w.tell i m).2
  | kill (index : Nat) (w : World) : Move w (w.kill index)
  /-- The hooks fire in another order. -/
  | dies {index : Nat} {p : InProcessPeer DeathHook} {hooks : List DeathHook} {w : World}
      (there : w.peers[index]? = some (.inProcess p)) (alive : p.alive = true)
      (order : hooks.Perm (p.hooks.map Prod.snd)) : Move w (w.dies index p hooks)

def Reached (w : World) : Prop :=
  ReflTransGen Move {} w

/-- The kill of the peer is over, whatever has happened since. -/
def Killed (w : World) (index : Nat) : Prop :=
  ∃ w₀, Reached w₀ ∧ index < w₀.peers.length ∧ ReflTransGen Move (w₀.kill index) w

/-- What a move can come to. -/
inductive Change (w w' : World) : Prop where
  | quiet (stations : w'.stations = w.stations) (peers : w'.peers = w.peers)
  | operated {i : Nat} {s s' : Station} (there : w.stations[i]? = some s)
      (stations : w'.stations = w.stations.set i s') (effect : Effect i s w.peers s' w'.peers)
  | station (stations : w'.stations = w.stations ++ [({} : Station)]) (peers : w'.peers = w.peers)
  | peer (name : String) (stations : w'.stations = w.stations)
      (peers : w'.peers = w.peers ++ [.inProcess { name }])
  | died {index : Nat} {p : InProcessPeer DeathHook} {hooks : List DeathHook}
      (there : w.peers[index]? = some (.inProcess p)) (alive : p.alive = true)
      (order : hooks.Perm (p.hooks.map Prod.snd)) (died : w' = w.dies index p hooks)

theorem guarded_change {w w' : World} (guarded : Guarded w.stations w.peers)
    (change : Change w w') : Guarded w'.stations w'.peers := by
  cases change with
  | quiet stations peers => rwa [stations, peers]
  | operated there stations effect =>
    rw [stations]
    exact guarded.effect there effect
  | station stations peers =>
    rw [stations, peers]
    exact guarded.addStation
  | peer name stations peers =>
    rw [stations, peers]
    exact guarded.addPeer name
  | died there alive order died =>
    subst died
    exact guarded.dies there alive order

theorem inProcess_of_guarded {w : World} (guarded : Guarded w.stations w.peers) :
    w.InProcess := by
  intro peer here
  obtain ⟨index, there⟩ := List.mem_iff_getElem?.mp here
  obtain ⟨p, same, _⟩ := guarded.warns index peer there
  exact ⟨p, same⟩

theorem known_of_guarded {w : World} {i : Nat} {s : Station}
    (guarded : Guarded w.stations w.peers) (there : w.stations[i]? = some s) :
    ∀ b, s.registry.bond = some b → ∃ p, w.peers[b.peer]? = some (.inProcess p) := by
  intro b held
  obtain ⟨p, found, _⟩ := (guarded.watches i s there).noticed b held
  exact ⟨p, found⟩

theorem operate_guarded {w : World} {i : Nat} {s : Station}
    (guarded : Guarded w.stations w.peers) (there : w.stations[i]? = some s)
    (opened : s.isOpen = true) (op : Operation) :
    ∃ xs out r, op.Course s xs out r ∧
      (w.operate i op).stations = w.stations.set i (op.finish r (op.begin s)) ∧
      Effect i s w.peers (op.finish r (op.begin s)) (w.operate i op).peers :=
  operate_effect (inProcess_of_guarded guarded) there opened (known_of_guarded guarded there) op

theorem setRegistry_eq_self {w : World} {i : Nat} {s : Station}
    (there : w.stations[i]? = some s) : w.setRegistry i (w.registry i) = w := by
  have same : w.stations.set i s = w.stations := by
    obtain ⟨inside, rfl⟩ := List.getElem?_eq_some_iff.mp there
    exact List.set_getElem_self inside
  have stations := stations_modifyStation (fun s => { s with registry := w.registry i }) there
  rw [registry_eq there, same] at stations
  rw [registry_eq there]
  exact congrArg (fun stations => { w with stations }) stations

theorem perform_handle {w : World} {i : Nat} {s : Station} (there : w.stations[i]? = some s)
    (c : Command) :
    (w.perform i c.handle).2 =
      match c.operation? with
      | some op => w.operate i op
      | none => w := by
  cases c with
  | subscribe | unsubscribe | deliver =>
    simp only [Command.handle, Command.operation?, operate, perform, Dialogue.run_bind]
    rfl
  | dump | snapshot | names | frequencies => exact setRegistry_eq_self there

theorem vacates_bond {r r' : Registry} {xs : List Exchange} (course : r.Vacates xs r') :
    r'.bond = none := by
  cases course <;> rfl

theorem tell_change {w : World} {i : Nat} {s : Station} (guarded : Guarded w.stations w.peers)
    (there : w.stations[i]? = some s) (opened : s.isOpen = true) (m : Message) :
    Change w (w.tell i m).2 := by
  obtain ⟨_, _, r, _, stations, effect⟩ := operate_guarded guarded there opened .process
  have there' := getElem?_set_of_some there (Operation.process.finish r (Operation.process.begin s))
  have guarded' := guarded.effect there effect
  rw [← stations] at there' guarded'
  rw [tell_open there opened]
  cases m with
  | command c =>
    simp only [perform_handle there']
    cases c.operation? with
    | none => exact .operated there stations effect
    | some op =>
      obtain ⟨_, _, r', _, stations', effect'⟩ := operate_guarded guarded' there' opened op
      rw [stations, List.set_set] at stations'
      exact .operated there stations' (effect.trans effect')
  | shutdown =>
    obtain ⟨_, _, r', course, stations', effect'⟩ := operate_guarded guarded' there' opened .close
    have there'' := getElem?_set_of_some there'
      (Operation.close.finish r' (Operation.close.begin
        (Operation.process.finish r (Operation.process.begin s))))
    rw [← stations'] at there''
    have emptied : r'.bond = none := by
      cases course with
      | close course => exact vacates_bond course
    have forgotten := stations_modifyStation (fun _ => { isOpen := false }) there''
    rw [stations', List.set_set, stations, List.set_set] at forgotten
    exact .operated there forgotten (effect.trans (effect'.trans (.forgotten emptied rfl rfl)))

theorem move_change {w w' : World} (guarded : Guarded w.stations w.peers) (move : Move w w') :
    Change w w' := by
  cases move with
  | station => exact .station rfl rfl
  | peer name => exact .peer name rfl rfl
  | channel => exact .quiet rfl rfl
  | drain index =>
    unfold drain
    split <;> exact .quiet rfl rfl
  | closeReceiver index =>
    unfold closeReceiver
    split <;> exact .quiet rfl rfl
  | operate op there opened =>
    obtain ⟨_, _, _, _, stations, effect⟩ := operate_guarded guarded there opened op
    exact .operated there stations effect
  | heed there opened queued =>
    obtain ⟨s', stations, effect⟩ := heed_effect (inProcess_of_guarded guarded) there opened
      (known_of_guarded guarded there) queued
    exact .operated there stations effect
  | tell m there opened => exact tell_change guarded there opened m
  | kill index =>
    cases there : w.peers[index]? with
    | none => exact .quiet (by rw [kill, there]) (by rw [kill, there])
    | some found =>
      obtain ⟨p, rfl, _⟩ := guarded.warns index found there
      cases alive : p.alive with
      | false =>
        rw [kill_dead there alive]
        exact .quiet rfl rfl
      | true => exact .died there alive (.refl _) (kill_alive there alive)
  | dies there alive order => exact .died there alive order rfl

/-- The invariant holds at any point of any run. -/
theorem reaches_guarded {w w' : World} (guarded : Guarded w.stations w.peers)
    (run : ReflTransGen Move w w') : Guarded w'.stations w'.peers := by
  induction run with
  | refl => exact guarded
  | tail _ move ih => exact guarded_change ih (move_change ih move)

theorem reached_guarded {w : World} (reached : Reached w) : Guarded w.stations w.peers :=
  reaches_guarded guarded_nil reached

/-! Death is final. -/

def Dead (w : World) (index : Nat) : Prop :=
  ∃ p, w.peers[index]? = some (.inProcess p) ∧ p.alive = false

theorem effect_alike {i : Nat} {s s' : Station} {peers peers' : List Peer}
    (effect : Effect i s peers s' peers') (index : Nat) (p : InProcessPeer DeathHook)
    (there : peers[index]? = some (.inProcess p)) :
    ∃ p', peers'[index]? = some (.inProcess p') ∧ p'.alive = p.alive := by
  induction effect generalizing p with
  | idle | forgotten => exact ⟨p, there, rfl⟩
  | admitted _ _ found => exact alike_set found (InProcessPeer.alive_link _ _) index p there
  | released _ found => exact alike_set found (InProcessPeer.alive_unlink _ _) index p there
  | trans _ _ first second =>
    obtain ⟨p₁, there₁, same₁⟩ := first p there
    obtain ⟨p₂, there₂, same₂⟩ := second p₁ there₁
    exact ⟨p₂, there₂, same₂.trans same₁⟩

theorem change_dead {w w' : World} {index : Nat} (change : Change w w') (dead : Dead w index) :
    Dead w' index := by
  obtain ⟨p, there, dead⟩ := dead
  cases change with
  | quiet _ peers => exact ⟨p, peers ▸ there, dead⟩
  | operated _ _ effect =>
    obtain ⟨p', there', same⟩ := effect_alike effect index p there
    exact ⟨p', there', same.trans dead⟩
  | station _ peers => exact ⟨p, peers ▸ there, dead⟩
  | peer name _ peers =>
    rw [Dead, peers]
    exact ⟨p, getElem?_concat_of_some _ there, dead⟩
  | @died k q hooks found alive order died =>
    subst died
    have other : k ≠ index := by
      rintro rfl
      obtain ⟨⟩ := there.symm.trans found
      rw [alive] at dead
      contradiction
    refine ⟨p, ?_, dead⟩
    rw [dies, fireAll_peers]
    exact (List.getElem?_set_ne other).trans there

theorem kill_dies {w : World} {index : Nat} (guarded : Guarded w.stations w.peers)
    (inside : index < w.peers.length) : Dead (w.kill index) index := by
  have there := List.getElem?_eq_getElem inside
  obtain ⟨p, same, _⟩ := guarded.warns index _ there
  rw [same] at there
  cases alive : p.alive with
  | false =>
    rw [kill_dead there alive]
    exact ⟨p, there, alive⟩
  | true =>
    refine ⟨{ p with alive := false, hooks := [] }, ?_, rfl⟩
    rw [kill_alive there alive, dies, fireAll_peers]
    exact getElem?_set_of_some there _

theorem reaches_dead {w w' : World} {index : Nat} (guarded : Guarded w.stations w.peers)
    (dead : Dead w index) (run : ReflTransGen Move w w') : Dead w' index := by
  induction run with
  | refl => exact dead
  | tail run move ih => exact change_dead (move_change (reaches_guarded guarded run) move) ih

theorem killed_dead {w : World} {index : Nat} (killed : Killed w index) : Dead w index := by
  obtain ⟨w₀, reached, inside, run⟩ := killed
  have guarded := reached_guarded reached
  exact reaches_dead (guarded.kill index) (kill_dies guarded inside) run

/-! What a command says. -/

@[simp] theorem notify_not_mem_faultEntries {ε : Type} {entry : Fault → LogEntry}
    {fault : Except Fault ε} {callback : CallbackRef} {event : Event}
    {answer : Except Fault Unit} : .notify callback event answer ∉ faultEntries entry fault := by
  cases fault <;> simp [faultEntries]

/-- Only a subscription in the slot keeps others out or has results delivered. -/
theorem handle_favours {r r' : Registry} {c : Command} {xs : List Exchange} {reply : Reply}
    (path : Path (c.handle r) xs (reply, r')) (callback : CallbackRef)
    (answer : Except Fault Unit) :
    (∀ reason, .notify callback (.registerFailed reason) answer ∈ xs →
        ∃ active, r.current = some active) ∧
      ∀ batch, .notify callback (.scanResultsAvailable batch) answer ∈ xs →
        ∃ active, r.current = some active ∧ active.callback = callback := by
  cases c with
  | subscribe request =>
    obtain ⟨⟨accepted, r⟩, course, ⟨⟩⟩ := path_bind_pure.mp path
    cases Registry.path_subscribe.mp course with
    | rejected _ occupied => exact ⟨fun _ _ => ⟨_, occupied⟩, fun batch said => by simp at said⟩
    | linkFailed | successNotSent | admitted => simp
  | unsubscribe owner =>
    obtain ⟨⟨accepted, r⟩, course, ⟨⟩⟩ := path_bind_pure.mp path
    cases Registry.path_unsubscribe.mp course with
    | refused | removed => simp [Subscription.release]
  | deliver batch =>
    obtain ⟨_, course, ⟨⟩⟩ := path_bind_pure.mp path
    cases Registry.path_deliver.mp course with
    | vacant | unmatched => simp
    | matched _ occupied _ announced =>
      refine ⟨fun _ _ => ⟨_, occupied⟩, ?_⟩
      intro batch said
      refine ⟨_, occupied, ?_⟩
      cases announced with
      | refused | taken =>
        simp only [Subscription.release, List.cons_append, List.nil_append, List.mem_cons,
          List.mem_append, notify_not_mem_faultEntries, or_false, false_or,
          Exchange.notify.injEq, reduceCtorEq, false_and, and_false] at said
        exact said.1.symm
  | dump | snapshot | names | frequencies =>
    cases path
    simp

/-- A dead peer never keeps a slot: its station has one notice of its death waiting, and there is
none while the peer lives. So once its notices are applied a station holds on to live peers only,
and what its worker then makes of a command favours nobody whose peer was killed before. -/
theorem dead_peer_gives_way {w : World} (reached : Reached w) :
    (∀ (i : Nat) (s : Station) (active : Subscription), w.stations[i]? = some s →
      s.registry.current = some active →
      ∃ p, w.peers[active.peer.index]? = some (.inProcess p) ∧
        s.inbox.count active.generation = if p.alive then 0 else 1) ∧
    ∀ (i : Nat) (s : Station), w.stations[i]? = some s → s.isOpen = true →
      let after := (w.processInbox i).2
      (∃ t, after.stations[i]? = some t ∧ t.inbox = [] ∧
        ∀ active, t.registry.current = some active →
          ∃ p, after.peers[active.peer.index]? = some (.inProcess p) ∧ p.alive = true) ∧
      ∀ c : Command,
        let said := (c.handle (after.registry i)).exchanges (host i).toCollaborators after
        (w.tell i (.command c) =
          let (reply, w) := after.perform i c.handle
          (.ok reply, w)) ∧
        ∀ callback answer,
          (∀ reason, .notify callback (.registerFailed reason) answer ∈ said →
            ∃ active, (after.registry i).current = some active ∧
              ¬ Killed w active.peer.index) ∧
          ∀ batch, .notify callback (.scanResultsAvailable batch) answer ∈ said →
            ∃ active, (after.registry i).current = some active ∧ active.callback = callback ∧
              ¬ Killed w active.peer.index := by
  have guarded := reached_guarded reached
  constructor
  · intro i s active there occupied
    exact (guarded.watches i s there).noticed _ (Registry.bond_of_current occupied)
  · intro i s there opened after
    have change : Change w after := move_change guarded (.operate .process there opened)
    have guarded' := guarded_change guarded change
    obtain ⟨_, _, r, _, stations, _⟩ := operate_guarded guarded there opened .process
    let t := Operation.process.finish r (Operation.process.begin s)
    have there' : after.stations[i]? = some t := by
      have set := getElem?_set_of_some there t
      rwa [← stations] at set
    have live : ∀ active, r.current = some active →
        ∃ p, after.peers[active.peer.index]? = some (.inProcess p) ∧ p.alive = true := by
      intro active occupied
      obtain ⟨p, found, count⟩ :=
        (guarded'.watches i t there').noticed _ (Registry.bond_of_current occupied)
      refine ⟨p, found, ?_⟩
      by_contra dead
      rw [if_neg dead] at count
      exact absurd count Nat.zero_ne_one
    have spared : ∀ active, r.current = some active → ¬ Killed w active.peer.index := by
      intro active occupied killed
      obtain ⟨p, found, alive⟩ := live active occupied
      obtain ⟨q, found', dead⟩ := change_dead change (killed_dead killed)
      obtain ⟨⟩ := found.symm.trans found'
      rw [alive] at dead
      contradiction
    refine ⟨⟨t, there', rfl, live⟩, ?_⟩
    intro c
    refine ⟨tell_open there opened (.command c), ?_⟩
    intro callback answer
    have favours := handle_favours (path_run (host i).toCollaborators (c.handle r) after) callback
      answer
    rw [registry_eq there']
    constructor
    · intro reason said
      obtain ⟨active, occupied⟩ := favours.1 reason said
      exact ⟨active, occupied, spared active occupied⟩
    · intro batch said
      obtain ⟨active, occupied, same⟩ := favours.2 batch said
      exact ⟨active, occupied, same, spared active occupied⟩

/-- A peer dies while it holds the slot, and a rival with a live peer is admitted at once. -/
theorem dead_peer_gives_way_to_rival :
    let ssid : Ssid := ⟨[0x6E, 0x65, 0x74], by decide⟩
    let q := Request.forOne ⟨1⟩ ⟨0, "LocalPeer(first)"⟩ ⟨0, channelLabel 1⟩ ssid
    let rival := Request.forOne ⟨2⟩ ⟨1, "LocalPeer(second)"⟩ ⟨0, channelLabel 1⟩ ssid
    ∃ w, Reached w ∧ Killed w 0 ∧
      w.stations[0]? = some ⟨⟨some (q.admitted 1 1), 0, 2⟩, [1], true⟩ ∧
      (∃ p, w.peers[0]? = some (.inProcess p) ∧ [1].count 1 = if p.alive then 0 else 1) ∧
      (w.tell 0 (.command (.subscribe rival))).1 = .ok (.decided true) ∧
      ∃ t, (w.processInbox 0).2.stations[0]? = some t ∧ t.inbox = [] ∧
        ∀ active, t.registry.current = some active →
          ∃ p, (w.processInbox 0).2.peers[active.peer.index]? = some (.inProcess p) ∧
            p.alive = true := by
  intro ssid q rival
  let w₀ := ((((({} : World).addStation.2.addPeer (.inProcess { name := "first" })).2.addPeer
    (.inProcess { name := "second" })).2.addChannel 4).2.operate 0 (.subscribe q))
  have made : ReflTransGen Move {} (((({} : World).addStation.2.addPeer
      (.inProcess { name := "first" })).2.addPeer (.inProcess { name := "second" })).2.addChannel
      4).2 :=
    (((ReflTransGen.single (.station _)).tail (.peer "first" _)).tail (.peer "second" _)).tail
      (.channel 4 _)
  have reached₀ : Reached w₀ := made.tail (.operate (.subscribe q) rfl rfl)
  have reached : Reached (w₀.kill 0) := reached₀.tail (.kill 0 w₀)
  have met : (w₀.kill 0).stations[0]? = some ⟨⟨some (q.admitted 1 1), 0, 2⟩, [1], true⟩ := rfl
  refine ⟨w₀.kill 0, reached, ⟨w₀, reached₀, by decide, .refl⟩, met, ?_, rfl, ?_⟩
  · exact (dead_peer_gives_way reached).1 0 _ _ met rfl
  · exact ((dead_peer_gives_way reached).2 0 _ met rfl).1

end World
end ScanSlot
