import ScanSlot.Proofs.World.Past
import ScanSlot.Proofs.Station.Conversation

/-! Attempts to subscribe that fail. Whatever stood in the way, and whoever shares the peer, nothing
is left of the attempt but the word that the slot is taken; its generation is used up, and no notice
will ever bear it. -/
namespace ScanSlot

open Relation (ReflTransGen)
open Dialogue (path_run)

/-- An attempt that finds the slot empty uses up its generation. -/
def Registry.attempted (r : Registry) : Registry :=
  if r.isOccupied then r else r.advanced

theorem Registry.attempted_occupied {r : Registry} {active : Subscription}
    (occupied : r.current = some active) : r.attempted = r := by
  simp [attempted, isOccupied, occupied]

theorem Registry.attempted_vacant {r : Registry} (vacant : r.current = none) :
    r.attempted = r.advanced := by
  simp [attempted, isOccupied, vacant]

/-- The registry that a failed attempt leaves. -/
theorem Registry.Subscribes.attempted {r r' : Registry} {q : Request} {xs : List Exchange}
    (course : r.Subscribes q xs false r') : r' = r.attempted := by
  cases course with
  | rejected _ occupied => exact (attempted_occupied occupied).symm
  | linkFailed _ vacant | successNotSent _ _ _ vacant => exact (attempted_vacant vacant).symm

/-- A callback after it was told something: a channel keeps what it takes. -/
def Callback.after (c : Callback) (event : Event) (answer : Except Fault Unit) : Callback :=
  match c, answer with
  | channel c, .ok _ => channel { c with buffer := c.buffer ++ [event] }
  | channel c, .error _ => channel c
  | scripted c, _ => scripted { c with calls := c.calls ++ [event] }

theorem Callback.channel_send (c : Channel Event) (event : Event) :
    channel (c.send event).2 = (channel c).after event (c.send event).1 := by
  unfold Channel.send
  split
  · rfl
  · split <;> rfl

namespace World
variable {i : Nat} {w w' : World} {xs : List Exchange} {index : Nat}

/-! What is said to a callback reaches no other one. -/

theorem callbacks_fireAll (hooks : List DeathHook) (w : World) :
    (w.fireAll hooks).callbacks = w.callbacks := by
  induction hooks generalizing w with
  | nil => rfl
  | cons hook rest ih => exact ih (w.fire hook)

theorem callbacks_link (index : Nat) (hook : DeathHook) (w : World) :
    (w.link index hook).2.callbacks = w.callbacks := by
  unfold link
  split
  · rfl
  · rfl
  · exact callbacks_fireAll _ _

theorem callbacks_unlink (index l : Nat) (w : World) :
    (w.unlink index l).2.callbacks = w.callbacks := by
  unfold unlink
  split <;> rfl

theorem notify_self (index : Nat) (event : Event) (w : World) :
    (w.notify index event).2.callbacks[index]? =
      (w.callbacks[index]?).map (·.after event (w.notify index event).1) := by
  unfold notify
  cases there : w.callbacks[index]? with
  | none => exact there
  | some callback =>
    cases callback with
    | channel c =>
      exact (getElem?_set_of_some there _).trans (congrArg some (Callback.channel_send c event))
    | scripted c => exact getElem?_set_of_some there _

theorem notify_other {other : Nat} (apart : index ≠ other) (event : Event) (w : World) :
    (w.notify index event).2.callbacks[other]? = w.callbacks[other]? := by
  unfold notify
  split
  · rfl
  · exact List.getElem?_set_ne apart
  · exact List.getElem?_set_ne apart

/-- A callback changes by what it is told and by nothing else. -/
theorem plays_told (plays : (host i).Plays xs w w') (index : Nat) :
    w'.callbacks[index]? = (w.callbacks[index]?).map fun c =>
      (told index xs).foldl (fun c said => c.after said.1 said.2) c := by
  induction plays with
  | nil => exact Option.map_id'.symm
  | @link peer generation answer xs s t u call rest ih =>
    have same := callbacks_link peer.index ⟨i, generation⟩ s
    rw [show s.link peer.index ⟨i, generation⟩ = (answer, t) from call] at same
    rw [ih, same, told_link]
  | @unlink peer l answer xs s t u call rest ih =>
    have same := callbacks_unlink peer.index l s
    rw [show s.unlink peer.index l = (answer, t) from call] at same
    rw [ih, same, told_unlink]
  | @notify callback event answer xs s t u call rest ih =>
    change s.notify callback.index event = (answer, t) at call
    by_cases own : callback.index = index
    · subst own
      have after := notify_self callback.index event s
      rw [call] at after
      rw [ih, after, Option.map_map, told_notify_self]
      rfl
    · have same := notify_other own event s
      rw [call] at same
      rw [ih, same, told_notify_other own]
  | log rest ih => exact ih

end World

/-- What a failed attempt says to its own callback. -/
inductive Registry.Excuses (r : Registry) (q : Request) : List Told → Prop where
  | unlinked : Excuses r q []
  | unheard (fault : Fault) : Excuses r q [(.registerSuccess, .error fault)]
  | occupied {active : Subscription} (answer : Except Fault Unit)
      (occupied : r.current = some active) :
      Excuses r q [(.registerFailed (active.rejection q), answer)]

theorem Registry.Subscribes.told {r r' : Registry} {q : Request} {xs : List Exchange}
    (course : r.Subscribes q xs false r') :
    (∀ index, index ≠ q.callback.index → told index xs = []) ∧
      r.Excuses q (told q.callback.index xs) := by
  cases course with
  | rejected answer occupied =>
    refine ⟨fun index other => by simp [told_notify_other (Ne.symm other)], ?_⟩
    rw [told_log, told_notify_self, told_faultEntries]
    exact .occupied answer occupied
  | linkFailed => exact ⟨fun _ _ => rfl, .unlinked⟩
  | successNotSent =>
    refine ⟨fun index other => by simp [told_notify_other (Ne.symm other)], ?_⟩
    rw [told_link, told_notify_self, told_log, told_unlink, told_faultEntries]
    exact .unheard _

namespace World
variable {i : Nat} {s : Station} {q : Request} {xs : List Exchange} {r : Registry} {w w' : World}

/-- At most a link number of one peer is used up. -/
theorem peers_of_failed (guarded : Guarded w.stations w.peers)
    (course : s.registry.Subscribes q xs false r) (plays : (host i).Plays xs w w') :
    w'.peers.length = w.peers.length ∧
      ∀ (index : Nat) (p : InProcessPeer DeathHook), w.peers[index]? = some (.inProcess p) →
        ∃ nextLink, w'.peers[index]? = some (.inProcess { p with nextLink }) := by
  have inProcess := inProcess_of_guarded guarded
  have same (unmoved : w'.peers = w.peers) : w'.peers.length = w.peers.length ∧
      ∀ (index : Nat) (p : InProcessPeer DeathHook), w.peers[index]? = some (.inProcess p) →
        ∃ nextLink, w'.peers[index]? = some (.inProcess { p with nextLink }) :=
    ⟨congrArg List.length unmoved, fun index p there => ⟨p.nextLink, unmoved ▸ there⟩⟩
  cases course with
  | rejected => exact same (plays_quiet plays (by simp))
  | linkFailed => exact same (plays_quiet (plays_unlinkable inProcess plays) (by simp))
  | successNotSent link fault answer vacant =>
    obtain ⟨p, there, alive, rfl, left⟩ := plays_retracted inProcess plays (by simp)
    obtain ⟨_, ⟨⟩, warns⟩ := guarded.warns _ _ there
    rw [InProcessPeer.unlink_link alive warns.below, List.set_set] at left
    refine ⟨by rw [left, List.length_set], ?_⟩
    intro index other here
    rw [left]
    by_cases own : q.peer.index = index
    · subst own
      obtain ⟨⟩ := there.symm.trans here
      exact ⟨_, getElem?_set_of_some there _⟩
    · exact ⟨other.nextLink, by rw [List.getElem?_set_ne own, here]⟩

/-! The death of a peer posts what it would have posted without the attempt. -/

theorem inboxes_setRegistry (i : Nat) (r : Registry) (w : World) :
    (w.setRegistry i r).stations.map Station.inbox = w.stations.map Station.inbox := by
  apply List.ext_getElem?
  intro j
  simp only [setRegistry, modifyStation, List.getElem?_map, List.getElem?_modify, Option.map_eq_map,
    Option.map_map]
  refine congrArg (Option.map · _) (funext fun s => ?_)
  by_cases own : i = j <;> simp [own]

theorem inboxes_kill (guarded : Guarded w.stations w.peers)
    (stations : w'.stations = (w.setRegistry i r).stations)
    (known : w'.peers.length = w.peers.length)
    (kept : ∀ (index : Nat) (p : InProcessPeer DeathHook), w.peers[index]? = some (.inProcess p) →
      ∃ nextLink, w'.peers[index]? = some (.inProcess { p with nextLink })) (index : Nat) :
    (w'.kill index).stations.map Station.inbox = (w.kill index).stations.map Station.inbox := by
  have unmoved : w'.stations.map Station.inbox = w.stations.map Station.inbox := by
    rw [stations, inboxes_setRegistry]
  cases there : w.peers[index]? with
  | none =>
    have absent : w'.peers[index]? = none := by
      rw [List.getElem?_eq_none_iff, known]
      exact List.getElem?_eq_none_iff.mp there
    simpa only [kill, there, absent] using unmoved
  | some found =>
    obtain ⟨p, rfl, _⟩ := guarded.warns index found there
    obtain ⟨nextLink, there'⟩ := kept index p there
    cases alive : p.alive with
    | false => rwa [kill_dead there alive, kill_dead there' alive]
    | true =>
      rw [kill_alive there alive, kill_alive there' alive, stations_dies, stations_dies, stations,
        ← fireAll_stations, ← fireAll_stations, fireAll_setRegistry, inboxes_setRegistry]

end World

namespace World
variable {i : Nat} {s : Station} {q : Request} {w w' : World}

/-- What can stand in the way of an attempt: the slot is taken, there is no live peer to link to, or
the callback does not take the acknowledgement. -/
inductive Obstacle (w : World) (r : Registry) (q : Request) : Prop where
  | occupied {active : Subscription} (occupied : r.current = some active) : Obstacle w r q
  | dead (vacant : r.current = none) (dead : ∀ p : InProcessPeer DeathHook,
      w.peers[q.peer.index]? = some (.inProcess p) → p.alive = false) : Obstacle w r q
  | unheard {p : InProcessPeer DeathHook} {fault : Fault} (vacant : r.current = none)
      (there : w.peers[q.peer.index]? = some (.inProcess p)) (alive : p.alive = true)
      (refused : (w.notify q.callback.index .registerSuccess).1 = .error fault) : Obstacle w r q

/-- What is the same in a world before and after a failed attempt, and what little is not. -/
structure LeavesNothing (i : Nat) (s : Station) (q : Request) (w w' : World) : Prop where
  stations : w'.stations = w.stations.set i { s with registry := s.registry.attempted }
  shown : s.registry.attempted.current = s.registry.current ∧
    s.registry.attempted.cycles = s.registry.cycles ∧
    s.registry.attempted.names = s.registry.names ∧
    s.registry.attempted.frequencies = s.registry.frequencies ∧
    s.registry.attempted.snapshot = s.registry.snapshot ∧
    s.registry.attempted.dump = s.registry.dump
  unqueued : w'.stations.map Station.inbox = w.stations.map Station.inbox
  known : w'.peers.length = w.peers.length
  kept : ∀ (index : Nat) (p : InProcessPeer DeathHook), w.peers[index]? = some (.inProcess p) →
    ∃ nextLink, w'.peers[index]? = some (.inProcess { p with nextLink })
  others : ∀ index : Nat, index ≠ q.callback.index → w'.callbacks[index]? = w.callbacks[index]?
  own : ∀ c : Channel Event, w.callbacks[q.callback.index]? = some (.channel c) →
    w'.callbacks[q.callback.index]? = some (.channel c) ∨
      ∃ active, s.registry.current = some active ∧ w'.callbacks[q.callback.index]? =
        some (.channel { c with buffer := c.buffer ++ [.registerFailed (active.rejection q)] })
  /-- A peer that is killed right away posts what it would have posted without the attempt. -/
  killed : ∀ index : Nat,
    (w'.kill index).stations.map Station.inbox = (w.kill index).stations.map Station.inbox
  /-- Whatever happens later, no notice is of the attempt that used up this generation. -/
  past : s.registry.current = none → ∀ later, ReflTransGen Happens w' later →
    ∀ t, later.stations[i]? = some t → s.registry.nextGeneration ∉ t.inbox

theorem perform_subscribe (there : w.stations[i]? = some s) (q : Request) :
    ∃ xs r w₁, s.registry.Subscribes q xs (w.perform i (·.subscribe q)).1 r ∧
      (host i).Plays xs w w₁ ∧ (w.perform i (·.subscribe q)).2 = w₁.setRegistry i r := by
  have path := path_run (host i).toCollaborators (s.registry.subscribe q) w
  have plays := Collaborators.plays_exchanges (host i).toCollaborators (s.registry.subscribe q) w
  rw [perform, registry_eq there]
  exact ⟨_, _, _, Registry.path_subscribe.mp path, plays, rfl⟩

/-- A peer that does not grant a link is not alive. -/
theorem dead_of_unlinkable {peer : PeerRef} {generation : Nat} {fault : Fault}
    {xs : List Exchange} {p : InProcessPeer DeathHook}
    (plays : (host i).Plays (.link peer generation (.error fault) :: xs) w w')
    (there : w.peers[peer.index]? = some (.inProcess p)) : p.alive = false := by
  cases plays with
  | link call rest =>
    change w.link peer.index ⟨i, generation⟩ = _ at call
    rw [link_inProcess there, Prod.mk.injEq] at call
    apply Bool.eq_false_iff.mpr
    intro alive
    simp [InProcessPeer.link, alive] at call

theorem notify_setPeer (index k : Nat) (event : Event) (peer : Peer) (w : World) :
    ((w.setPeer k peer).notify index event).1 = (w.notify index event).1 := by
  have callbacks : (w.setPeer k peer).callbacks = w.callbacks := rfl
  unfold notify
  rw [callbacks]
  split <;> rfl

theorem fails_iff (guarded : Guarded w.stations w.peers) (there : w.stations[i]? = some s)
    (q : Request) :
    (w.perform i (·.subscribe q)).1 = false ↔ Obstacle w s.registry q := by
  have inProcess := inProcess_of_guarded guarded
  obtain ⟨xs, r, w₁, course, plays, _⟩ := perform_subscribe there q
  generalize (w.perform i (·.subscribe q)).1 = accepted at course
  cases course with
  | rejected answer occupied => exact iff_of_true rfl (.occupied occupied)
  | linkFailed fault vacant =>
    exact iff_of_true rfl (.dead vacant fun p => dead_of_unlinkable plays)
  | successNotSent link fault answer vacant =>
    obtain ⟨p, there, alive, rfl, rest⟩ := plays_linked inProcess plays
    cases rest with
    | notify call rest =>
      have refused := (notify_setPeer _ _ _ _ w).symm.trans (congrArg Prod.fst call)
      exact iff_of_true rfl (.unheard vacant there alive refused)
  | admitted link vacant =>
    refine iff_of_false nofun ?_
    obtain ⟨p, there, alive, rfl, rest⟩ := plays_linked inProcess plays
    cases rest with
    | notify call rest =>
      have heard := (notify_setPeer _ _ _ _ w).symm.trans (congrArg Prod.fst call)
      rintro (occupied | ⟨_, dead⟩ | ⟨_, _, _, refused⟩)
      · rw [vacant] at occupied
        contradiction
      · rw [dead p there] at alive
        contradiction
      · rw [heard] at refused
        contradiction

/-- The generation of an attempt that found the slot empty is past. -/
theorem pastAt_attempted (guarded : Guarded w.stations w.peers) (there : w.stations[i]? = some s)
    (vacant : s.registry.current = none)
    (stations : w'.stations = w.stations.set i { s with registry := s.registry.attempted }) :
    w'.PastAt i s.registry.nextGeneration := by
  refine ⟨_, stations ▸ getElem?_set_of_some there _, ?_⟩
  rw [Registry.attempted_vacant vacant]
  constructor
  · intro queued
    exact Nat.lt_irrefl _ ((guarded.watches i s there).queued _ queued)
  · intro active held
    rw [Registry.current_advanced, vacant] at held
    contradiction
  · intro _
    exact Nat.lt_succ_self _

theorem leavesNothing (run : ReflTransGen Happens {} w) (there : w.stations[i]? = some s)
    (opened : s.isOpen = true) (failed : (w.perform i (·.subscribe q)).1 = false) :
    LeavesNothing i s q w (w.perform i (·.subscribe q)).2 := by
  have guarded := happens_guarded run
  have reached : ReflTransGen Happens {} (w.perform i (·.subscribe q)).2 :=
    run.tail (.move (.operate (.subscribe q) there opened))
  obtain ⟨xs, r, w₁, course, plays, after⟩ := perform_subscribe there q
  rw [failed] at course
  rw [after] at reached ⊢
  obtain rfl := course.attempted
  obtain ⟨known, kept⟩ := peers_of_failed guarded course plays
  obtain ⟨spared, excuses⟩ := course.told
  have same := plays_stations plays (inProcess_of_guarded guarded)
  have unmoved : (w₁.setRegistry i s.registry.attempted).stations =
      (w.setRegistry i s.registry.attempted).stations :=
    congrArg (List.modify · i _) same
  have stations := unmoved.trans
    (stations_modifyStation (fun s' => { s' with registry := s.registry.attempted }) there)
  refine {
    stations
    shown := ?_
    unqueued := by rw [unmoved, inboxes_setRegistry]
    known
    kept
    others := ?_
    own := ?_
    killed := inboxes_kill guarded unmoved known kept
    past := ?_ }
  · unfold Registry.attempted
    split <;> exact ⟨rfl, rfl, rfl, rfl, rfl, rfl⟩
  · intro index other
    have left := plays_told plays index
    rw [spared index other] at left
    exact left.trans Option.map_id'
  · intro c channel
    have left := plays_told plays q.callback.index
    rw [channel] at left
    generalize told q.callback.index xs = said at left excuses
    cases excuses with
    | unlinked | unheard => exact .inl left
    | occupied answer held =>
      cases answer with
      | ok => exact .inr ⟨_, held, left⟩
      | error => exact .inl left
  · intro vacant later happens t met queued
    obtain ⟨t', met', past⟩ :=
      (pastAt_attempted guarded there vacant stations).happens reached happens
    obtain rfl := Option.some.inj (met.symm.trans met')
    exact past.unqueued queued

/-- An attempt fails exactly where something stands in its way, and then leaves nothing behind: what
the registry shows, all notices, and all hooks of all peers are as before, even where other
registries have hooks there too; no callback was told anything, but for the word to the one that
came with the attempt that the slot is taken. Neither the death of a peer nor anything else that
happens later brings a notice of the attempt. -/
theorem failed_attempt_leaves_nothing (run : ReflTransGen Happens {} w)
    (there : w.stations[i]? = some s) (opened : s.isOpen = true) (q : Request) :
    ((w.perform i (·.subscribe q)).1 = false ↔ Obstacle w s.registry q) ∧
      ((w.perform i (·.subscribe q)).1 = false →
        LeavesNothing i s q w (w.perform i (·.subscribe q)).2) :=
  ⟨fails_iff (happens_guarded run) there q, leavesNothing run there opened⟩

/-- One registry holds the peer and refuses a rival; another, which shares the peer, cannot be
acknowledged on a channel without room, and has no luck with a dead peer. -/
theorem failed_attempt_leaves_nothing_shared :
    let ssid : Ssid := ⟨[0x6E, 0x65, 0x74], by decide⟩
    let q := Request.forOne ⟨1⟩ ⟨0, "LocalPeer(app)"⟩ ⟨0, channelLabel 1⟩ ssid
    let rival := Request.forOne ⟨2⟩ ⟨0, "LocalPeer(app)"⟩ ⟨0, channelLabel 1⟩ ssid
    let deaf := Request.forOne ⟨2⟩ ⟨0, "LocalPeer(app)"⟩ ⟨1, channelLabel 2⟩ ssid
    let late := Request.forOne ⟨2⟩ ⟨1, "LocalPeer(gone)"⟩ ⟨0, channelLabel 1⟩ ssid
    let holder : Station := ⟨⟨some (q.admitted 1 1), 0, 2⟩, [], true⟩
    ∃ w : World, ReflTransGen Happens {} w ∧ w.stations = [holder, {}] ∧
      w.peers.map Peer.hookCount = [1, 0] ∧
      Obstacle w holder.registry rival ∧
      LeavesNothing 0 holder rival w (w.perform 0 (·.subscribe rival)).2 ∧
      Obstacle w {} deaf ∧ LeavesNothing 1 {} deaf w (w.perform 1 (·.subscribe deaf)).2 ∧
      Obstacle w {} late ∧ LeavesNothing 1 {} late w (w.perform 1 (·.subscribe late)).2 ∧
      ((w.perform 1 (·.subscribe deaf)).2.kill 0).stations.map Station.inbox = [[1], []] := by
  intro ssid q rival deaf late holder
  let made := ((((((({} : World).addStation.2.addStation.2).addPeer
    (.inProcess { name := "app" })).2.addPeer (.inProcess { name := "gone" })).2.addChannel
      4).2.addChannel 0).2.kill 1)
  have step {w w' : World} (run : ReflTransGen Happens {} w) (move : Move w w') :
      ReflTransGen Happens {} w' := run.tail (.move move)
  have opened : ReflTransGen Happens {} made :=
    step (step (step (step (step (step (step .refl (.station _)) (.station _)) (.peer "app" _))
      (.peer "gone" _)) (.channel 4 _)) (.channel 0 _)) (.kill 1 _)
  have run : ReflTransGen Happens {} (made.operate 0 (.subscribe q)) :=
    step opened (.operate (i := 0) (s := {}) (.subscribe q) rfl rfl)
  have taken := failed_attempt_leaves_nothing run (i := 0) (s := holder) rfl rfl rival
  have unheard := failed_attempt_leaves_nothing run (i := 1) (s := {}) rfl rfl deaf
  have dead := failed_attempt_leaves_nothing run (i := 1) (s := {}) rfl rfl late
  have left := unheard.2 rfl
  exact ⟨_, run, rfl, rfl, taken.1.mp rfl, taken.2 rfl, unheard.1.mp rfl, left, dead.1.mp rfl,
    dead.2 rfl, left.killed 0⟩

end World
end ScanSlot
