import ScanSlot.Proofs.World.Vigil

/-! The table of a peer that several registries share. While the peer lives, its hooks are those of
the registries whose slot it holds, one each under a link of its own; they are gone when it is dead
and when all registries are closed. -/
namespace ScanSlot

open Relation (ReflTransGen)

/-- The subscription in the slot is on this peer. -/
def Station.isOn (index : Nat) (s : Station) : Bool :=
  s.registry.current.any (·.peer.index = index)

theorem Station.isOn_iff {index : Nat} {s : Station} :
    s.isOn index = true ↔
      ∃ active, s.registry.current = some active ∧ active.peer.index = index := by
  simp only [isOn, Option.any_eq_true, decide_eq_true_eq]

/-- The positions of the stations whose subscription is on a peer. -/
def holders (index : Nat) (stations : List Station) : List Nat :=
  (stations.zipIdx.filter (·.1.isOn index)).map Prod.snd

theorem length_holders (index : Nat) (stations : List Station) :
    (holders index stations).length = stations.countP (Station.isOn index) := by
  have counted := List.countP_map (p := Station.isOn index) (f := Prod.fst) (l := stations.zipIdx)
  rw [List.zipIdx_map_fst] at counted
  rw [holders, List.length_map, counted, List.countP_eq_length_filter]
  rfl

theorem nodup_holders (index : Nat) (stations : List Station) :
    (holders index stations).Nodup := by
  have positions : (stations.zipIdx.map Prod.snd).Nodup := by
    rw [List.zipIdx_map_snd]
    exact List.nodup_range'
  exact positions.sublist (List.filter_sublist.map _)

theorem mem_holders {index i : Nat} {stations : List Station} :
    i ∈ holders index stations ↔
      ∃ s active, stations[i]? = some s ∧ s.registry.current = some active ∧
        active.peer.index = index := by
  simp only [holders, List.mem_map, List.mem_filter, Prod.exists, exists_eq_right,
    List.mem_zipIdx_iff_getElem?, Station.isOn_iff]
  constructor
  · rintro ⟨s, there, active, held, on⟩
    exact ⟨s, active, there, held, on⟩
  · rintro ⟨s, active, there, held, on⟩
    exact ⟨s, there, active, held, on⟩

theorem lookup_of_mem {α : Type} {l : List (Nat × α)} {k : Nat} {a : α}
    (distinct : (l.map Prod.fst).Nodup) (here : (k, a) ∈ l) : l.lookup k = some a := by
  obtain ⟨before, after, rfl⟩ := List.append_of_mem here
  rw [List.map_append, List.map_cons, List.nodup_append] at distinct
  refine List.lookup_eq_some_iff.mpr ⟨before, after, rfl, fun entry early => ?_⟩
  have other := distinct.2.2 entry.1 (List.mem_map_of_mem early) k List.mem_cons_self
  simpa using Ne.symm other

namespace InProcessPeer
variable {stations : List Station} {index : Nat} {p : InProcessPeer DeathHook}

/-- The hooks of a live peer belong to the stations that hold it, one each. -/
theorem Warns.stations_perm (warns : p.Warns stations index) (alive : p.alive = true) :
    (p.hooks.map (·.2.station)).Perm (holders index stations) := by
  have own : (p.hooks.map (·.2.station)).Nodup := by
    refine List.Nodup.map_on ?_ warns.distinct.of_map
    rintro ⟨l, hook⟩ first ⟨l', hook'⟩ second same
    obtain ⟨s, there, bond⟩ := (warns.bound alive _ _).mp first
    obtain ⟨s', there', bond'⟩ := (warns.bound alive _ _).mp second
    obtain ⟨j, g⟩ := hook
    obtain ⟨j', g'⟩ := hook'
    obtain rfl : j = j' := same
    obtain rfl := Option.some.inj (there.symm.trans there')
    have tied := Option.some.inj (bond.symm.trans bond')
    exact congrArg (fun b => (b.link, DeathHook.mk j b.generation)) tied
  refine (List.perm_ext_iff_of_nodup own (nodup_holders index stations)).mpr fun j => ?_
  simp only [List.mem_map, Prod.exists, mem_holders, warns.bound alive]
  constructor
  · rintro ⟨l, hook, ⟨s, there, bond⟩, rfl⟩
    obtain ⟨active, held, tied⟩ := Option.map_eq_some_iff.mp bond
    exact ⟨s, active, there, held, congrArg Bond.peer tied⟩
  · rintro ⟨s, active, there, held, rfl⟩
    exact ⟨active.link, ⟨j, active.generation⟩, ⟨s, there, Registry.bond_of_current held⟩, rfl⟩

theorem Warns.hookCount_eq (warns : p.Warns stations index) :
    p.hookCount = if p.alive then stations.countP (Station.isOn index) else 0 := by
  cases alive : p.alive with
  | true =>
    have counted := (warns.stations_perm alive).length_eq
    rwa [List.length_map, length_holders] at counted
  | false => exact congrArg List.length (warns.spent alive)

end InProcessPeer

namespace World

/-- One thing that happens where callbacks may be of any kind: what moves the registries and their
peers is known, and callbacks come, go and change as they like. -/
inductive Happens : World → World → Prop where
  | move {w w' : World} (move : Move w w') : Happens w w'
  | callbacks (callbacks : List Callback) (w : World) : Happens w { w with callbacks }

theorem happens_guarded {w : World} (run : ReflTransGen Happens {} w) :
    Guarded w.stations w.peers := by
  induction run with
  | refl => exact guarded_nil
  | tail _ happens ih =>
    cases happens with
    | move move => exact guarded_change ih (move_change ih move)
    | callbacks => exact ih

/-- What the tables of peers hold. -/
structure Accounted (w : World) : Prop where
  /-- A live peer has a hook for each registry whose subscription is on it, a dead one has none. -/
  counted : ∀ (index : Nat) (peer : Peer), w.peers[index]? = some peer →
    ∃ p, peer = .inProcess p ∧
      p.hookCount = if p.alive then w.stations.countP (Station.isOn index) else 0
  /-- Under the link of a subscription its live peer keeps the hook of that registry. -/
  mapped : ∀ (i : Nat) (s : Station) (active : Subscription), w.stations[i]? = some s →
    s.registry.current = some active →
    ∃ p, w.peers[active.peer.index]? = some (.inProcess p) ∧
      (p.alive = true → p.hooks.lookup active.link = some ⟨i, active.generation⟩)
  /-- No two registries have the same link to a live peer. -/
  distinct : ∀ (i j : Nat) (s t : Station) (a b : Subscription) (p : InProcessPeer DeathHook),
    w.stations[i]? = some s → w.stations[j]? = some t → s.registry.current = some a →
    t.registry.current = some b → a.peer.index = b.peer.index →
    w.peers[a.peer.index]? = some (.inProcess p) → p.alive = true → a.link = b.link → i = j
  cleared : (∀ s ∈ w.stations, s.isOpen = false) → ∀ peer ∈ w.peers, peer.hookCount = 0

theorem mapped_of_guarded {w : World} (guarded : Guarded w.stations w.peers) {i : Nat} {s : Station}
    {active : Subscription} (there : w.stations[i]? = some s)
    (held : s.registry.current = some active) :
    ∃ p, w.peers[active.peer.index]? = some (.inProcess p) ∧
      (p.alive = true → p.hooks.lookup active.link = some ⟨i, active.generation⟩) := by
  have bond := Registry.bond_of_current held
  obtain ⟨p, found, _⟩ := (guarded.watches i s there).noticed _ bond
  obtain ⟨_, ⟨⟩, warns⟩ := guarded.warns _ _ found
  refine ⟨p, found, fun alive => ?_⟩
  exact lookup_of_mem warns.distinct ((warns.bound alive _ _).mpr ⟨s, there, bond⟩)

/-- At any point of any run the tables of all peers are accounted for. -/
theorem hooks_accounted {w : World} (run : ReflTransGen Happens {} w) : Accounted w := by
  have guarded := happens_guarded run
  have counted (index : Nat) (peer : Peer) (there : w.peers[index]? = some peer) :
      ∃ p, peer = .inProcess p ∧
        p.hookCount = if p.alive then w.stations.countP (Station.isOn index) else 0 := by
    obtain ⟨p, rfl, warns⟩ := guarded.warns index peer there
    exact ⟨p, rfl, warns.hookCount_eq⟩
  refine ⟨counted, ?mapped, ?distinct, ?cleared⟩
  case mapped =>
    intro i s active there held
    exact mapped_of_guarded guarded there held
  case distinct =>
    intro i j s t a b p there there' held held' on found alive link
    obtain ⟨_, known, mapped⟩ := mapped_of_guarded guarded there held
    obtain ⟨_, known', mapped'⟩ := mapped_of_guarded guarded there' held'
    obtain ⟨⟩ := found.symm.trans known
    obtain ⟨⟩ := (on ▸ found).symm.trans known'
    have same := (mapped alive).symm.trans (link ▸ mapped' alive)
    exact congrArg DeathHook.station (Option.some.inj same)
  case cleared =>
    intro closed peer here
    obtain ⟨index, there⟩ := List.mem_iff_getElem?.mp here
    obtain ⟨p, rfl, count⟩ := counted index peer there
    have nobody : w.stations.countP (Station.isOn index) = 0 := by
      rw [List.countP_eq_zero]
      intro s member on
      obtain ⟨i, met⟩ := List.mem_iff_getElem?.mp member
      obtain ⟨active, held, _⟩ := Station.isOn_iff.mp on
      have opened := (guarded.watches i s met).opened _ (Registry.bond_of_current held)
      rw [closed s member] at opened
      contradiction
    rw [nobody, ite_self] at count
    exact count

/-- Two registries share a peer, though one of them cannot be acknowledged at first; then both are
closed. -/
theorem hooks_accounted_shared :
    let ssid : Ssid := ⟨[0x6E, 0x65, 0x74], by decide⟩
    let q := Request.forOne ⟨1⟩ ⟨0, "LocalPeer(app)"⟩ ⟨0, channelLabel 1⟩ ssid
    let deaf := Request.forOne ⟨2⟩ ⟨0, "LocalPeer(app)"⟩ ⟨1, channelLabel 2⟩ ssid
    let made := ((((({} : World).addStation.2.addStation.2).addPeer
      (.inProcess { name := "app" })).2.addChannel 4).2.addChannel 0).2
    ∃ w₁ w₂ w₃ w₄ w₅ : World,
      made.operate 0 (.subscribe q) = w₁ ∧ w₁.operate 1 (.subscribe deaf) = w₂ ∧
      w₂.operate 1 (.subscribe q) = w₃ ∧ w₃.operate 0 .close = w₄ ∧ w₄.operate 1 .close = w₅ ∧
      ReflTransGen Happens {} w₃ ∧ Accounted w₃ ∧ w₃.peers.map Peer.hookCount = [2] ∧
      w₃.stations.countP (Station.isOn 0) = 2 ∧
      ReflTransGen Happens {} w₅ ∧ ∀ peer ∈ w₅.peers, peer.hookCount = 0 := by
  intro ssid q deaf made
  let world (s t : Station) (hooks : List (Nat × DeathHook)) (nextLink : Nat) (told : List Event)
      (journal : List LogEntry) : World :=
    ⟨[s, t], [.inProcess { name := "app", hooks, nextLink }],
      [.channel { capacity := 4, buffer := told }, .channel { capacity := 0 }], 2, journal⟩
  let one : Station := ⟨⟨some (q.admitted 1 1), 0, 2⟩, [], true⟩
  let two : Station := ⟨⟨some (q.admitted 3 2), 0, 3⟩, [], true⟩
  let journal : List LogEntry :=
    [.activated ⟨1⟩ 1, .successNotSent ⟨2⟩ .callbackBufferFull, .activated ⟨1⟩ 2]
  let w₁ := world one {} [(1, ⟨0, 1⟩)] 2 [.registerSuccess] (journal.take 1)
  let w₂ := world one ⟨⟨none, 0, 2⟩, [], true⟩ [(1, ⟨0, 1⟩)] 3 [.registerSuccess] (journal.take 2)
  let w₃ := world one two [(1, ⟨0, 1⟩), (3, ⟨1, 2⟩)] 4 [.registerSuccess, .registerSuccess] journal
  let w₄ := world ⟨⟨none, 0, 2⟩, [], false⟩ two [(3, ⟨1, 2⟩)] 4 [.registerSuccess, .registerSuccess]
    journal
  let w₅ := world ⟨⟨none, 0, 2⟩, [], false⟩ ⟨⟨none, 0, 3⟩, [], false⟩ [] 4
    [.registerSuccess, .registerSuccess] journal
  have step {w w' : World} (run : ReflTransGen Happens {} w) (move : Move w w') :
      ReflTransGen Happens {} w' := run.tail (.move move)
  have opened : ReflTransGen Happens {} made :=
    step (step (step (step (step .refl (.station _)) (.station _)) (.peer "app" _))
      (.channel 4 _)) (.channel 0 _)
  have run₁ : ReflTransGen Happens {} w₁ :=
    step opened (.operate (i := 0) (s := {}) (.subscribe q) rfl rfl)
  have run₂ : ReflTransGen Happens {} w₂ :=
    step run₁ (.operate (i := 1) (s := {}) (.subscribe deaf) rfl rfl)
  have run₃ : ReflTransGen Happens {} w₃ :=
    step run₂ (.operate (i := 1) (s := ⟨⟨none, 0, 2⟩, [], true⟩) (.subscribe q) rfl rfl)
  have run₄ : ReflTransGen Happens {} w₄ :=
    step run₃ (.operate (i := 0) (s := one) .close rfl rfl)
  have run₅ : ReflTransGen Happens {} w₅ :=
    step run₄ (.operate (i := 1) (s := two) .close rfl rfl)
  exact ⟨w₁, w₂, w₃, w₄, w₅, rfl, rfl, rfl, rfl, rfl, run₃, hooks_accounted run₃, rfl, rfl, run₅,
    (hooks_accounted run₅).cleared (by simp [w₅, world])⟩

end World
end ScanSlot
