import ScanSlot.Proofs.World.Effect
import ScanSlot.Proofs.Peer.InProcess
import Mathlib.Data.List.Nodup

/-! The invariant that keeps dead peers out of the slot. Hooks at a live peer and bonds in the slots
are one and the same, and the death of a peer turns each of its hooks into one notice. -/
namespace ScanSlot

/-- The hook was linked for the subscription that is now in the slot of its station. -/
def Binds (stations : List Station) (index link : Nat) (hook : DeathHook) : Prop :=
  ∃ s, stations[hook.station]? = some s ∧
    s.registry.bond = some ⟨index, link, hook.generation⟩

/-- A bonded station hears of the death of its peer once, and not before. -/
structure Station.Watches (peers : List Peer) (s : Station) : Prop where
  queued : ∀ g ∈ s.inbox, g < s.registry.nextGeneration
  used : ∀ b, s.registry.bond = some b → b.generation < s.registry.nextGeneration
  opened : ∀ b, s.registry.bond = some b → s.isOpen = true
  noticed : ∀ b, s.registry.bond = some b → ∃ p, peers[b.peer]? = some (.inProcess p) ∧
    s.inbox.count b.generation = if p.alive then 0 else 1

/-- A live peer keeps exactly the hooks that are bound, a dead one keeps none. -/
structure InProcessPeer.Warns (stations : List Station) (index : Nat)
    (p : InProcessPeer DeathHook) : Prop where
  distinct : (p.hooks.map Prod.fst).Nodup
  below : ∀ entry ∈ p.hooks, entry.1 < p.nextLink
  bound : p.alive = true → ∀ link hook, (link, hook) ∈ p.hooks ↔ Binds stations index link hook
  spent : p.alive = false → p.hooks = []

structure Guarded (stations : List Station) (peers : List Peer) : Prop where
  watches : ∀ (i : Nat) (s : Station), stations[i]? = some s → Station.Watches peers s
  warns : ∀ (index : Nat) (peer : Peer), peers[index]? = some peer →
    ∃ p, peer = .inProcess p ∧ p.Warns stations index

theorem guarded_nil : Guarded [] [] where
  watches _ _ there := by simp at there
  warns _ _ there := by simp at there

namespace InProcessPeer
variable {p : InProcessPeer DeathHook}

theorem warns_new (stations : List Station) (index : Nat) (name : String)
    (unbound : ∀ link hook, ¬ Binds stations index link hook) :
    Warns stations index { name } where
  distinct := List.nodup_nil
  below _ here := absurd here List.not_mem_nil
  bound _ link hook :=
    ⟨fun here => absurd here List.not_mem_nil, fun binds => absurd binds (unbound link hook)⟩
  spent _ := rfl

theorem Warns.congr {stations stations' : List Station} {index : Nat}
    (warns : p.Warns stations index)
    (same : ∀ link hook, Binds stations' index link hook ↔ Binds stations index link hook) :
    p.Warns stations' index :=
  { warns with bound := fun alive link hook =>
      (warns.bound alive link hook).trans (same link hook).symm }

theorem Warns.link {stations stations' : List Station} {index : Nat} {hook : DeathHook}
    (warns : p.Warns stations index) (alive : p.alive = true)
    (added : ∀ l h, Binds stations' index l h ↔
      Binds stations index l h ∨ (l = p.nextLink ∧ h = hook)) :
    (p.link hook).2.Warns stations' index where
  distinct := by
    rw [hooks_link alive, List.map_append, List.nodup_append]
    refine ⟨warns.distinct, List.nodup_singleton _, fun l here l' last => ?_⟩
    obtain ⟨entry, kept, rfl⟩ := List.mem_map.mp here
    obtain rfl := List.mem_singleton.mp last
    exact Nat.ne_of_lt (warns.below entry kept)
  below entry here := by
    rw [hooks_link alive, List.mem_append, List.mem_singleton] at here
    rw [nextLink_link alive]
    rcases here with here | rfl
    · exact Nat.lt_succ_of_lt (warns.below entry here)
    · exact Nat.lt_succ_self _
  bound _ l h := by
    rw [hooks_link alive, List.mem_append, List.mem_singleton, Prod.mk.injEq, added,
      warns.bound alive]
  spent dead := by
    rw [alive_link, alive] at dead
    contradiction

theorem Warns.unlink {stations stations' : List Station} {index l : Nat}
    (warns : p.Warns stations index)
    (removed : p.alive = true → ∀ l' h, Binds stations' index l' h ↔
      Binds stations index l' h ∧ l' ≠ l) :
    (p.unlink l).2.Warns stations' index where
  distinct := by
    rw [hooks_unlink]
    exact warns.distinct.sublist (List.filter_sublist.map _)
  below entry here := by
    rw [hooks_unlink, List.mem_filter] at here
    rw [nextLink_unlink]
    exact warns.below entry here.1
  bound alive l' h := by
    rw [alive_unlink] at alive
    rw [hooks_unlink, List.mem_filter, removed alive, warns.bound alive]
    simp
  spent dead := by
    rw [alive_unlink] at dead
    rw [hooks_unlink, warns.spent dead]
    rfl

/-- No two hooks of a live peer are the same. -/
theorem Warns.nodup_hooks {stations : List Station} {index : Nat} (warns : p.Warns stations index)
    (alive : p.alive = true) : (p.hooks.map Prod.snd).Nodup := by
  refine List.Nodup.map_on ?_ warns.distinct.of_map
  rintro ⟨l, hook⟩ first ⟨l', _⟩ second rfl
  obtain ⟨s, there, bond⟩ := (warns.bound alive _ _).mp first
  obtain ⟨s', there', bond'⟩ := (warns.bound alive _ _).mp second
  obtain rfl := Option.some.inj (there.symm.trans there')
  have same := Option.some.inj (bond.symm.trans bond')
  exact congrArg (fun b => (b.link, hook)) same

end InProcessPeer

/-! One station changes, and at most one peer. -/

variable {stations : List Station} {peers peers' : List Peer} {i : Nat} {s s' : Station}

theorem binds_self (there : stations[i]? = some s) {index link generation : Nat} :
    Binds stations index link ⟨i, generation⟩ ↔
      s.registry.bond = some ⟨index, link, generation⟩ := by
  constructor
  · rintro ⟨t, same, bond⟩
    obtain rfl := Option.some.inj (there.symm.trans same)
    exact bond
  · intro bond
    exact ⟨s, there, bond⟩

theorem binds_set_self (there : stations[i]? = some s) {index link generation : Nat} :
    Binds (stations.set i s') index link ⟨i, generation⟩ ↔
      s'.registry.bond = some ⟨index, link, generation⟩ :=
  binds_self (getElem?_set_of_some there s')

theorem binds_set_other {index link : Nat} {hook : DeathHook} (other : hook.station ≠ i) :
    Binds (stations.set i s') index link hook ↔ Binds stations index link hook := by
  unfold Binds
  rw [List.getElem?_set_ne (Ne.symm other)]

theorem Station.Watches.alike (watches : s.Watches peers)
    (alike : ∀ (index : Nat) p, peers[index]? = some (.inProcess p) →
      ∃ p', peers'[index]? = some (.inProcess p') ∧ p'.alive = p.alive) :
    s.Watches peers' :=
  { watches with
    noticed := fun b bond => by
      obtain ⟨p, there, count⟩ := watches.noticed b bond
      obtain ⟨p', there', alive⟩ := alike b.peer p there
      exact ⟨p', there', by rw [alive, count]⟩ }

theorem alike_set {k : Nat} {p p' : InProcessPeer DeathHook}
    (there : peers[k]? = some (.inProcess p)) (alive : p'.alive = p.alive) (index : Nat)
    (q : InProcessPeer DeathHook) (found : peers[index]? = some (.inProcess q)) :
    ∃ q', (peers.set k (.inProcess p'))[index]? = some (.inProcess q') ∧ q'.alive = q.alive := by
  by_cases same : k = index
  · subst same
    obtain ⟨⟩ := there.symm.trans found
    exact ⟨p', getElem?_set_of_some there _, alive⟩
  · exact ⟨q, by rw [List.getElem?_set_ne same, found], rfl⟩

theorem Guarded.set (guarded : Guarded stations peers) {k : Nat}
    {p p' : InProcessPeer DeathHook} (there : peers[k]? = some (.inProcess p))
    (alive : p'.alive = p.alive) (watches : s'.Watches (peers.set k (.inProcess p')))
    (elsewhere : ∀ index link hook, index ≠ k →
      (Binds (stations.set i s') index link hook ↔ Binds stations index link hook))
    (warns : p'.Warns (stations.set i s') k) :
    Guarded (stations.set i s') (peers.set k (.inProcess p')) where
  watches j t here := by
    rcases getElem?_set_some here with ⟨_, rfl⟩ | ⟨_, here⟩
    · exact watches
    · exact (guarded.watches j t here).alike (alike_set there alive)
  warns index peer here := by
    rcases getElem?_set_some here with ⟨rfl, rfl⟩ | ⟨other, here⟩
    · exact ⟨p', rfl, warns⟩
    · obtain ⟨q, rfl, kept⟩ := guarded.warns index peer here
      exact ⟨q, rfl, kept.congr fun link hook => elsewhere index link hook (Ne.symm other)⟩

theorem Guarded.rebound (guarded : Guarded stations peers) (there : stations[i]? = some s)
    (bond : s'.registry.bond = s.registry.bond) (watches : s'.Watches peers) :
    Guarded (stations.set i s') peers where
  watches j t here := by
    rcases getElem?_set_some here with ⟨_, rfl⟩ | ⟨_, here⟩
    · exact watches
    · exact guarded.watches j t here
  warns index peer here := by
    obtain ⟨p, rfl, warns⟩ := guarded.warns index peer here
    refine ⟨p, rfl, ?_⟩
    apply warns.congr
    intro link hook
    obtain ⟨j, generation⟩ := hook
    by_cases own : j = i
    · subst own
      rw [binds_set_self there, binds_self there, bond]
    · exact binds_set_other own

theorem Guarded.idle (guarded : Guarded stations peers) (there : stations[i]? = some s)
    (bond : s'.registry.bond = s.registry.bond)
    (next : s.registry.nextGeneration ≤ s'.registry.nextGeneration)
    (queued : ∀ g ∈ s'.inbox, g ∈ s.inbox)
    (kept : ∀ b, s.registry.bond = some b →
      s'.isOpen = true ∧ s'.inbox.count b.generation = s.inbox.count b.generation) :
    Guarded (stations.set i s') peers := by
  have watched := guarded.watches i s there
  apply guarded.rebound there bond
  rw [← bond] at kept
  constructor
  · intro g here
    exact Nat.lt_of_lt_of_le (watched.queued g (queued g here)) next
  · intro b held
    exact Nat.lt_of_lt_of_le (watched.used b (bond ▸ held)) next
  · intro b held
    exact (kept b held).1
  · intro b held
    rw [(kept b held).2]
    exact watched.noticed b (bond ▸ held)

theorem Guarded.forgotten (guarded : Guarded stations peers) (there : stations[i]? = some s)
    (vacant : s.registry.bond = none) (bond : s'.registry.bond = none) (inbox : s'.inbox = []) :
    Guarded (stations.set i s') peers := by
  apply guarded.rebound there (bond.trans vacant.symm)
  constructor
  · rw [inbox]
    intro g here
    exact absurd here List.not_mem_nil
  all_goals
    intro b held
    rw [bond] at held
    contradiction

theorem Guarded.admitted {index : Nat} {p : InProcessPeer DeathHook}
    (guarded : Guarded stations peers) (here : stations[i]? = some s)
    (vacant : s.registry.bond = none) (opened : s'.isOpen = true)
    (there : peers[index]? = some (.inProcess p)) (alive : p.alive = true)
    (bond : s'.registry.bond = some ⟨index, p.nextLink, s.registry.nextGeneration⟩)
    (next : s'.registry.nextGeneration = s.registry.nextGeneration + 1)
    (inbox : s'.inbox = s.inbox) :
    Guarded (stations.set i s')
      (peers.set index (.inProcess (p.link ⟨i, s.registry.nextGeneration⟩).2)) := by
  have watched := guarded.watches i s here
  have unbound {k l g : Nat} : ¬ Binds stations k l ⟨i, g⟩ := by
    rw [binds_self here, vacant]
    exact nofun
  obtain ⟨_, ⟨⟩, warns⟩ := guarded.warns index _ there
  refine guarded.set there (p.alive_link _) ?_ ?_ (warns.link alive ?_)
  · constructor
    · intro g queued
      rw [inbox] at queued
      rw [next]
      exact Nat.lt_succ_of_lt (watched.queued g queued)
    · intro b held
      obtain rfl := Option.some.inj (bond.symm.trans held)
      rw [next]
      exact Nat.lt_succ_self _
    · intro _ _
      exact opened
    · intro b held
      obtain rfl := Option.some.inj (bond.symm.trans held)
      refine ⟨_, getElem?_set_of_some there _, ?_⟩
      rw [InProcessPeer.alive_link, alive, inbox]
      apply List.count_eq_zero.mpr
      intro queued
      exact Nat.lt_irrefl _ (watched.queued _ queued)
  · rintro k l ⟨j, g⟩ other
    by_cases own : j = i
    · subst own
      rw [binds_set_self here, bond, Option.some.injEq, Bond.mk.injEq]
      exact iff_of_false (fun same => other same.1.symm) unbound
    · exact binds_set_other own
  · rintro l ⟨j, g⟩
    by_cases own : j = i
    · subst own
      rw [binds_set_self here, bond, Option.some.injEq, Bond.mk.injEq, or_iff_right unbound,
        DeathHook.mk.injEq]
      constructor
      · rintro ⟨_, rfl, rfl⟩
        exact ⟨rfl, rfl, rfl⟩
      · rintro ⟨rfl, _, rfl⟩
        exact ⟨rfl, rfl, rfl⟩
    · rw [binds_set_other own]
      refine (or_iff_left ?_).symm
      rintro ⟨_, same⟩
      exact own (congrArg DeathHook.station same)

theorem Guarded.released {b : Bond} {p : InProcessPeer DeathHook}
    (guarded : Guarded stations peers) (here : stations[i]? = some s)
    (held : s.registry.bond = some b) (there : peers[b.peer]? = some (.inProcess p))
    (bond : s'.registry.bond = none)
    (next : s.registry.nextGeneration ≤ s'.registry.nextGeneration)
    (queued : ∀ g ∈ s'.inbox, g ∈ s.inbox) :
    Guarded (stations.set i s') (peers.set b.peer (.inProcess (p.unlink b.link).2)) := by
  have watched := guarded.watches i s here
  have unbound {k l g : Nat} : ¬ Binds (stations.set i s') k l ⟨i, g⟩ := by
    rw [binds_set_self here, bond]
    exact nofun
  obtain ⟨_, ⟨⟩, warns⟩ := guarded.warns b.peer _ there
  refine guarded.set there (p.alive_unlink _) ?_ ?_ (warns.unlink ?_)
  · constructor
    · intro g here
      exact Nat.lt_of_lt_of_le (watched.queued g (queued g here)) next
    all_goals
      intro b' held'
      rw [bond] at held'
      contradiction
  · rintro k l ⟨j, g⟩ other
    by_cases own : j = i
    · subst own
      apply iff_of_false unbound
      intro binds
      apply other
      rw [binds_self here, held] at binds
      exact congrArg Bond.peer (Option.some.inj binds).symm
    · exact binds_set_other own
  · rintro alive l ⟨j, g⟩
    by_cases own : j = i
    · subst own
      apply iff_of_false unbound
      intro binds
      apply binds.2
      have same := (binds_self here).mp binds.1
      rw [held] at same
      exact congrArg Bond.link (Option.some.inj same).symm
    · rw [binds_set_other own]
      refine (and_iff_left_of_imp fun binds same => own ?_).symm
      subst same
      have bound : Binds stations b.peer b.link ⟨i, b.generation⟩ := (binds_self here).mpr held
      have same := List.inj_on_of_nodup_map warns.distinct ((warns.bound alive _ _).mpr binds)
        ((warns.bound alive _ _).mpr bound) rfl
      exact congrArg (fun entry => entry.2.station) same

/-- The invariant outlives every operation. -/
theorem Guarded.effect (guarded : Guarded stations peers) (here : stations[i]? = some s)
    (effect : Effect i s peers s' peers') : Guarded (stations.set i s') peers' := by
  induction effect generalizing stations with
  | idle bond next queued kept => exact guarded.idle here bond next queued kept
  | admitted vacant opened there alive bond next inbox =>
    exact guarded.admitted here vacant opened there alive bond next inbox
  | released held there bond next queued => exact guarded.released here held there bond next queued
  | forgotten vacant bond inbox => exact guarded.forgotten here vacant bond inbox
  | trans _ _ first second =>
    have both := second (first guarded here) (getElem?_set_of_some here _)
    rwa [List.set_set] at both

/-! Peers die, and stations and peers arrive. -/

theorem fireAll_stations (hooks : List DeathHook) (w : World) :
    (w.fireAll hooks).stations = postHooks hooks w.stations := by
  induction hooks generalizing w with
  | nil => rfl
  | cons hook rest ih => exact ih (w.fire hook)

theorem fireAll_peers (hooks : List DeathHook) (w : World) : (w.fireAll hooks).peers = w.peers := by
  induction hooks generalizing w with
  | nil => rfl
  | cons hook rest ih => exact ih (w.fire hook)

theorem binds_congr {stations' : List Station}
    (same : ∀ j : Nat, (stations'[j]?).map Station.registry = (stations[j]?).map Station.registry)
    (index link : Nat) (hook : DeathHook) :
    Binds stations' index link hook ↔ Binds stations index link hook := by
  have looked (stations : List Station) : Binds stations index link hook ↔
      ((stations[hook.station]?).map Station.registry).bind Registry.bond =
        some ⟨index, link, hook.generation⟩ := by
    simp [Binds, Option.bind_eq_some_iff]
  rw [looked, looked, same]

/-- A dying peer may fire its hooks in any order. -/
def World.dies (index : Nat) (p : InProcessPeer DeathHook) (hooks : List DeathHook) (w : World) :
    World :=
  ((w.setPeer index (.inProcess { p with alive := false, hooks := [] })).log
    (.peerDied p.name hooks.length)).fireAll hooks

/-- Every hook of the dying peer becomes a notice. -/
theorem Guarded.dies {w : World} {index : Nat} {p : InProcessPeer DeathHook}
    {hooks : List DeathHook} (guarded : Guarded w.stations w.peers)
    (there : w.peers[index]? = some (.inProcess p)) (alive : p.alive = true)
    (order : hooks.Perm (p.hooks.map Prod.snd)) :
    Guarded (w.dies index p hooks).stations (w.dies index p hooks).peers := by
  obtain ⟨_, ⟨⟩, warns⟩ := guarded.warns index _ there
  have peers : (w.dies index p hooks).peers =
      w.peers.set index (.inProcess { p with alive := false, hooks := [] }) := fireAll_peers _ _
  have stations (j : Nat) : (w.dies index p hooks).stations[j]? =
      (w.stations[j]?).map (Station.postAll (generationsFor j hooks)) := by
    rw [World.dies, fireAll_stations]
    exact getElem?_postHooks _ _ j
  have hooked {j g : Nat} {s : Station} (here : w.stations[j]? = some s) :
      ⟨j, g⟩ ∈ hooks ↔ ∃ l, s.registry.bond = some ⟨index, l, g⟩ := by
    simp only [order.mem_iff, List.mem_map, Prod.exists, warns.bound alive, exists_eq_right,
      binds_self here]
  constructor
  · intro j t here
    rw [stations] at here
    obtain ⟨s, met, rfl⟩ := Option.map_eq_some_iff.mp here
    have watched := guarded.watches j s met
    constructor
    · intro g queued
      rw [Station.registry_postAll]
      cases opened : s.isOpen with
      | false =>
        rw [Station.postAll_closed _ _ opened] at queued
        exact watched.queued g queued
      | true =>
        rw [Station.inbox_postAll _ _ opened, List.mem_append, mem_generationsFor,
          hooked met] at queued
        rcases queued with queued | ⟨l, bond⟩
        · exact watched.queued g queued
        · exact watched.used _ bond
    · simpa using watched.used
    · simpa using watched.opened
    · intro b bond
      rw [Station.registry_postAll] at bond
      obtain ⟨q, found, count⟩ := watched.noticed b bond
      rw [Station.inbox_postAll _ _ (watched.opened b bond), List.count_append,
        count_generationsFor, count, peers]
      by_cases same : b.peer = index
      · subst same
        obtain ⟨⟩ := there.symm.trans found
        refine ⟨_, getElem?_set_of_some there _, ?_⟩
        have once : hooks.count ⟨j, b.generation⟩ = 1 := by
          rw [order.count_eq]
          refine List.count_eq_one_of_mem (warns.nodup_hooks alive) (order.mem_iff.mp ?_)
          exact (hooked met).mpr ⟨b.link, bond⟩
        simp [alive, once]
      · refine ⟨q, by rw [List.getElem?_set_ne (Ne.symm same), found], ?_⟩
        have never : hooks.count ⟨j, b.generation⟩ = 0 := by
          apply List.count_eq_zero.mpr
          intro fired
          apply same
          obtain ⟨l, other⟩ := (hooked met).mp fired
          exact congrArg Bond.peer (Option.some.inj (bond.symm.trans other))
        rw [never, Nat.add_zero]
  · intro k peer here
    rw [peers] at here
    have same : ∀ link hook,
        Binds (w.dies index p hooks).stations k link hook ↔ Binds w.stations k link hook :=
      binds_congr (fun j => by
        rw [stations, Option.map_map]
        exact congrArg (Option.map · _) (funext fun s => Station.registry_postAll _ s)) k
    rcases getElem?_set_some here with ⟨rfl, rfl⟩ | ⟨_, here⟩
    · refine ⟨_, rfl, ?_⟩
      exact ⟨List.nodup_nil, fun _ here => absurd here List.not_mem_nil, nofun, fun _ => rfl⟩
    · obtain ⟨q, rfl, kept⟩ := guarded.warns k peer here
      exact ⟨q, rfl, kept.congr same⟩

theorem kill_alive {w : World} {index : Nat} {p : InProcessPeer DeathHook}
    (there : w.peers[index]? = some (.inProcess p)) (alive : p.alive = true) :
    w.kill index = w.dies index p (p.hooks.map Prod.snd) := by
  simp only [World.kill, World.dies, there, InProcessPeer.kill, alive, if_true, List.length_map]

theorem kill_dead {w : World} {index : Nat} {p : InProcessPeer DeathHook}
    (there : w.peers[index]? = some (.inProcess p)) (dead : p.alive = false) :
    w.kill index = w := by
  simp [World.kill, there, InProcessPeer.kill, dead, World.setPeer_eq_self there]

theorem Guarded.kill {w : World} (guarded : Guarded w.stations w.peers) (index : Nat) :
    Guarded (w.kill index).stations (w.kill index).peers := by
  cases there : w.peers[index]? with
  | none => simpa only [World.kill, there] using guarded
  | some found =>
    obtain ⟨p, rfl, _⟩ := guarded.warns index found there
    cases alive : p.alive with
    | false => rwa [kill_dead there alive]
    | true =>
      rw [kill_alive there alive]
      exact guarded.dies there alive (.refl _)

theorem Guarded.addStation (guarded : Guarded stations peers) :
    Guarded (stations ++ [({} : Station)]) peers where
  watches j t here := by
    rcases getElem?_concat_some here with ⟨_, rfl⟩ | here
    · exact ⟨fun _ queued => absurd queued List.not_mem_nil, nofun, nofun, nofun⟩
    · exact guarded.watches j t here
  warns index peer here := by
    obtain ⟨p, rfl, warns⟩ := guarded.warns index peer here
    refine ⟨p, rfl, ?_⟩
    apply warns.congr
    intro link hook
    constructor
    · rintro ⟨s, there, bond⟩
      rcases getElem?_concat_some there with ⟨_, rfl⟩ | there
      · contradiction
      · exact ⟨s, there, bond⟩
    · rintro ⟨s, there, bond⟩
      exact ⟨s, getElem?_concat_of_some _ there, bond⟩

theorem Guarded.addPeer (guarded : Guarded stations peers) (name : String) :
    Guarded stations (peers ++ [.inProcess { name }]) where
  watches j t here := by
    apply (guarded.watches j t here).alike
    intro index p there
    exact ⟨p, getElem?_concat_of_some _ there, rfl⟩
  warns index peer here := by
    rcases getElem?_concat_some here with ⟨rfl, rfl⟩ | here
    · refine ⟨_, rfl, InProcessPeer.warns_new stations _ name ?_⟩
      rintro link hook ⟨s, there, bond⟩
      obtain ⟨p, known, _⟩ := (guarded.watches _ s there).noticed _ bond
      simp at known
    · exact guarded.warns index peer here

end ScanSlot
