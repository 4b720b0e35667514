import ScanSlot.Proofs.Ensemble.Basic
import ScanSlot.Proofs.Peer.InProcess
import ScanSlot.Proofs.World.Ground
import Mathlib.Logic.Relation
import Mathlib.Data.List.Perm.Subperm

/-! Worlds are ensembles: whatever peers of the same process and scripted peers do with hooks, an
ensemble can do, too. -/
namespace ScanSlot

open Relation (ReflTransGen)

/-- The hooks that are stored and may still fire. -/
def Peer.hooks : Peer → List DeathHook
  | inProcess p => p.hooks.map Prod.snd
  | scripted p => p.hooks.map Prod.snd

def World.hooks (w : World) : List DeathHook :=
  w.peers.flatMap Peer.hooks

namespace Ensemble

/-- The same stations, and no hook is stored that may not fire. -/
structure Covers (e : Ensemble) (w : World) : Prop where
  stations : e.stations = w.stations
  hooks : w.hooks.Subperm e.hooks

theorem hooks_setPeer {w : World} {index : Nat} {peer : Peer}
    (there : w.peers[index]? = some peer) (peer' : Peer) :
    ∃ rest, w.hooks.Perm (peer.hooks ++ rest) ∧
      (w.setPeer index peer').hooks.Perm (peer'.hooks ++ rest) := by
  obtain ⟨inside, rfl⟩ := List.getElem?_eq_some_iff.mp there
  have split : w.peers = w.peers.take index ++ w.peers[index] :: w.peers.drop (index + 1) := by
    rw [← List.drop_eq_getElem_cons inside, List.take_append_drop]
  have set : w.peers.set index peer' =
      w.peers.take index ++ peer' :: w.peers.drop (index + 1) := by
    rw [List.set_eq_take_append_cons_drop, if_pos inside]
  have hooks (peer : Peer) :
      ((w.peers.take index ++ peer :: w.peers.drop (index + 1)).flatMap Peer.hooks).Perm
        (peer.hooks ++ ((w.peers.take index).flatMap Peer.hooks ++
          (w.peers.drop (index + 1)).flatMap Peer.hooks)) := by
    rw [List.flatMap_append, List.flatMap_cons]
    exact List.perm_append_comm_assoc ..
  have before : w.hooks.Perm _ :=
    (List.Perm.of_eq (congrArg (List.flatMap Peer.hooks) split)).trans (hooks _)
  have after : (w.setPeer index peer').hooks.Perm _ :=
    (List.Perm.of_eq (congrArg (List.flatMap Peer.hooks) set)).trans (hooks _)
  exact ⟨_, before, after⟩

theorem subperm_setPeer {w : World} {index : Nat} {peer peer' : Peer} {held extra : List DeathHook}
    (there : w.peers[index]? = some peer) (covered : w.hooks.Subperm held)
    (kept : peer'.hooks.Subperm (peer.hooks ++ extra)) :
    (w.setPeer index peer').hooks.Subperm (held ++ extra) := by
  obtain ⟨rest, before, after⟩ := hooks_setPeer there peer'
  have moved : (peer.hooks ++ extra ++ rest).Perm (peer.hooks ++ rest ++ extra) := by
    rw [List.append_assoc, List.append_assoc]
    exact List.perm_append_comm.append_left _
  have joined := (List.subperm_append_right rest).mpr kept
  refine after.subperm.trans (joined.trans (moved.subperm.trans ?_))
  exact (List.subperm_append_right extra).mpr (before.symm.subperm.trans covered)

theorem subperm_setPeer_of_fewer {w : World} {index : Nat} {peer peer' : Peer}
    {held : List DeathHook} (there : w.peers[index]? = some peer) (covered : w.hooks.Subperm held)
    (kept : peer'.hooks.Subperm peer.hooks) : (w.setPeer index peer').hooks.Subperm held := by
  rw [← List.append_nil peer.hooks] at kept
  have still := subperm_setPeer there covered kept
  rwa [List.append_nil] at still

theorem hand_fire_hooks (e : Ensemble) (hook : DeathHook) :
    e.hooks.Perm ((e.hand hook).fire hook).hooks := by
  have mem : hook ∈ (e.hand hook).hooks := List.mem_append_right _ (List.mem_singleton_self hook)
  have handed : (hook :: e.hooks).Perm (e.hand hook).hooks := (List.perm_append_singleton _ _).symm
  exact (handed.trans (List.perm_cons_erase mem)).cons_inv

/-- The hook of a link is stored, dropped or fired at once. -/
theorem covers_link {e : Ensemble} {w : World} (covers : Covers e w) (index : Nat)
    (hook : DeathHook) :
    Covers (e.hand hook) (w.link index hook).2 ∨
      Covers ((e.hand hook).fire hook) (w.link index hook).2 := by
  have more : w.hooks.Subperm (e.hand hook).hooks :=
    covers.hooks.trans (List.sublist_append_left _ _).subperm
  unfold World.link
  cases there : w.peers[index]? with
  | none => exact .inl ⟨covers.stations, more⟩
  | some found =>
    have stored {peer : Peer} (kept : peer.hooks.Subperm (found.hooks ++ [hook])) :
        Covers (e.hand hook) (w.setPeer index peer) :=
      ⟨covers.stations, subperm_setPeer there covers.hooks kept⟩
    have spent {peer : Peer} (kept : peer.hooks.Subperm found.hooks) :
        Covers ((e.hand hook).fire hook) ((w.setPeer index peer).fire hook) := by
      refine ⟨congrArg (List.modify · _ _) covers.stations, ?_⟩
      exact (subperm_setPeer_of_fewer there covers.hooks kept).trans (hand_fire_hooks e hook).subperm
    cases found with
    | inProcess p =>
      refine .inl (stored ?_)
      by_cases alive : p.alive = true
      · rw [Peer.hooks, InProcessPeer.hooks_link alive, List.map_append]
        exact .refl _
      · simp only [InProcessPeer.link, if_neg alive]
        exact (List.sublist_append_left _ _).subperm
    | scripted p =>
      by_cases fails : p.script.failLink = true
      · simp only [ScriptedPeer.link, if_pos fails]
        exact .inl (stored (List.sublist_append_left _ _).subperm)
      by_cases dies : p.script.dieOnLink = true
      · simp only [ScriptedPeer.link, if_neg fails, if_pos dies]
        exact .inr (spent (.refl _))
      · simp only [ScriptedPeer.link, if_neg fails, if_neg dies]
        refine .inl (stored ?_)
        rw [Peer.hooks, List.map_append]
        exact .refl _

theorem covers_unlink {e : Ensemble} {w : World} (covers : Covers e w) (index l : Nat) :
    Covers e (w.unlink index l).2 := by
  unfold World.unlink
  cases there : w.peers[index]? with
  | none => exact covers
  | some found =>
    have smaller {peer : Peer} (kept : peer.hooks.Subperm found.hooks) :
        Covers e (w.setPeer index peer) :=
      ⟨covers.stations, subperm_setPeer_of_fewer there covers.hooks kept⟩
    cases found with
    | inProcess p =>
      apply smaller
      rw [Peer.hooks, InProcessPeer.hooks_unlink]
      exact (List.filter_sublist.map _).subperm
    | scripted p =>
      apply smaller
      unfold ScriptedPeer.unlink
      split
      · exact .refl _
      · split
        · exact .refl _
        · exact (List.filter_sublist.map _).subperm

theorem covers_notify {e : Ensemble} {w : World} (covers : Covers e w) (index : Nat)
    (event : Event) : Covers e (w.notify index event).2 := by
  unfold World.notify
  split <;> exact ⟨covers.stations, covers.hooks⟩

/-- A dialogue that is run in a world can be held in the ensemble. -/
theorem covers_run {α : Type} {e : Ensemble} {w : World} (i : Nat) (d : Dialogue α)
    (covers : Covers e w) :
    ∃ xs e', Holds i d e xs (d.run (World.host i).toCollaborators w).1 e' ∧
      Covers e' (d.run (World.host i).toCollaborators w).2 := by
  induction d generalizing e w with
  | done a => exact ⟨[], e, .done a e, covers⟩
  | link peer generation next ih =>
    rcases covers_link covers peer.index ⟨i, generation⟩ with linked | fired
    · obtain ⟨xs, e', holds, covers⟩ := ih _ linked
      exact ⟨_, e', .link _ holds, covers⟩
    · obtain ⟨xs, e', holds, covers⟩ := ih _ fired
      have handed : (⟨i, generation⟩ : DeathHook) ∈ (e.hand ⟨i, generation⟩).hooks :=
        List.mem_append_right _ (List.mem_singleton_self _)
      exact ⟨_, e', .link _ (.fires handed holds), covers⟩
  | unlink peer l next ih =>
    obtain ⟨xs, e', holds, covers⟩ := ih _ (covers_unlink covers peer.index l)
    exact ⟨_, e', .unlink _ holds, covers⟩
  | notify callback event next ih =>
    obtain ⟨xs, e', holds, covers⟩ := ih _ (covers_notify covers callback.index event)
    exact ⟨_, e', .notify _ holds, covers⟩
  | log entry next ih =>
    have logged : Covers e (w.log entry) := ⟨covers.stations, covers.hooks⟩
    obtain ⟨xs, e', holds, covers⟩ := ih logged
    exact ⟨_, e', .log holds, covers⟩

theorem covers_operate {deeds : List Deed} {e : Ensemble} {w : World} {i : Nat} {s : Station}
    (runs : Runs deeds e) (covers : Covers e w) (there : w.stations[i]? = some s)
    (opened : s.isOpen = true) (op : Operation) :
    ∃ deeds' e', Runs deeds' e' ∧ Covers e' (w.operate i op) := by
  have begun : Covers (e.onStation i op.begin) (w.modifyStation i op.begin) :=
    ⟨congrArg (List.modify · i op.begin) covers.stations, covers.hooks⟩
  obtain ⟨xs, e', holds, ended⟩ := covers_run i (op.ask s) begun
  have met : e.stations[i]? = some s := by rw [covers.stations, there]
  refine ⟨_, _, runs.snoc (.turns met opened holds), ?_⟩
  rw [World.operate_run there op]
  exact ⟨congrArg (List.modify · i _) ended.stations, ended.hooks⟩

/-- Stored hooks may fire one after another. -/
theorem covers_fireAll {deeds : List Deed} {e : Ensemble} {w : World} {hooks : List DeathHook}
    (runs : Runs deeds e) (stations : e.stations = w.stations)
    (held : (hooks ++ w.hooks).Subperm e.hooks) :
    ∃ deeds' e', Runs deeds' e' ∧ Covers e' (w.fireAll hooks) := by
  induction hooks generalizing deeds e w with
  | nil => exact ⟨deeds, e, runs, stations, held⟩
  | cons hook rest ih =>
    have may : hook ∈ e.hooks := held.subset List.mem_cons_self
    have left := held.erase hook
    rw [List.cons_append, List.erase_cons_head] at left
    exact ih (w := w.fire hook) (runs.snoc (.fires may))
      (congrArg (List.modify · hook.station _) stations) left

theorem subperm_taken {w : World} {index : Nat} {peer peer' : Peer} {fired : List DeathHook}
    (there : w.peers[index]? = some peer) (taken : (fired ++ peer'.hooks).Subperm peer.hooks) :
    (fired ++ (w.setPeer index peer').hooks).Subperm w.hooks := by
  obtain ⟨rest, before, after⟩ := hooks_setPeer there peer'
  have joined := (List.subperm_append_right rest).mpr taken
  rw [List.append_assoc] at joined
  exact (after.append_left fired).subperm.trans (joined.trans before.symm.subperm)

theorem covers_kill {deeds : List Deed} {e : Ensemble} {w : World} (runs : Runs deeds e)
    (covers : Covers e w) (index : Nat) :
    ∃ deeds' e', Runs deeds' e' ∧ Covers e' (w.kill index) := by
  unfold World.kill
  cases there : w.peers[index]? with
  | none => exact ⟨deeds, e, runs, covers⟩
  | some found =>
    cases found with
    | inProcess p =>
      by_cases alive : p.alive = true
      · simp only [InProcessPeer.kill, if_pos alive]
        refine covers_fireAll runs covers.stations (List.Subperm.trans ?_ covers.hooks)
        apply subperm_taken there
        rw [Peer.hooks, List.map_nil, List.append_nil]
        exact .refl _
      · simp only [InProcessPeer.kill, if_neg alive, World.setPeer_eq_self there]
        exact ⟨deeds, e, runs, covers⟩
    | scripted p =>
      refine covers_fireAll runs covers.stations (List.Subperm.trans ?_ covers.hooks)
      apply subperm_taken there
      rw [Peer.hooks, List.map_nil, List.append_nil]
      exact .refl _

theorem covers_fireStored {deeds : List Deed} {e : Ensemble} {w : World} (runs : Runs deeds e)
    (covers : Covers e w) (index link : Nat) :
    ∃ deeds' e', Runs deeds' e' ∧ Covers e' (w.fireStored index link).2 := by
  unfold World.fireStored
  cases there : w.peers[index]? with
  | none => exact ⟨deeds, e, runs, covers⟩
  | some found =>
    cases found with
    | inProcess p => exact ⟨deeds, e, runs, covers⟩
    | scripted p =>
      refine covers_fireAll runs covers.stations (List.Subperm.trans ?_ covers.hooks)
      apply subperm_taken there
      simp only [ScriptedPeer.fire, Peer.hooks]
      cases stored : p.hooks.find? (·.1 == link) with
      | none => exact (List.filter_sublist.map _).subperm
      | some entry =>
        have named : (entry.1 == link) = true := by simpa using List.find?_some stored
        have there : entry ∈ p.hooks.filter (·.1 == link) :=
          List.mem_filter.mpr ⟨List.mem_of_find?_eq_some stored, named⟩
        have first := (List.singleton_sublist.mpr there).append
          (.refl (p.hooks.filter fun entry => !(entry.1 == link)))
        have parted := (List.filter_append_perm (·.1 == link) p.hooks).map Prod.snd
        exact (first.map Prod.snd).subperm.trans parted.subperm

end Ensemble

namespace World

/-- One thing that happens, with peers of either kind. -/
inductive Occurs : World → World → Prop where
  | station (w : World) : Occurs w w.addStation.2
  | peer {peer : Peer} (new : peer.hooks = []) (w : World) : Occurs w (w.addPeer peer).2
  /-- Callbacks and the journal do not matter here. -/
  | elsewhere {w w' : World} (stations : w'.stations = w.stations) (peers : w'.peers = w.peers) :
      Occurs w w'
  | operate {i : Nat} {s : Station} {w : World} (op : Operation)
      (there : w.stations[i]? = some s) (opened : s.isOpen = true) : Occurs w (w.operate i op)
  | kill (index : Nat) (w : World) : Occurs w (w.kill index)
  | fireStored (index link : Nat) (w : World) : Occurs w (w.fireStored index link).2

end World

namespace Ensemble

/-- Whatever can happen in a world can happen in an ensemble, so hooks keep faith there as well. -/
theorem covered {w : World} (run : ReflTransGen World.Occurs {} w) :
    ∃ deeds e, Runs deeds e ∧ Covers e w := by
  induction run with
  | refl => exact ⟨[], {}, .nil, rfl, .refl _⟩
  | @tail w w' _ occurs ih =>
    obtain ⟨deeds, e, runs, covers⟩ := ih
    cases occurs with
    | station =>
      exact ⟨_, _, runs.snoc (.opens e), congrArg (· ++ [_]) covers.stations, covers.hooks⟩
    | @peer peer new =>
      refine ⟨deeds, e, runs, covers.stations, ?_⟩
      have same : (w.addPeer peer).2.hooks = w.hooks := by
        simp [World.addPeer, World.hooks, new]
      rw [same]
      exact covers.hooks
    | elsewhere stations peers =>
      refine ⟨deeds, e, runs, covers.stations.trans stations.symm, ?_⟩
      rw [World.hooks, peers]
      exact covers.hooks
    | operate op there opened => exact covers_operate runs covers there opened op
    | kill index => exact covers_kill runs covers index
    | fireStored index link => exact covers_fireStored runs covers index link

end Ensemble
end ScanSlot
