import ScanSlot.World.Operation
import ScanSlot.Proofs.Dialogue.Secluded

/-! In a world every callback stands apart from all others: whatever is said to some of them, no peer,
no registry and no other callback takes notice. -/
namespace ScanSlot.World

/-- Covers the journal and the callbacks that stand apart. -/
def veil (apart : Nat → Prop) [DecidablePred apart] (w : World) : World :=
  { w with
    callbacks := w.callbacks.mapIdx fun i c => if apart i then .scripted { fails := [] } else c
    journal := [] }

variable {apart : Nat → Prop} [DecidablePred apart]

theorem fireAll_veil (hooks : List DeathHook) (w : World) :
    (w.veil apart).fireAll hooks = (w.fireAll hooks).veil apart := by
  induction hooks generalizing w with
  | nil => rfl
  | cons hook rest ih => exact ih (w.fire hook)

theorem link_veil (index : Nat) (hook : DeathHook) (w : World) :
    (w.veil apart).link index hook =
      ((w.link index hook).1, (w.link index hook).2.veil apart) := by
  have peers : (w.veil apart).peers = w.peers := rfl
  unfold link
  rw [peers]
  match w.peers[index]? with
  | none => rfl
  | some (.inProcess p) => rfl
  | some (.scripted p) =>
    exact congrArg _ (fireAll_veil _ (w.setPeer index (.scripted (p.link hook).2.2)))

theorem unlink_veil (index l : Nat) (w : World) :
    (w.veil apart).unlink index l = ((w.unlink index l).1, (w.unlink index l).2.veil apart) := by
  have peers : (w.veil apart).peers = w.peers := rfl
  unfold unlink
  rw [peers]
  match w.peers[index]? with
  | none => rfl
  | some (.inProcess p) => rfl
  | some (.scripted p) => rfl

theorem veil_setCallback {index : Nat} (near : ¬ apart index) (c : Callback) (w : World) :
    (w.veil apart).setCallback index c = (w.setCallback index c).veil apart := by
  simp only [veil, setCallback, List.mapIdx_set, if_neg near]

theorem veil_setCallback_apart {index : Nat} (far : apart index) (c : Callback) (w : World) :
    (w.setCallback index c).veil apart = w.veil apart := by
  have same : ((w.setCallback index c).veil apart).callbacks = (w.veil apart).callbacks := by
    apply List.ext_getElem?
    intro k
    simp only [veil, setCallback, List.getElem?_mapIdx, List.getElem?_set]
    by_cases here : index = k
    · subst here
      by_cases inside : index < w.callbacks.length <;> simp [inside, far]
    · simp [here]
  simp only [setCallback, veil] at same ⊢
  rw [same]

theorem notify_veil {index : Nat} (near : ¬ apart index) (event : Event) (w : World) :
    (w.veil apart).notify index event =
      ((w.notify index event).1, (w.notify index event).2.veil apart) := by
  have there : (w.veil apart).callbacks[index]? = w.callbacks[index]? := by
    simp [veil, near]
  unfold notify
  rw [there]
  match w.callbacks[index]? with
  | none => rfl
  | some (.channel c) => exact congrArg _ (veil_setCallback near _ w)
  | some (.scripted c) => exact congrArg _ (veil_setCallback near _ w)

theorem notify_apart {index : Nat} (far : apart index) (event : Event) (w : World) :
    (w.notify index event).2.veil apart = w.veil apart := by
  unfold notify
  match w.callbacks[index]? with
  | none => rfl
  | some (.channel c) => exact veil_setCallback_apart far _ w
  | some (.scripted c) => exact veil_setCallback_apart far _ w

theorem veil_veil (w : World) : (w.veil apart).veil apart = w.veil apart := by
  have same : ((w.veil apart).veil apart).callbacks = (w.veil apart).callbacks := by
    apply List.ext_getElem?
    intro k
    simp only [veil, List.getElem?_mapIdx, Option.map_map]
    refine congrArg (Option.map · _) (funext fun c => ?_)
    by_cases far : apart k <;> simp [far]
  simp only [veil] at same ⊢
  rw [same]

theorem kill_veil (index : Nat) (w : World) :
    ((w.veil apart).kill index).veil apart = (w.kill index).veil apart := by
  have peers : (w.veil apart).peers = w.peers := rfl
  unfold kill
  rw [peers]
  match w.peers[index]? with
  | none => exact veil_veil w
  | some (.scripted p) =>
    simp only [← fireAll_veil]
    exact congrArg (fireAll _) (veil_veil (w.setPeer index (.scripted p.fireAll.2)))
  | some (.inProcess p) =>
    dsimp only
    obtain ⟨taken, p⟩ := p.kill
    cases taken with
    | none => exact veil_veil (w.setPeer index (.inProcess p))
    | some hooks =>
      simp only [← fireAll_veil]
      exact congrArg (fireAll hooks) (veil_veil (w.setPeer index (.inProcess p)))

/-- A peer dies alike, whatever has been said to the callbacks that stand apart. -/
theorem kill_blind (index : Nat) {v w : World} (same : v.veil apart = w.veil apart) :
    (v.kill index).veil apart = (w.kill index).veil apart := by
  rw [← kill_veil, same, kill_veil]

/-- What does the same under the veil depends on nothing that the veil covers. -/
theorem agrees_of_veil {α : Type} {f : World → α × World}
    (veiled : ∀ w, f (w.veil apart) = ((f w).1, (f w).2.veil apart)) {v w : World}
    (same : v.veil apart = w.veil apart) : Agrees (veil apart) (f v) (f w) := by
  have left := veiled v
  rw [same, veiled w] at left
  exact ⟨(congrArg Prod.fst left).symm, (congrArg Prod.snd left).symm⟩

theorem secluded (station : Nat) (apart : Nat → Prop) [DecidablePred apart] :
    Secluded (host station) apart (veil apart) where
  link peer generation _ _ same := agrees_of_veil (link_veil peer.index ⟨station, generation⟩) same
  unlink peer l _ _ same := agrees_of_veil (unlink_veil peer.index l) same
  notify _ event _ _ near same := agrees_of_veil (notify_veil near event) same
  aside _ event w far := notify_apart far event w
  log _ _ := rfl
  notices same := agrees_of_veil (fun _ => rfl) same

end ScanSlot.World
