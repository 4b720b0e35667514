import ScanSlot.Worker.Basic
import ScanSlot.Proofs.Dialogue.Path

/-! Callbacks that stand apart. Where nothing else takes notice of some callbacks or of the log, a
dialogue that does not call them goes the same way whatever has been said to them, and one that calls
nobody else leaves no trace. -/
namespace ScanSlot

open Dialogue (Path path_run)

/-- The same answer, and the same sight of everything else. -/
def Agrees {α σ τ : Type} (view : σ → τ) (x y : α × σ) : Prop :=
  x.1 = y.1 ∧ view x.2 = view y.2

/-- What a view shows does not depend on the callbacks that stand apart nor on the log, and the
collaborators depend on nothing that the view does not show. -/
structure Secluded {σ τ : Type} (h : Host σ) (apart : Nat → Prop) (view : σ → τ) : Prop where
  link : ∀ peer generation {s t}, view s = view t →
    Agrees view (h.link peer generation s) (h.link peer generation t)
  unlink : ∀ peer l {s t}, view s = view t → Agrees view (h.unlink peer l s) (h.unlink peer l t)
  notify : ∀ callback event {s t}, ¬ apart callback.index → view s = view t →
    Agrees view (h.notify callback event s) (h.notify callback event t)
  aside : ∀ callback event s, apart callback.index →
    view (h.notify callback event s).2 = view s
  log : ∀ entry s, view (h.log entry s) = view s
  notices : ∀ {s t}, view s = view t → Agrees view (h.takeNotices s) (h.takeNotices t)

/-- A call on a callback that stands apart, or an entry of the log. -/
def Exchange.Aside (apart : Nat → Prop) : Exchange → Prop
  | notify callback _ _ => apart callback.index
  | log _ => True
  | link .. | unlink .. => False

namespace Dialogue

/-- A dialogue that never calls a callback that stands apart. -/
def Spares {α : Type} (apart : Nat → Prop) : Dialogue α → Prop
  | done _ => True
  | link _ _ next => ∀ answer, (next answer).Spares apart
  | unlink _ _ next => ∀ answer, (next answer).Spares apart
  | notify callback _ next => ¬ apart callback.index ∧ ∀ answer, (next answer).Spares apart
  | log _ next => next.Spares apart

theorem exists_path {α : Type} (d : Dialogue α) : ∃ xs a, Path d xs a := by
  let obliging : Collaborators Unit :=
    { link := fun _ _ s => (.ok 0, s), unlink := fun _ _ s => (.ok (), s)
      notify := fun _ _ s => (.ok (), s), log := fun _ s => s }
  exact ⟨_, _, path_run obliging d ()⟩

theorem spares_of_paths {α : Type} {apart : Nat → Prop} {d : Dialogue α}
    (near : ∀ xs a, Path d xs a → ∀ callback event answer,
      .notify callback event answer ∈ xs → ¬ apart callback.index) : d.Spares apart := by
  induction d with
  | done => trivial
  | link peer generation next ih =>
    intro answer
    exact ih answer fun xs a path callback event reply told =>
      near _ a (.link answer path) callback event reply (List.mem_cons_of_mem _ told)
  | unlink peer l next ih =>
    intro answer
    exact ih answer fun xs a path callback event reply told =>
      near _ a (.unlink answer path) callback event reply (List.mem_cons_of_mem _ told)
  | notify callback event next ih =>
    obtain ⟨xs, a, path⟩ := (next (.ok ())).exists_path
    refine ⟨near _ a (.notify _ path) callback event _ List.mem_cons_self, ?_⟩
    intro answer
    exact ih answer fun xs a path callback event reply told =>
      near _ a (.notify answer path) callback event reply (List.mem_cons_of_mem _ told)
  | log entry next ih =>
    exact ih fun xs a path callback event reply told =>
      near _ a (.log path) callback event reply (List.mem_cons_of_mem _ told)

end Dialogue

namespace Secluded
variable {α σ τ : Type} {h : Host σ} {apart : Nat → Prop} {view : σ → τ}

theorem run (secluded : Secluded h apart view) {d : Dialogue α} (spares : d.Spares apart) {s t : σ}
    (same : view s = view t) :
    Agrees view (d.run h.toCollaborators s) (d.run h.toCollaborators t) ∧
      d.exchanges h.toCollaborators s = d.exchanges h.toCollaborators t := by
  induction d generalizing s t with
  | done a => exact ⟨⟨rfl, same⟩, rfl⟩
  | link peer generation next ih =>
    obtain ⟨answer, seen⟩ := secluded.link peer generation same
    simp only [Dialogue.run, Dialogue.exchanges, answer]
    obtain ⟨agrees, said⟩ := ih _ (spares _) seen
    exact ⟨agrees, congrArg _ said⟩
  | unlink peer l next ih =>
    obtain ⟨answer, seen⟩ := secluded.unlink peer l same
    simp only [Dialogue.run, Dialogue.exchanges, answer]
    obtain ⟨agrees, said⟩ := ih _ (spares _) seen
    exact ⟨agrees, congrArg _ said⟩
  | notify callback event next ih =>
    obtain ⟨answer, seen⟩ := secluded.notify callback event spares.1 same
    simp only [Dialogue.run, Dialogue.exchanges, answer]
    obtain ⟨agrees, said⟩ := ih _ (spares.2 _) seen
    exact ⟨agrees, congrArg _ said⟩
  | log entry next ih =>
    have seen : view (h.log entry s) = view (h.log entry t) :=
      (secluded.log entry s).trans (same.trans (secluded.log entry t).symm)
    obtain ⟨agrees, said⟩ := ih spares seen
    exact ⟨agrees, congrArg (Exchange.log entry :: ·) said⟩

theorem plays (secluded : Secluded h apart view) {xs : List Exchange} {s u : σ}
    (plays : h.Plays xs s u) (aside : ∀ x ∈ xs, x.Aside apart) : view u = view s := by
  induction plays with
  | nil => rfl
  | link | unlink => exact (aside _ List.mem_cons_self).elim
  | @notify callback event answer xs s t u call _ ih =>
    have first := secluded.aside callback event s (aside _ List.mem_cons_self)
    rw [call] at first
    exact (ih fun x later => aside x (List.mem_cons_of_mem _ later)).trans first
  | log _ ih =>
    have rest := ih fun x later => aside x (List.mem_cons_of_mem _ later)
    exact rest.trans (secluded.log _ _)

end Secluded
end ScanSlot
