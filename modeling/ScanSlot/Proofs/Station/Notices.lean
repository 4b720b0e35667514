import ScanSlot.World.Basic

/-! Lists of stations in which one changes or one is new, and the notices that death hooks post,
one after another, to the stations they belong to. -/
namespace ScanSlot

theorem getElem?_set_some {α : Type} {l : List α} {j k : Nat} {a b : α}
    (here : (l.set j a)[k]? = some b) : (j = k ∧ b = a) ∨ (j ≠ k ∧ l[k]? = some b) := by
  rw [List.getElem?_set] at here
  by_cases same : j = k
  · rw [if_pos same] at here
    split at here
    · exact .inl ⟨same, (Option.some.inj here).symm⟩
    · contradiction
  · rw [if_neg same] at here
    exact .inr ⟨same, here⟩

theorem getElem?_set_of_some {α : Type} {l : List α} {j : Nat} {a : α}
    (there : l[j]? = some a) (b : α) : (l.set j b)[j]? = some b := by
  obtain ⟨inside, _⟩ := List.getElem?_eq_some_iff.mp there
  exact List.getElem?_set_self inside

theorem getElem?_concat_some {α : Type} {l : List α} {k : Nat} {a b : α}
    (here : (l ++ [a])[k]? = some b) : (k = l.length ∧ b = a) ∨ l[k]? = some b := by
  rw [List.getElem?_append] at here
  by_cases inside : k < l.length
  · rw [if_pos inside] at here
    exact .inr here
  · rw [if_neg inside, List.getElem?_singleton] at here
    by_cases last : k - l.length = 0
    · rw [if_pos last] at here
      exact .inl ⟨by omega, (Option.some.inj here).symm⟩
    · rw [if_neg last] at here
      contradiction

theorem getElem?_concat_of_some {α : Type} {l : List α} {k : Nat} {b : α} (a : α)
    (here : l[k]? = some b) : (l ++ [a])[k]? = some b := by
  obtain ⟨inside, _⟩ := List.getElem?_eq_some_iff.mp here
  rw [List.getElem?_append_left inside, here]

namespace Station

def postAll (generations : List Nat) (s : Station) : Station :=
  generations.foldl (fun s generation => s.post generation) s

@[simp] theorem registry_post (generation : Nat) (s : Station) :
    (s.post generation).registry = s.registry := by
  unfold post
  split <;> rfl

@[simp] theorem isOpen_post (generation : Nat) (s : Station) :
    (s.post generation).isOpen = s.isOpen := by
  unfold post
  split <;> rfl

@[simp] theorem registry_postAll (generations : List Nat) (s : Station) :
    (s.postAll generations).registry = s.registry := by
  induction generations generalizing s with
  | nil => rfl
  | cons generation rest ih => exact (ih _).trans (registry_post generation s)

theorem inbox_postAll (generations : List Nat) (s : Station) (opened : s.isOpen = true) :
    (s.postAll generations).inbox = s.inbox ++ generations := by
  induction generations generalizing s with
  | nil => exact (List.append_nil _).symm
  | cons generation rest ih =>
    have posted : s.post generation = { s with inbox := s.inbox ++ [generation] } := if_pos opened
    apply (ih (s.post generation) ((isOpen_post generation s).trans opened)).trans
    rw [posted, List.append_assoc, List.singleton_append]

theorem postAll_closed (generations : List Nat) (s : Station) (closed : s.isOpen = false) :
    s.postAll generations = s := by
  induction generations with
  | nil => rfl
  | cons generation rest ih =>
    have same : s.post generation = s := if_neg (by simp [closed])
    change (s.post generation).postAll rest = s
    rw [same, ih]

theorem inbox_postAll_sublist (generations : List Nat) (s : Station) :
    (s.postAll generations).inbox.Sublist (s.inbox ++ generations) := by
  cases opened : s.isOpen with
  | true =>
    have posted := inbox_postAll generations s opened
    exact posted ▸ .refl _
  | false =>
    rw [postAll_closed generations s opened]
    exact List.sublist_append_left _ _

@[simp] theorem isOpen_postAll (generations : List Nat) (s : Station) :
    (s.postAll generations).isOpen = s.isOpen := by
  induction generations generalizing s with
  | nil => rfl
  | cons generation rest ih => exact (ih _).trans (isOpen_post generation s)

end Station

/-- The generations that hooks post to one station. -/
def generationsFor (station : Nat) (hooks : List DeathHook) : List Nat :=
  hooks.filterMap fun hook => if hook.station = station then some hook.generation else none

theorem mem_generationsFor {j g : Nat} {hooks : List DeathHook} :
    g ∈ generationsFor j hooks ↔ ⟨j, g⟩ ∈ hooks := by
  simp only [generationsFor, List.mem_filterMap, Option.ite_none_right_eq_some, Option.some.injEq]
  constructor
  · rintro ⟨⟨_, _⟩, here, rfl, rfl⟩
    exact here
  · intro here
    exact ⟨_, here, rfl, rfl⟩

theorem count_generationsFor (j g : Nat) (hooks : List DeathHook) :
    (generationsFor j hooks).count g = hooks.count ⟨j, g⟩ := by
  induction hooks with
  | nil => rfl
  | cons hook rest ih =>
    obtain ⟨k, generation⟩ := hook
    by_cases own : k = j
    · subst own
      simpa [generationsFor, List.count_cons] using ih
    · simpa [generationsFor, List.count_cons, own] using ih

/-- Every hook posts to its own station. -/
def postHooks (hooks : List DeathHook) (stations : List Station) : List Station :=
  hooks.foldl (fun stations hook =>
    stations.modify hook.station (Station.post hook.generation)) stations

theorem getElem?_postHooks (hooks : List DeathHook) (stations : List Station) (j : Nat) :
    (postHooks hooks stations)[j]? =
      (stations[j]?).map (Station.postAll (generationsFor j hooks)) := by
  induction hooks generalizing stations with
  | nil => exact Option.map_id'.symm
  | cons hook rest ih =>
    obtain ⟨k, generation⟩ := hook
    apply (ih (stations.modify k (Station.post generation))).trans
    rw [List.getElem?_modify, Option.map_eq_map, Option.map_map]
    refine congrArg (Option.map · _) (funext fun s => ?_)
    by_cases own : k = j
    · simp [generationsFor, Station.postAll, own]
    · simp [generationsFor, own]

end ScanSlot
