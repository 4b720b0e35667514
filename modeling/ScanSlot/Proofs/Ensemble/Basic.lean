import ScanSlot.Proofs.Station.History

/-! Registries among peers and callbacks of which nothing is known. A hook that has been handed out
is in nobody's custody: it may fire once at any moment, in the middle of an operation or long after
its registry is gone, whatever its peer has said about linking or unlinking it. -/
namespace ScanSlot

open Dialogue (Path)

/-- Registries, and the hooks they have handed out that have not fired. -/
structure Ensemble where
  stations : List Station := []
  hooks : List DeathHook := []

/-- While an operation lasts, its calls are answered and hooks fire in between. -/
inductive Incident where
  | said (exchange : Exchange)
  | fired (hook : DeathHook)

namespace Incident

def exchange? : Incident → Option Exchange
  | said x => some x
  | fired _ => none

def hook? : Incident → Option DeathHook
  | said _ => none
  | fired hook => some hook

end Incident

def Exchange.linked? : Exchange → Option Nat
  | link _ generation _ => some generation
  | _ => none

/-- The generations of the hooks handed out, whether or not they could be linked. -/
def linked (xs : List Exchange) : List Nat :=
  xs.filterMap Exchange.linked?

namespace Ensemble

def onStation (i : Nat) (f : Station → Station) (e : Ensemble) : Ensemble :=
  { e with stations := e.stations.modify i f }

def hand (hook : DeathHook) (e : Ensemble) : Ensemble :=
  { e with hooks := e.hooks ++ [hook] }

def fire (hook : DeathHook) (e : Ensemble) : Ensemble where
  stations := e.stations.modify hook.station (Station.post hook.generation)
  hooks := e.hooks.erase hook

/-- A dialogue of one station. -/
inductive Holds {α : Type} (i : Nat) :
    Dialogue α → Ensemble → List Incident → α → Ensemble → Prop where
  | done (a : α) (e : Ensemble) : Holds i (.done a) e [] a e
  | link {peer : PeerRef} {generation : Nat} {next : Except Fault Nat → Dialogue α}
      {e e' : Ensemble} {xs : List Incident} {a : α} (answer : Except Fault Nat)
      (rest : Holds i (next answer) (e.hand ⟨i, generation⟩) xs a e') :
      Holds i (.link peer generation next) e (.said (.link peer generation answer) :: xs) a e'
  | unlink {peer : PeerRef} {l : Nat} {next : Except Fault Unit → Dialogue α}
      {e e' : Ensemble} {xs : List Incident} {a : α} (answer : Except Fault Unit)
      (rest : Holds i (next answer) e xs a e') :
      Holds i (.unlink peer l next) e (.said (.unlink peer l answer) :: xs) a e'
  | notify {callback : CallbackRef} {event : Event} {next : Except Fault Unit → Dialogue α}
      {e e' : Ensemble} {xs : List Incident} {a : α} (answer : Except Fault Unit)
      (rest : Holds i (next answer) e xs a e') :
      Holds i (.notify callback event next) e (.said (.notify callback event answer) :: xs) a e'
  | log {entry : LogEntry} {next : Dialogue α} {e e' : Ensemble} {xs : List Incident} {a : α}
      (rest : Holds i next e xs a e') :
      Holds i (.log entry next) e (.said (.log entry) :: xs) a e'
  | fires {d : Dialogue α} {e e' : Ensemble} {hook : DeathHook} {xs : List Incident} {a : α}
      (held : hook ∈ e.hooks) (rest : Holds i d (e.fire hook) xs a e') :
      Holds i d e (.fired hook :: xs) a e'

variable {α : Type} {i : Nat} {d : Dialogue α} {e e' : Ensemble} {xs : List Incident} {a : α}

theorem holds_path (holds : Holds i d e xs a e') : Path d (xs.filterMap Incident.exchange?) a := by
  induction holds with
  | done a => exact .done a
  | link answer _ ih => exact .link answer ih
  | unlink answer _ ih => exact .unlink answer ih
  | notify answer _ ih => exact .notify answer ih
  | log _ ih => exact .log ih
  | fires _ _ ih => exact ih

theorem holds_stations (holds : Holds i d e xs a e') :
    e'.stations = postHooks (xs.filterMap Incident.hook?) e.stations := by
  induction holds with
  | done => rfl
  | link _ _ ih | unlink _ _ ih | notify _ _ ih | log _ ih | fires _ _ ih => exact ih

/-- No hook is lost, and none fires that was not handed out. -/
theorem holds_hooks (holds : Holds i d e xs a e') :
    (xs.filterMap Incident.hook? ++ e'.hooks).Perm
      (e.hooks ++ (linked (xs.filterMap Incident.exchange?)).map (DeathHook.mk i)) := by
  induction holds with
  | done a e => exact .of_eq (List.append_nil _).symm
  | @link peer generation next e e' xs a answer _ ih =>
    have joined := List.append_assoc e.hooks [⟨i, generation⟩]
      ((linked (xs.filterMap Incident.exchange?)).map (DeathHook.mk i))
    exact ih.trans (.of_eq joined)
  | unlink _ _ ih | notify _ _ ih | log _ ih => exact ih
  | @fires d e e' hook xs a held _ ih =>
    have spent := (List.perm_cons_erase held).symm
    exact (ih.cons hook).trans (spent.append_right _)

/-- Every path can be taken, also while nothing fires. -/
theorem holds_of_path {xs : List Exchange} (path : Path d xs a) (e : Ensemble) :
    Holds i d e (xs.map .said) a
      { e with hooks := e.hooks ++ (linked xs).map (DeathHook.mk i) } := by
  induction path generalizing e with
  | done a =>
    have same : e = { e with hooks := e.hooks ++ [] } := by rw [List.append_nil]
    exact same ▸ .done a e
  | @link peer generation next xs a answer _ ih =>
    have rest := ih (e.hand ⟨i, generation⟩)
    simp only [hand, List.append_assoc] at rest
    exact .link answer rest
  | unlink answer _ ih => exact .unlink answer (ih e)
  | notify answer _ ih => exact .notify answer (ih e)
  | log _ ih => exact .log (ih e)

/-- One thing that happens to an ensemble. -/
inductive Deed where
  | opened
  | turned (station : Nat) (turn : Turn) (fired : List DeathHook)
  | fired (hook : DeathHook)

namespace Deed

def turn? (i : Nat) : Deed → Option Turn
  | turned j turn _ => if j = i then some turn else none
  | _ => none

theorem turn?_self (i : Nat) (turn : Turn) (fired : List DeathHook) :
    (turned i turn fired).turn? i = some turn :=
  if_pos rfl

theorem turn?_other {i j : Nat} (other : i ≠ j) (turn : Turn) (fired : List DeathHook) :
    (turned i turn fired).turn? j = none :=
  if_neg other

theorem eq_turned {i : Nat} {deed : Deed} {turn : Turn} (own : deed.turn? i = some turn) :
    ∃ fired, deed = .turned i turn fired := by
  cases deed with
  | opened | fired => contradiction
  | turned j turn' fired =>
    by_cases same : j = i
    · subst same
      rw [turn?_self, Option.some.injEq] at own
      exact ⟨fired, own ▸ rfl⟩
    · rw [turn?_other same] at own
      contradiction

def firings : Deed → List DeathHook
  | opened => []
  | turned _ _ hooks => hooks
  | fired hook => [hook]

def handed : Deed → List DeathHook
  | turned i turn _ => (linked turn.exchanges).map (DeathHook.mk i)
  | _ => []

/-- What a deed makes of one station. -/
def leaves (j : Nat) (deed : Deed) (s : Station) : Station :=
  match deed.turn? j with
  | some turn => turn.operation.finish turn.after ((turn.operation.begin s).postAll turn.posted)
  | none => s.postAll (generationsFor j deed.firings)

theorem leaves_own {j : Nat} {deed : Deed} {turn : Turn} (own : deed.turn? j = some turn)
    (s : Station) : deed.leaves j s =
      turn.operation.finish turn.after ((turn.operation.begin s).postAll turn.posted) := by
  rw [leaves, own]

theorem leaves_other {j : Nat} {deed : Deed} (other : deed.turn? j = none) (s : Station) :
    deed.leaves j s = s.postAll (generationsFor j deed.firings) := by
  rw [leaves, other]

end Deed

inductive Step : Ensemble → Deed → Ensemble → Prop where
  | opens (e : Ensemble) : Step e .opened { e with stations := e.stations ++ [{}] }
  | turns {e e' : Ensemble} {i : Nat} {s : Station} {op : Operation} {xs : List Incident}
      {out : Outcome} {r : Registry} (there : e.stations[i]? = some s) (opened : s.isOpen = true)
      (holds : Holds i (op.ask s) (e.onStation i op.begin) xs (out, r) e') :
      Step e
        (.turned i ⟨op, s.registry, xs.filterMap Incident.exchange?, out, r,
          generationsFor i (xs.filterMap Incident.hook?)⟩ (xs.filterMap Incident.hook?))
        (e'.onStation i (op.finish r))
  | fires {e : Ensemble} {hook : DeathHook} (held : hook ∈ e.hooks) :
      Step e (.fired hook) (e.fire hook)

theorem Step.of_course {e : Ensemble} {i : Nat} {s : Station} (op : Operation)
    {xs : List Exchange} {out : Outcome} {r : Registry} (there : e.stations[i]? = some s)
    (opened : s.isOpen = true) (course : op.Course s xs out r) :
    Step e (.turned i ⟨op, s.registry, xs, out, r, []⟩ [])
      ⟨(e.stations.modify i op.begin).modify i (op.finish r),
        e.hooks ++ (linked xs).map (DeathHook.mk i)⟩ := by
  have holds := holds_of_path (i := i) (Operation.path_ask.mpr course) (e.onStation i op.begin)
  have step := Step.turns there opened holds
  have said : (xs.map Incident.said).filterMap Incident.exchange? = xs := by
    simp [List.filterMap_map, Function.comp_def, Incident.exchange?]
  have silent : (xs.map Incident.said).filterMap Incident.hook? = [] := by
    simp [List.filterMap_map, Function.comp_def, Incident.hook?]
  rw [said, silent] at step
  exact step

/-- From nothing, one deed after another. -/
inductive Runs : List Deed → Ensemble → Prop where
  | nil : Runs [] {}
  | snoc {deeds : List Deed} {deed : Deed} {e e' : Ensemble} (runs : Runs deeds e)
      (step : Step e deed e') : Runs (deeds ++ [deed]) e'

theorem step_hooks {deed : Deed} (step : Step e deed e') :
    (deed.firings ++ e'.hooks).Perm (e.hooks ++ deed.handed) := by
  cases step with
  | opens => exact .of_eq (List.append_nil _).symm
  | turns _ _ holds =>
    have kept := holds_hooks holds
    exact kept
  | fires held =>
    refine (List.perm_cons_erase held).symm.trans (.of_eq ?_)
    exact (List.append_nil _).symm

/-- A station goes its own way and only hears of its own hooks. -/
theorem step_stations {deed : Deed} (step : Step e deed e') (j : Nat) :
    e'.stations[j]? = (e.stations[j]?).map (deed.leaves j) ∨
      deed = .opened ∧ e.stations[j]? = none ∧ e'.stations[j]? = some {} := by
  cases step with
  | opens =>
    have same : (Deed.opened.leaves j) = id := rfl
    rw [same, Option.map_id_fun, id_eq]
    cases there : e.stations[j]? with
    | some s => exact .inl (getElem?_concat_of_some _ there)
    | none =>
      cases new : (e.stations ++ [({} : Station)])[j]? with
      | none => exact .inl rfl
      | some s =>
        rcases getElem?_concat_some new with ⟨_, rfl⟩ | old
        · exact .inr ⟨rfl, rfl, rfl⟩
        · rw [there] at old
          contradiction
  | @turns e₁ i s op xs out r there opened holds =>
    refine .inl ?_
    simp only [onStation, List.getElem?_modify, holds_stations holds, getElem?_postHooks,
      Option.map_eq_map, Option.map_map]
    refine congrArg (Option.map · _) (funext fun s => ?_)
    by_cases own : i = j
    · simp [Deed.leaves, Deed.turn?, own]
    · simp [Deed.leaves, Deed.turn?, Deed.firings, own]
  | @fires hook held => exact .inl (getElem?_postHooks [hook] e.stations j)

/-- Each turn is one that its station takes by itself. -/
theorem step_takes {i : Nat} {turn : Turn} {fired : List DeathHook}
    (step : Step e (.turned i turn fired) e') :
    ∃ s t, e.stations[i]? = some s ∧ turn.before = s.registry ∧
      turn.posted = generationsFor i fired ∧ Station.Takes s turn t := by
  cases step with
  | turns there opened holds =>
    exact ⟨_, _, there, rfl, rfl, .intro opened (holds_path holds) _⟩

end Ensemble
end ScanSlot
