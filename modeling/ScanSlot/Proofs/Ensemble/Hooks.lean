import ScanSlot.Proofs.Ensemble.Tally
import Mathlib.Data.List.Nodup

/-! A death hook ends the subscription it was linked for or nothing at all, whatever peers do with
the hooks they are given. -/
namespace ScanSlot

open Dialogue (Path)

/-- The notices that an operation applies, if it applies any. -/
def Operation.notices (s : Station) : Operation → Option (List Nat)
  | peerLost generation => some [generation]
  | process => some s.inbox
  | _ => none

namespace Ensemble

/-- The invariant of all runs. Hooks are neither lost nor doubled, and a new one has a number that
no other of its station has. -/
structure Sound (deeds : List Deed) (e : Ensemble) : Prop where
  fits : ∀ (i : Nat) (s : Station), e.stations[i]? = some s → (tally i deeds).Fits s.registry
  unopened : ∀ i : Nat, e.stations[i]? = none → tally i deeds = {}
  below : ∀ hook ∈ handed deeds, hook.generation ≤ (tally hook.station deeds).attempts
  nodup : (handed deeds).Nodup
  custody : (firings deeds ++ e.hooks).Perm (handed deeds)
  queued : ∀ (i : Nat) (s : Station), e.stations[i]? = some s →
    s.inbox.Sublist (generationsFor i (firings deeds))

theorem sound_nil : Sound [] {} where
  fits _ _ there := by simp at there
  unopened _ _ := rfl
  below _ here := absurd here List.not_mem_nil
  nodup := List.nodup_nil
  custody := .refl _
  queued _ _ there := by simp at there

variable {deeds : List Deed} {deed : Deed} {e e' : Ensemble}

theorem fits_turned {i : Nat} {turn : Turn} {fired : List DeathHook} (sound : Sound deeds e)
    (step : Step e (.turned i turn fired) e') :
    (linked turn.exchanges = if turn.tries then [(tally i deeds).attempts + 1] else []) ∧
      ((tally i deeds).after turn).Fits turn.after := by
  obtain ⟨s, t, there, before, _, takes⟩ := step_takes step
  obtain ⟨op, _, xs, out, r, posted⟩ := turn
  obtain rfl : _ = s.registry := before
  exact Tally.after_course takes.course (sound.fits i s there) posted

theorem fits_step (sound : Sound deeds e) (step : Step e deed e') (i : Nat) (s : Station)
    (there : e'.stations[i]? = some s) : (tally i (deeds ++ [deed])).Fits s.registry := by
  rcases step_stations step i with left | ⟨rfl, absent, new⟩
  · rw [left] at there
    obtain ⟨old, met, rfl⟩ := Option.map_eq_some_iff.mp there
    cases own : deed.turn? i with
    | none =>
      rw [tally_other own]
      rw [Deed.leaves_other own, Station.registry_postAll]
      exact sound.fits i old met
    | some turn =>
      obtain ⟨fired, rfl⟩ := Deed.eq_turned own
      rw [tally_own own]
      rw [Deed.leaves_own own, Station.registry_finish]
      exact (fits_turned sound step).2
  · rw [new] at there
    obtain rfl := Option.some.inj there
    rw [tally_other rfl, sound.unopened i absent]
    exact ⟨rfl, rfl⟩

/-- At most one hook is new, and its number is. -/
theorem handed_cases (sound : Sound deeds e) (step : Step e deed e') :
    deed.handed = [] ∨ ∃ i, deed.handed = [⟨i, (tally i deeds).attempts + 1⟩] ∧
      (tally i (deeds ++ [deed])).attempts = (tally i deeds).attempts + 1 := by
  cases deed with
  | opened | fired => exact .inl rfl
  | turned i turn fired =>
    have made := (fits_turned sound step).1
    have counted : (tally i (deeds ++ [.turned i turn fired])).attempts = _ :=
      congrArg Tally.attempts (tally_own (Deed.turn?_self i turn fired))
    rw [Tally.attempts_after] at counted
    by_cases tries : turn.tries = true
    · rw [if_pos tries] at made counted
      refine .inr ⟨i, ?_, counted⟩
      rw [Deed.handed, made]
      rfl
    · rw [if_neg tries] at made
      refine .inl ?_
      rw [Deed.handed, made]
      rfl

theorem handed_step (sound : Sound deeds e) (step : Step e deed e') :
    (handed (deeds ++ [deed])).Nodup ∧
      ∀ hook ∈ handed (deeds ++ [deed]),
        hook.generation ≤ (tally hook.station (deeds ++ [deed])).attempts := by
  have old : ∀ hook ∈ handed deeds,
      hook.generation ≤ (tally hook.station (deeds ++ [deed])).attempts := by
    intro hook here
    exact Nat.le_trans (sound.below hook here) (attempts_le _ _ _)
  rw [handed_snoc]
  rcases handed_cases sound step with none | ⟨i, one, counted⟩
  · rw [none, List.append_nil]
    exact ⟨sound.nodup, old⟩
  · rw [one]
    constructor
    · refine List.nodup_append.mpr ⟨sound.nodup, List.nodup_singleton _, ?_⟩
      rintro hook here _ new rfl
      obtain rfl := List.mem_singleton.mp new
      exact absurd (sound.below _ here) (Nat.not_succ_le_self _)
    · intro hook here
      rcases List.mem_append.mp here with here | new
      · exact old hook here
      · obtain rfl := List.mem_singleton.mp new
        exact Nat.le_of_eq counted.symm

theorem begin_inbox_sublist (op : Operation) (s : Station) :
    (op.begin s).inbox.Sublist s.inbox := by
  cases op with
  | process => exact List.nil_sublist _
  | _ => exact .refl _

theorem finish_inbox_sublist (op : Operation) (r : Registry) (s : Station) :
    (op.finish r s).inbox.Sublist s.inbox := by
  cases op with
  | close => exact List.nil_sublist _
  | _ => exact .refl _

theorem queued_step (sound : Sound deeds e) (step : Step e deed e') (i : Nat) (s : Station)
    (there : e'.stations[i]? = some s) :
    s.inbox.Sublist (generationsFor i (firings (deeds ++ [deed]))) := by
  have joined : generationsFor i (firings (deeds ++ [deed])) =
      generationsFor i (firings deeds) ++ generationsFor i deed.firings := by
    rw [firings_snoc]
    exact List.filterMap_append
  rcases step_stations step i with left | ⟨_, _, new⟩
  · rw [left] at there
    obtain ⟨old, met, rfl⟩ := Option.map_eq_some_iff.mp there
    have before := sound.queued i old met
    rw [joined]
    cases own : deed.turn? i with
    | none =>
      rw [Deed.leaves_other own]
      exact (Station.inbox_postAll_sublist _ _).trans (before.append (.refl _))
    | some turn =>
      obtain ⟨fired, rfl⟩ := Deed.eq_turned own
      obtain ⟨_, _, _, _, posted, _⟩ := step_takes step
      rw [Deed.leaves_own own, posted]
      have began := (begin_inbox_sublist turn.operation old).trans before
      apply (finish_inbox_sublist _ _ _).trans
      exact (Station.inbox_postAll_sublist _ _).trans (began.append (.refl _))
  · rw [new] at there
    obtain rfl := Option.some.inj there
    exact List.nil_sublist _

theorem sound_step (sound : Sound deeds e) (step : Step e deed e') :
    Sound (deeds ++ [deed]) e' where
  fits := fits_step sound step
  unopened i absent := by
    have old : e.stations[i]? = none := by
      rcases step_stations step i with left | ⟨_, old, _⟩
      · rw [left] at absent
        exact Option.map_eq_none_iff.mp absent
      · exact old
    cases own : deed.turn? i with
    | none => exact (tally_other own).trans (sound.unopened i old)
    | some turn =>
      obtain ⟨fired, rfl⟩ := Deed.eq_turned own
      obtain ⟨s, _, there, _⟩ := step_takes step
      rw [old] at there
      contradiction
  below := (handed_step sound step).2
  nodup := (handed_step sound step).1
  custody := by
    rw [firings_snoc, handed_snoc, List.append_assoc]
    apply ((step_hooks step).append_left _).trans
    rw [← List.append_assoc]
    exact sound.custody.append_right _
  queued := queued_step sound step

theorem runs_sound (runs : Runs deeds e) : Sound deeds e := by
  induction runs with
  | nil => exact sound_nil
  | snoc _ step ih => exact sound_step ih step

/-! Notices are applied. -/

theorem applied_of_fits {t : Tally} {r₀ r r' : Registry} {earlier : List Nat} {k : Nat}
    {xs ys : List Exchange} (fits : t.Fits r₀) (before : Path (r₀.applyNotices earlier) xs r)
    (path : Path (r.peerLost k) ys r') :
    if r.current.isSome ∧ t.standing = some k then r' = r.emptied
    else r' = r ∧ ∀ y ∈ ys, ∃ entry, y = .log entry := by
  have same : r.current ≠ none → r = r₀ := by
    intro occupied
    cases Registry.path_applyNotices.mp before with
    | vacant | stale => rfl
    | lost => exact absurd rfl occupied
  cases Registry.path_peerLost.mp path with
  | vacant vacant => simp [vacant]
  | @stale active occupied other =>
    obtain rfl := same (by simp [occupied])
    have standing := fits.standing occupied
    simp [occupied, standing, other]
  | @lost active released occupied generation =>
    obtain rfl := same (by simp [occupied])
    have standing := fits.standing occupied
    simp [occupied, standing, generation]

theorem exchanges_of_foreign {t : Tally} {s : Station} {op : Operation} {xs : List Exchange}
    {out : Outcome} {r : Registry} {notices : List Nat} (course : op.Course s xs out r)
    (fits : t.Fits s.registry) (applies : op.notices s = some notices)
    (foreign : ∀ k ∈ notices, t.standing ≠ some k) :
    r = s.registry ∧ ∀ x ∈ xs, ∃ entry, x = .log entry := by
  have own {active : Subscription} (occupied : s.registry.current = some active) :
      active.generation ∉ notices := by
    intro here
    exact foreign _ here (fits.standing occupied)
  cases course with
  | subscribe | unsubscribe | deliver | close => contradiction
  | peerLost course =>
    obtain rfl := Option.some.inj applies
    cases course with
    | vacant => exact ⟨rfl, by simp⟩
    | stale => exact ⟨rfl, by simp⟩
    | lost _ occupied same => exact absurd (List.mem_singleton.mpr same) (own occupied)
  | process course =>
    obtain rfl := Option.some.inj applies
    cases course with
    | vacant => exact ⟨rfl, by simp⟩
    | stale => exact ⟨rfl, by simp⟩
    | lost _ _ _ occupied split => exact absurd (by simp [split]) (own occupied)

theorem retired_of_own {t : Tally} {s : Station} {op : Operation} {xs : List Exchange}
    {out : Outcome} {r : Registry} {notices : List Nat} {k : Nat} (course : op.Course s xs out r)
    (fits : t.Fits s.registry) (applies : op.notices s = some notices)
    (own : t.standing = some k) (here : k ∈ notices) : r = s.registry.emptied := by
  rw [← fits.current, Option.map_eq_some_iff] at own
  obtain ⟨active, occupied, rfl⟩ := own
  cases course with
  | subscribe | unsubscribe | deliver | close => contradiction
  | peerLost course =>
    obtain rfl := Option.some.inj applies
    cases course with
    | vacant vacant =>
      rw [occupied] at vacant
      contradiction
    | stale held other =>
      obtain rfl := Option.some.inj (occupied.symm.trans held)
      exact absurd (List.mem_singleton.mp here) other
    | lost => rfl
  | process course =>
    obtain rfl := Option.some.inj applies
    cases course with
    | vacant vacant =>
      rw [occupied] at vacant
      contradiction
    | stale held absent =>
      obtain rfl := Option.some.inj (occupied.symm.trans held)
      exact absurd here absent
    | lost => rfl

theorem registry_begin (op : Operation) (s : Station) : (op.begin s).registry = s.registry := by
  cases op <;> rfl

theorem finish_self {op : Operation} {s : Station} {notices : List Nat}
    (applies : op.notices s = some notices) (t : Station) : op.finish t.registry t = t := by
  cases op with
  | subscribe | unsubscribe | deliver | close => contradiction
  | peerLost | process => rfl

/-- Where no notice is the standing subscription's own, only the firings in the meantime show. -/
theorem unmoved_of_foreign {i : Nat} {turn : Turn} {fired : List DeathHook} {s : Station}
    {notices : List Nat} (sound : Sound deeds e) (step : Step e (.turned i turn fired) e')
    (there : e.stations[i]? = some s) (applies : turn.operation.notices s = some notices)
    (foreign : ∀ k ∈ notices, (tally i deeds).standing ≠ some k) :
    turn.after = turn.before ∧ (∀ x ∈ turn.exchanges, ∃ entry, x = .log entry) ∧
      e'.stations = postHooks fired (e.stations.modify i turn.operation.begin) ∧
      (fired ++ e'.hooks).Perm e.hooks := by
  obtain ⟨met, t, there', before, posted, takes⟩ := step_takes step
  obtain rfl := Option.some.inj (there.symm.trans there')
  obtain ⟨same, silent⟩ :=
    exchanges_of_foreign takes.course (sound.fits i s there) applies foreign
  refine ⟨same.trans before.symm, silent, ?_, ?_⟩
  · apply List.ext_getElem?
    intro j
    rcases step_stations step j with left | ⟨opened, _⟩
    · rw [left, getElem?_postHooks, List.getElem?_modify]
      by_cases own : i = j
      · subst own
        have kept := finish_self applies
          ((turn.operation.begin s).postAll (generationsFor i fired))
        rw [Station.registry_postAll, registry_begin] at kept
        have leaves := Deed.leaves_own (Deed.turn?_self i turn fired) s
        rw [posted, same, kept] at leaves
        simp [there, leaves]
      · rw [funext (Deed.leaves_other (Deed.turn?_other own turn fired))]
        simp [Deed.firings, own]
    · contradiction
  · have quiet : (Deed.turned i turn fired).handed = [] := by
      have none_linked : linked turn.exchanges = [] := by
        apply List.filterMap_eq_nil_iff.mpr
        intro x here
        obtain ⟨entry, rfl⟩ := silent x here
        rfl
      rw [Deed.handed, none_linked]
      rfl
    have kept := step_hooks step
    rw [quiet, List.append_nil] at kept
    exact kept

theorem turned_handed {earlier later : List Deed} {i : Nat} {turn : Turn}
    {fired : List DeathHook} (runs : Runs deeds e)
    (split : deeds = earlier ++ .turned i turn fired :: later) :
    linked turn.exchanges = if turn.tries then [(tally i earlier).attempts + 1] else [] := by
  induction runs generalizing later with
  | nil => simp at split
  | @snoc deeds deed e e' runs step ih =>
    rcases later.eq_nil_or_concat with rfl | ⟨later, last, rfl⟩
    · obtain ⟨rfl, same⟩ := List.append_inj' split rfl
      obtain rfl := List.singleton_inj.mp same
      exact (fits_turned (runs_sound runs) step).1
    · rw [List.concat_eq_append, ← List.cons_append, ← List.append_assoc] at split
      obtain ⟨same, _⟩ := List.append_inj' split rfl
      exact ih same

/-- What hooks can do at any point of any run. -/
structure Faithful (deeds : List Deed) (e : Ensemble) : Prop where
  /-- The attempts of a station, numbered from one, hand out a hook each, with that number; nothing
  else hands out any. -/
  made : ∀ (earlier later : List Deed) (i : Nat) (turn : Turn) (fired : List DeathHook),
    deeds = earlier ++ .turned i turn fired :: later →
    linked turn.exchanges = if turn.tries then [(tally i earlier).attempts + 1] else []
  /-- Hooks that have fired and hooks that may still fire are all different, and handed out. -/
  once : (firings deeds ++ e.hooks).Nodup ∧ ∀ hook ∈ firings deeds ++ e.hooks, hook ∈ handed deeds
  /-- A hook that fires posts its number to its own station if that is open, and does no more. -/
  posts : ∀ hook ∈ e.hooks, ∀ (j : Nat) (s : Station), e.stations[j]? = some s →
    (e.fire hook).stations[j]? = some
      (if hook.station = j ∧ s.isOpen then { s with inbox := s.inbox ++ [hook.generation] } else s)
  /-- No number is queued twice, and none without its hook having fired. -/
  queued : ∀ (i : Nat) (s : Station), e.stations[i]? = some s →
    s.inbox.Nodup ∧ ∀ generation ∈ s.inbox, ⟨i, generation⟩ ∈ firings deeds
  /-- The generation in the slot is the number of the attempt that was admitted to it, which is the
  latest. -/
  standing : ∀ (i : Nat) (s : Station), e.stations[i]? = some s →
    s.registry.current.map Subscription.generation = (tally i deeds).standing ∧
      s.registry.nextGeneration = (tally i deeds).attempts + 1 ∧
      ∀ active, s.registry.current = some active →
        active.generation + 1 = s.registry.nextGeneration
  /-- A notice, whatever others were applied before it, empties the slot if the subscription is
  still there and was admitted by the attempt of that number. Otherwise the registry stays as it
  is and nobody is called. -/
  applied : ∀ (i : Nat) (s : Station), e.stations[i]? = some s →
    ∀ earlier xs r generation ys r', Path (s.registry.applyNotices earlier) xs r →
      Path (r.peerLost generation) ys r' →
      if r.current.isSome ∧ (tally i deeds).standing = some generation then r' = r.emptied
      else r' = r ∧ ∀ y ∈ ys, ∃ entry, y = .log entry
  /-- A turn that applies the notice of the standing attempt empties the slot. -/
  retired : ∀ (i : Nat) (turn : Turn) (fired : List DeathHook) (e' : Ensemble) (s : Station),
    Step e (.turned i turn fired) e' → e.stations[i]? = some s →
    ∀ notices, turn.operation.notices s = some notices →
      ∀ k ∈ notices, (tally i deeds).standing = some k → turn.after = turn.before.emptied
  /-- A turn that applies other notices takes them out of the inbox and changes nothing else in any
  station, and all its entries are for the log; what fires in the meantime posts as ever. -/
  unmoved : ∀ (i : Nat) (turn : Turn) (fired : List DeathHook) (e' : Ensemble) (s : Station),
    Step e (.turned i turn fired) e' → e.stations[i]? = some s →
    ∀ notices, turn.operation.notices s = some notices →
      (∀ k ∈ notices, (tally i deeds).standing ≠ some k) →
      turn.after = turn.before ∧ (∀ x ∈ turn.exchanges, ∃ entry, x = .log entry) ∧
        e'.stations = postHooks fired (e.stations.modify i turn.operation.begin) ∧
        (fired ++ e'.hooks).Perm e.hooks

/-- A death hook can only end the subscription it was linked for. -/
theorem hook_ends_its_own (runs : Runs deeds e) : Faithful deeds e := by
  have sound := runs_sound runs
  have fired_nodup : (firings deeds ++ e.hooks).Nodup := sound.custody.nodup_iff.mpr sound.nodup
  refine ⟨?made, ?once, ?posts, ?queued, ?standing, ?applied, ?retired, ?unmoved⟩
  case made =>
    intro earlier later i turn fired split
    exact turned_handed runs split
  case once =>
    refine ⟨fired_nodup, ?_⟩
    intro hook here
    exact sound.custody.mem_iff.mp here
  case posts =>
    intro hook held j s there
    have posted : (e.fire hook).stations[j]? = _ := List.getElem?_modify ..
    rw [posted, there]
    unfold Station.post
    by_cases own : hook.station = j
    · simp [own]
    · simp [own]
  case queued =>
    intro i s there
    have kept := sound.queued i s there
    constructor
    · refine kept.nodup (List.Nodup.filterMap ?_ fired_nodup.of_append_left)
      rintro ⟨j, g⟩ ⟨j', g'⟩ k first second
      simp only [Option.mem_def, Option.ite_none_right_eq_some, Option.some.injEq] at first second
      obtain ⟨rfl, rfl⟩ := first
      obtain ⟨rfl, rfl⟩ := second
      rfl
    · intro g here
      exact mem_generationsFor.mp (kept.subset here)
  case standing =>
    intro i s there
    have fits := sound.fits i s there
    refine ⟨fits.current, fits.next, ?_⟩
    intro active occupied
    rw [tally_latest i deeds _ (fits.standing occupied)]
    exact fits.next.symm
  case applied =>
    intro i s there _ _ _ _ _ _ before path
    exact applied_of_fits (sound.fits i s there) before path
  case retired =>
    intro i turn fired e' s step there notices applies k here own
    obtain ⟨_, _, there', before, _, takes⟩ := step_takes step
    obtain rfl := Option.some.inj (there.symm.trans there')
    rw [before]
    exact retired_of_own takes.course (sound.fits i s there) applies own here
  case unmoved =>
    intro i turn fired e' s step there _ applies
    exact unmoved_of_foreign sound step there applies

/-- A hook that was taken back fires when the next attempt has been admitted, and is ignored. -/
theorem hook_ends_its_own_late :
    let ssid : Ssid := ⟨[0x6E, 0x65, 0x74], by decide⟩
    let q := Request.forOne ⟨1⟩ ⟨0, "peer"⟩ ⟨0, "callback"⟩ ssid
    ∃ (deeds : List Deed) (e e' : Ensemble) (turn : Turn),
      Runs deeds e ∧ Faithful deeds e ∧
      e.stations = [⟨⟨some (q.admitted 8 2), 0, 3⟩, [1], true⟩] ∧ e.hooks = [⟨0, 2⟩] ∧
      tally 0 deeds = ⟨2, some 2⟩ ∧ firings deeds = [⟨0, 1⟩] ∧
      Step e (.turned 0 turn []) e' ∧ turn.operation = .process ∧ turn.after = turn.before ∧
      e'.stations = [⟨⟨some (q.admitted 8 2), 0, 3⟩, [], true⟩] := by
  intro ssid q
  let held : Station := ⟨⟨some (q.admitted 8 2), 0, 3⟩, [], true⟩
  have opened : Runs _ ⟨[{}], []⟩ := .snoc .nil (.opens {})
  have failed : Runs _ ⟨[⟨⟨none, 0, 2⟩, [], true⟩], [⟨0, 1⟩]⟩ :=
    opened.snoc (.of_course (i := 0) (s := {}) (.subscribe q) rfl rfl
      (.subscribe (.successNotSent 7 .callbackBufferFull (.ok ()) rfl)))
  have admitted : Runs _ ⟨[held], [⟨0, 1⟩, ⟨0, 2⟩]⟩ :=
    failed.snoc (.of_course (i := 0) (s := ⟨⟨none, 0, 2⟩, [], true⟩) (.subscribe q) rfl rfl
      (.subscribe (.admitted 8 rfl)))
  have early : (⟨0, 1⟩ : DeathHook) ∈ (⟨[held], [⟨0, 1⟩, ⟨0, 2⟩]⟩ : Ensemble).hooks :=
    List.mem_cons_self
  have fired : Runs _ ⟨[{ held with inbox := [1] }], [⟨0, 2⟩]⟩ := admitted.snoc (.fires early)
  have step : Step ⟨[{ held with inbox := [1] }], [⟨0, 2⟩]⟩ _ ⟨[held], [⟨0, 2⟩]⟩ :=
    .of_course (i := 0) (s := { held with inbox := [1] }) .process rfl rfl
      (.process (.stale rfl (by decide)))
  have faithful := hook_ends_its_own fired
  have same := (faithful.unmoved _ _ _ _ _ step rfl [1] rfl (by decide)).1
  exact ⟨_, _, _, _, fired, faithful, rfl, rfl, rfl, rfl, step, rfl, same, rfl⟩

end Ensemble
end ScanSlot
