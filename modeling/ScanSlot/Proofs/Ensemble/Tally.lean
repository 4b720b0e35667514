import ScanSlot.Proofs.Ensemble.Basic

/-! Attempts to subscribe, counted from outside. The generations of a registry turn out to be these
counts, and each attempt hands out one hook with its number. -/
namespace ScanSlot

/-- An attempt to subscribe that finds the slot empty. -/
def Turn.tries (turn : Turn) : Bool :=
  match turn.operation with
  | .subscribe _ => turn.before.current.isNone
  | _ => false

/-- The attempts of a registry so far, and which of them admitted the subscription that is in the
slot now. -/
structure Tally where
  attempts : Nat := 0
  standing : Option Nat := none
  deriving DecidableEq, Repr

namespace Tally

/-- Goes by what was asked and answered and by whether the slot is empty. -/
def after (t : Tally) (turn : Turn) : Tally :=
  if turn.tries then
    { attempts := t.attempts + 1
      standing := if turn.outcome = .decided true then some (t.attempts + 1) else none }
  else { t with standing := if turn.after.current.isNone then none else t.standing }

/-- The generations of the registry are the numbers of its attempts. -/
structure Fits (t : Tally) (r : Registry) : Prop where
  next : r.nextGeneration = t.attempts + 1
  current : r.current.map Subscription.generation = t.standing

theorem Fits.standing {t : Tally} {r : Registry} {active : Subscription} (fits : t.Fits r)
    (occupied : r.current = some active) : t.standing = some active.generation := by
  rw [← fits.current, occupied]
  rfl

end Tally

@[simp] theorem linked_nil : linked [] = [] := rfl

@[simp] theorem linked_append (xs ys : List Exchange) :
    linked (xs ++ ys) = linked xs ++ linked ys :=
  List.filterMap_append

@[simp] theorem linked_link {peer : PeerRef} {generation : Nat} {answer : Except Fault Nat}
    {xs : List Exchange} : linked (.link peer generation answer :: xs) = generation :: linked xs :=
  rfl

@[simp] theorem linked_unlink {peer : PeerRef} {l : Nat} {answer : Except Fault Unit}
    {xs : List Exchange} : linked (.unlink peer l answer :: xs) = linked xs := rfl

@[simp] theorem linked_notify {callback : CallbackRef} {event : Event}
    {answer : Except Fault Unit} {xs : List Exchange} :
    linked (.notify callback event answer :: xs) = linked xs := rfl

@[simp] theorem linked_log {entry : LogEntry} {xs : List Exchange} :
    linked (.log entry :: xs) = linked xs := rfl

@[simp] theorem linked_faultEntries {ε : Type} (entry : Fault → LogEntry)
    (answer : Except Fault ε) : linked (faultEntries entry answer) = [] := by
  cases answer <;> rfl

@[simp] theorem linked_release (active : Subscription) (answer : Except Fault Unit) :
    linked (active.release answer) = [] := by
  simp [Subscription.release]

@[simp] theorem linked_logs {α : Type} (entry : α → LogEntry) (as : List α) :
    linked (as.map fun a => .log (entry a)) = [] := by
  induction as with
  | nil => rfl
  | cons a as ih => exact ih

theorem linked_announces {active : Subscription} {matched : List ScanResult}
    {xs : List Exchange} {answer : Except Fault Unit}
    (announced : Registry.Announces active matched xs answer) : linked xs = [] := by
  cases announced <;> rfl

namespace Tally
variable {t : Tally} {s : Station} {op : Operation} {xs : List Exchange} {out : Outcome}
  {r : Registry}

/-- An operation that is no attempt hands out no hook; it keeps the subscription or ends it. -/
theorem after_other {turn : Turn} (other : turn.tries = false) (fits : t.Fits turn.before)
    (next : turn.after.nextGeneration = turn.before.nextGeneration)
    (left : turn.after.current = none ∨ turn.after.current.map Subscription.generation =
      turn.before.current.map Subscription.generation) : (t.after turn).Fits turn.after := by
  unfold after
  rw [other]
  refine ⟨next.trans fits.next, ?_⟩
  rcases left with empty | kept
  · simp [empty]
  · have standing := kept.trans fits.current
    cases held : turn.after.current with
    | none => simp
    | some active =>
      rw [held] at standing
      simpa using standing

theorem after_attempt {q : Request} {accepted : Bool} {posted : List Nat}
    (course : s.registry.Subscribes q xs accepted r) (vacant : s.registry.current = none)
    (fits : t.Fits s.registry) :
    linked xs = [t.attempts + 1] ∧
      (t.after ⟨.subscribe q, s.registry, xs, .decided accepted, r, posted⟩).Fits r := by
  have tries : Turn.tries ⟨.subscribe q, s.registry, xs, .decided accepted, r, posted⟩ = true := by
    simp [Turn.tries, vacant]
  unfold after
  rw [tries, ← fits.next]
  cases course with
  | rejected _ occupied =>
    rw [vacant] at occupied
    contradiction
  | linkFailed | successNotSent =>
    exact ⟨by simp, rfl, by simp [vacant]⟩
  | admitted => exact ⟨rfl, rfl, rfl⟩

/-- A turn hands out the hook of its attempt, if it is one, and the tally keeps up. -/
theorem after_course (course : op.Course s xs out r) (fits : t.Fits s.registry)
    (posted : List Nat) :
    let turn : Turn := ⟨op, s.registry, xs, out, r, posted⟩
    (linked xs = if turn.tries then [t.attempts + 1] else []) ∧ (t.after turn).Fits r := by
  intro turn
  cases course with
  | subscribe course =>
    cases vacant : s.registry.current with
    | none =>
      have tries : turn.tries = true := by simp [Turn.tries, turn, vacant]
      rw [tries]
      exact after_attempt course vacant fits
    | some active =>
      have other : turn.tries = false := by simp [Turn.tries, turn, vacant]
      rw [other]
      cases course with
      | rejected => exact ⟨by simp, after_other other fits rfl (.inr rfl)⟩
      | linkFailed _ empty | successNotSent _ _ _ empty | admitted _ empty =>
        rw [vacant] at empty
        contradiction
  | unsubscribe course =>
    cases course with
    | refused => exact ⟨rfl, after_other rfl fits rfl (.inr rfl)⟩
    | removed => exact ⟨by simp [turn, Turn.tries], after_other rfl fits rfl (.inl rfl)⟩
  | deliver course =>
    cases course with
    | vacant | unmatched => exact ⟨rfl, after_other rfl fits rfl (.inr rfl)⟩
    | matched _ _ _ announced =>
      refine ⟨?_, after_other rfl fits rfl (.inl rfl)⟩
      simp [turn, Turn.tries, linked_announces announced]
  | peerLost course =>
    cases course with
    | vacant => exact ⟨rfl, after_other rfl fits rfl (.inr rfl)⟩
    | stale => exact ⟨rfl, after_other rfl fits rfl (.inr rfl)⟩
    | lost => exact ⟨by simp [turn, Turn.tries], after_other rfl fits rfl (.inl rfl)⟩
  | process course =>
    cases course with
    | vacant => exact ⟨rfl, after_other rfl fits rfl (.inr rfl)⟩
    | stale => exact ⟨by simp [turn, Turn.tries], after_other rfl fits rfl (.inr rfl)⟩
    | lost => exact ⟨by simp [turn, Turn.tries], after_other rfl fits rfl (.inl rfl)⟩
  | close course =>
    cases course with
    | vacant => exact ⟨rfl, after_other rfl fits rfl (.inl rfl)⟩
    | released => exact ⟨by simp [turn, Turn.tries], after_other rfl fits rfl (.inl rfl)⟩

theorem attempts_after (t : Tally) (turn : Turn) :
    (t.after turn).attempts = if turn.tries then t.attempts + 1 else t.attempts := by
  unfold after
  split <;> rfl

/-- A full slot lets nobody try, so no attempt is later than the one that stands. -/
def Latest (t : Tally) : Prop :=
  ∀ k, t.standing = some k → k = t.attempts

theorem latest_after (latest : t.Latest) (turn : Turn) : (t.after turn).Latest := by
  intro k standing
  unfold after at standing ⊢
  by_cases tries : turn.tries = true
  · rw [if_pos tries] at standing ⊢
    obtain ⟨_, same⟩ := Option.ite_none_right_eq_some.mp standing
    exact (Option.some.inj same).symm
  · rw [if_neg tries] at standing ⊢
    obtain ⟨_, kept⟩ := Option.ite_none_left_eq_some.mp standing
    exact latest k kept

theorem latest_foldl (latest : t.Latest) (turns : List Turn) :
    (turns.foldl after t).Latest := by
  induction turns generalizing t with
  | nil => exact latest
  | cons turn rest ih => exact ih (latest_after latest turn)

end Tally

namespace Ensemble

/-- The turns of one station. -/
def turns (i : Nat) (deeds : List Deed) : List Turn :=
  deeds.filterMap (Deed.turn? i)

def tally (i : Nat) (deeds : List Deed) : Tally :=
  (turns i deeds).foldl Tally.after {}

def handed (deeds : List Deed) : List DeathHook :=
  deeds.flatMap Deed.handed

def firings (deeds : List Deed) : List DeathHook :=
  deeds.flatMap Deed.firings

theorem tally_latest (i : Nat) (deeds : List Deed) : (tally i deeds).Latest := by
  apply Tally.latest_foldl
  intro k standing
  contradiction

theorem tally_own {i : Nat} {deeds : List Deed} {deed : Deed} {turn : Turn}
    (own : deed.turn? i = some turn) :
    tally i (deeds ++ [deed]) = (tally i deeds).after turn := by
  simp [tally, turns, List.filterMap_append, own]

theorem tally_other {i : Nat} {deeds : List Deed} {deed : Deed} (other : deed.turn? i = none) :
    tally i (deeds ++ [deed]) = tally i deeds := by
  simp [tally, turns, List.filterMap_append, other]

theorem handed_snoc (deeds : List Deed) (deed : Deed) :
    handed (deeds ++ [deed]) = handed deeds ++ deed.handed := by
  simp [handed]

theorem firings_snoc (deeds : List Deed) (deed : Deed) :
    firings (deeds ++ [deed]) = firings deeds ++ deed.firings := by
  simp [firings]

theorem attempts_le (i : Nat) (deeds : List Deed) (deed : Deed) :
    (tally i deeds).attempts ≤ (tally i (deeds ++ [deed])).attempts := by
  cases own : deed.turn? i with
  | none => exact Nat.le_of_eq (congrArg Tally.attempts (tally_other own)).symm
  | some turn =>
    rw [tally_own own, Tally.attempts_after]
    split <;> omega

end Ensemble
end ScanSlot
