import ScanSlot.Peer.Reentrant
import ScanSlot.Proofs.Peer.Scene

/-! The life of a death hook. A hook that was linked stays linked until it is unlinked or taken; the
first kill takes what is linked then, and all of that is run once before it returns, whatever its
hooks do to the peer meanwhile. Hooks that follow a list of acts are a special case. -/
namespace ScanSlot
namespace Scene
variable {Hook : Type} {s t u : Scene Hook} {h : Happening Hook} {hs : List (Happening Hook)}

theorem follows_each {name : String} {before : List (Happening Hook)}
    (run : Reaches ⟨{ name }, []⟩ hs s) (earlier : before ++ [h] <+: hs) : Follows before h := by
  induction run with
  | refl => simp at earlier
  | next run step ih =>
    rcases List.prefix_concat_iff.mp earlier with last | earlier
    · obtain ⟨rfl, rfl⟩ := List.append_singleton_inj.mp last
      exact (Account.of_reaches run).follows step
    · exact ih earlier

/-- Whatever a later kill finds, the hooks are gone. -/
theorem taken_after {before after : List (Happening Hook)} (deadly : killed before = true)
    (follows : ∀ front h, front ++ [h] <+: after → Follows (before ++ front) h) :
    taken after = [] := by
  refine List.flatMap_eq_nil_iff.mpr fun h among => ?_
  obtain ⟨front, rest, rfl⟩ := List.append_of_mem among
  have forced := follows front h ⟨rest, List.append_cons front h rest ▸ rfl⟩
  cases h with
  | killed entries =>
    refine List.eq_nil_iff_forall_not_mem.mpr fun n taken => ?_
    have spared := ((forced n).mp taken).1
    rw [killed, List.any_append, ← killed, deadly, Bool.true_or] at spared
    contradiction
  | _ => rfl

/-- What may be said of the hooks of a peer at any moment. -/
structure Lifecycle (hs : List (Happening Hook)) (s : Scene Hook) : Prop where
  numbered : given hs = List.range' 1 (given hs).length
  condition : ∀ n ∈ given hs, ∃! c, Finds hs s n c
  nothingElse : ∀ n c, Finds hs s n c → n ∈ given hs
  follows : ∀ before h, before ++ [h] <+: hs → Follows before h
  /-- Fired is, or will be, exactly what was linked when the first kill took effect. -/
  first : ∀ before entries, before ++ [.killed entries] <+: hs → killed before = false →
    ∀ n, n ∈ fired hs ∨ n ∈ awaited s.kills ↔ n ∈ given before ∧ n ∉ released before
  alive : s.peer.alive = !killed hs
  emptied : killed hs = true → s.peer.hooks = []

theorem lifecycle {name : String} (run : Reaches ⟨{ name }, []⟩ hs s) : Lifecycle hs s := by
  have account := Account.of_reaches run
  have roll := account.roll
  have follows (before : List (Happening Hook)) (h : Happening Hook)
      (earlier : before ++ [h] <+: hs) : Follows before h := follows_each run earlier
  have apart := List.nodup_append.mp roll.nodup_placed
  have gone := List.nodup_append.mp roll.nodup_gone
  refine ⟨roll.numbered, ?condition, ?nothingElse, follows, ?first, roll.alive, roll.emptied⟩
  case condition =>
    intro n among
    rcases List.mem_append.mp (roll.placed.mem_iff.mpr among) with linked | left
    · refine ⟨.linked, linked, fun c found => ?_⟩
      cases c with
      | linked => rfl
      | unlinked => exact absurd rfl (apart.2.2 n linked n (List.mem_append_left _ found))
      | taken => exact absurd rfl (apart.2.2 n linked n (List.mem_append_right _ found))
    · rcases List.mem_append.mp left with unlinked | taken
      · refine ⟨.unlinked, unlinked, fun c found => ?_⟩
        cases c with
        | linked => exact absurd rfl (apart.2.2 n found n left)
        | unlinked => rfl
        | taken => exact absurd rfl (gone.2.2 n unlinked n found)
      · refine ⟨.taken, taken, fun c found => ?_⟩
        cases c with
        | linked => exact absurd rfl (apart.2.2 n found n left)
        | unlinked => exact absurd rfl (gone.2.2 n found n taken)
        | taken => rfl
  case nothingElse =>
    intro n c found
    refine roll.placed.mem_iff.mp ?_
    cases c with
    | linked => exact List.mem_append_left _ found
    | unlinked => exact List.mem_append_right _ (List.mem_append_left _ found)
    | taken => exact List.mem_append_right _ (List.mem_append_right _ found)
  case first =>
    rintro before entries ⟨after, rfl⟩ spared n
    have deadly : killed (before ++ [.killed entries]) = true := by
      simp [killed_snoc, Happening.isKill]
    have later : taken after = [] := by
      refine taken_after deadly fun front h earlier => follows _ h ?_
      rw [List.append_assoc]
      exact (List.prefix_append_right_inj _).mpr earlier
    have total : taken (before ++ [.killed entries] ++ after) = entries.map (·.1) := by
      have parts : taken (before ++ [.killed entries] ++ after) =
          taken before ++ (entries.map (·.1) ++ taken after) := by
        simp [taken, Happening.taken]
      rw [parts, taken_of_not_killed spared, later, List.append_nil, List.nil_append]
    rw [← List.mem_append, account.duties.pending.mem_iff, total,
      follows before (.killed entries) (List.prefix_append ..) n]
    simp [spared]

/-- An unlinked hook stays unlinked, and a taken one taken. -/
theorem finds_append {n : Nat} {c : Condition} (lost : c ≠ .linked) (found : Finds hs s n c)
    (more : List (Happening Hook)) (t : Scene Hook) : Finds (hs ++ more) t n c := by
  cases c with
  | linked => contradiction
  | unlinked =>
    rw [Finds, released, List.filterMap_append]
    exact List.mem_append_left _ found
  | taken =>
    rw [Finds, taken, List.flatMap_append]
    exact List.mem_append_left _ found

/-- Nothing is done to a peer once it was killed. -/
theorem peer_of_killed (account : Account hs s) (dead : killed hs = true) (step : Step s h t) :
    t.peer = s.peer := by
  have gone : s.peer.alive = false := by rw [account.roll.alive, dead]; rfl
  cases step with
  | link _ hook => rw [InProcessPeer.link_of_dead gone]
  | unlink _ link =>
    have free : link ∉ s.peer.links := by simp [InProcessPeer.links, account.roll.emptied dead]
    rw [InProcessPeer.unlink_of_not_linked free]
  | kill => exact InProcessPeer.kill_of_dead gone
  | fire | finish | close => rfl

theorem eq_of_not_linked {n : Nat} {fault : Fault}
    (step : Step s (.unlinked n (.error fault)) t) : t = s := by
  generalize refusal : Happening.unlinked n (.error fault) = h at step
  cases step with
  | unlink _ link =>
    obtain ⟨rfl, refused⟩ := Happening.unlinked.inj refusal
    have free : n ∉ s.peer.links := fun linked => by
      rw [InProcessPeer.unlink_of_linked linked] at refused
      contradiction
    rw [InProcessPeer.unlink_of_not_linked free]
  | _ => contradiction

theorem fires_all (p : InProcessPeer Hook) (kills : List (Killing Hook))
    (entries waiting : List (Nat × Hook)) :
    ∃ more, Reaches ⟨p, ⟨entries, none, waiting⟩ :: kills⟩ more ⟨p, kills⟩ := by
  induction waiting with
  | nil => exact ⟨_, .next .refl .close⟩
  | cons entry waiting ih =>
    obtain ⟨more, rest⟩ := ih
    exact ⟨_, ((Reaches.refl.next (.fire [] entry waiting)).next (.finish entry)).trans rest⟩

/-- Kills in progress can always come to their end. -/
theorem returns (p : InProcessPeer Hook) (kills : List (Killing Hook)) :
    ∃ more, Reaches ⟨p, kills⟩ more ⟨p, []⟩ := by
  induction kills with
  | nil => exact ⟨_, .refl⟩
  | cons kill kills ih =>
    obtain ⟨entries, running, waiting⟩ := kill
    obtain ⟨own, fires⟩ := fires_all p kills entries waiting
    obtain ⟨others, rest⟩ := ih
    cases running with
    | none => exact ⟨_, fires.trans rest⟩
    | some entry => exact ⟨_, ((Reaches.refl.next (.finish entry)).trans fires).trans rest⟩

/-- Whatever is called on a peer, by its hooks while they are fired or from outside: at every moment
each hook that was ever linked is linked, unlinked or taken, and once it is one of the last two it
remains so; every answer and every firing is the one that what happened before demands; a refused
unlinking changes nothing, nothing changes a peer that was killed, and a kill in progress can
return. -/
theorem hook_lifecycle {name : String} (run : Reaches ⟨{ name }, []⟩ hs s) :
    Lifecycle hs s ∧
      (∀ more t, Reaches s more t →
        ∀ n c, c ≠ .linked → Finds hs s n c → Finds (hs ++ more) t n c) ∧
      (∀ h t, Step s h t → (killed hs = true → t.peer = s.peer) ∧
        ∀ n fault, h = .unlinked n (.error fault) → t = s) ∧
      ∃ more, Reaches s more ⟨s.peer, []⟩ := by
  have account := Account.of_reaches run
  refine ⟨lifecycle run, ?_, ?_, returns s.peer s.kills⟩
  · intro more t _ n c lost found
    exact finds_append lost found more t
  · intro h t step
    refine ⟨fun dead => peer_of_killed account dead step, ?_⟩
    rintro n fault rfl
    exact eq_of_not_linked step

/-- Three hooks are linked and one is unlinked. The kill fires the last first, which tries to link
another hook, to unlink the one that still waits, and to kill the peer again. -/
theorem hook_lifecycle_reentrant :
    let hs : List (Happening Unit) :=
      [.linked () (.ok 1), .linked () (.ok 2), .linked () (.ok 3), .unlinked 2 (.ok ()),
        .killed [(1, ()), (3, ())], .fired 3, .linked () (.error .peerDead),
        .unlinked 1 (.error (.notLinked 1)), .killed [], .returned [], .ran 3, .fired 1, .ran 1,
        .returned [(1, ()), (3, ())]]
    ∃ s, Reaches ⟨{ name := "app" }, []⟩ hs s ∧ s.kills = [] ∧ Lifecycle hs s ∧
      given hs = [1, 2, 3] ∧ released hs = [2] ∧ taken hs = [1, 3] ∧ fired hs = [3, 1] := by
  intro hs
  let live (hooks : List (Nat × Unit)) (next : Nat) : Scene Unit := ⟨⟨"app", true, hooks, next⟩, []⟩
  let gone (kills : List (Killing Unit)) : Scene Unit := ⟨⟨"app", false, [], 4⟩, kills⟩
  let both : List (Nat × Unit) := [(1, ()), (3, ())]
  let busy : List (Killing Unit) := [⟨both, some (3, ()), [(1, ())]⟩]
  have idle (hooks : List (Nat × Unit)) (next : Nat) : (live hooks next).Calling := rfl
  have hooked : (gone busy).Calling := rfl
  have first : Step (live [] 1) (.linked () (.ok 1)) (live [(1, ())] 2) := .link (idle ..) ()
  have second : Step (live [(1, ())] 2) (.linked () (.ok 2)) (live [(1, ()), (2, ())] 3) :=
    .link (idle ..) ()
  have third : Step (live [(1, ()), (2, ())] 3) (.linked () (.ok 3))
      (live [(1, ()), (2, ()), (3, ())] 4) := .link (idle ..) ()
  have unlinks : Step (live [(1, ()), (2, ()), (3, ())] 4) (.unlinked 2 (.ok ()))
      (live [(1, ()), (3, ())] 4) := .unlink (idle ..) 2
  have kills : Step (live both 4) (.killed both) (gone [⟨both, none, both⟩]) := .kill (idle ..)
  have fires : Step (gone [⟨both, none, both⟩]) (.fired 3) (gone busy) :=
    .fire [(1, ())] (3, ()) []
  have links : Step (gone busy) (.linked () (.error .peerDead)) (gone busy) := .link hooked ()
  have fails : Step (gone busy) (.unlinked 1 (.error (.notLinked 1))) (gone busy) :=
    .unlink hooked 1
  have again : Step (gone busy) (.killed []) (gone (⟨[], none, []⟩ :: busy)) := .kill hooked
  have called : Reaches (live [] 1) _ (gone (⟨[], none, []⟩ :: busy)) :=
    ((((((((Reaches.refl.next first).next second).next third).next unlinks).next kills).next
      fires).next links).next fails).next again
  have run : Reaches (live [] 1) hs (gone []) :=
    ((((called.next .close).next (.finish (3, ()))).next (.fire [] (1, ()) [])).next
      (.finish (1, ()))).next .close
  exact ⟨_, run, rfl, (hook_lifecycle run).1, rfl, rfl, rfl, rfl⟩

end Scene

/-! ### Hooks that follow a list of acts -/

namespace Reentrant

open Scene (Step Reaches Calling fired)

/-- What a hook hears of a call. -/
def heard? : Happening Hook → Option Outcome
  | .linked _ (.ok link) => some (.linked link)
  | .linked _ (.error fault) => some (.refused fault)
  | .unlinked _ (.ok ()) => some .unlinked
  | .unlinked _ (.error fault) => some (.refused fault)
  | _ => none

def heard (hs : List (Happening Hook)) : List Outcome := hs.filterMap heard?

/-- Whether the outcome is an answer, and no look at the peer. -/
def Outcome.isAnswer : Outcome → Bool
  | .linked _ | .unlinked | .refused _ => true
  | .alive _ | .count _ => false

theorem heard_append (hs gs : List (Happening Hook)) : heard (hs ++ gs) = heard hs ++ heard gs :=
  List.filterMap_append

theorem fired_append (hs gs : List (Happening Hook)) : fired (hs ++ gs) = fired hs ++ fired gs :=
  List.filterMap_append

variable {p : Peer}

/-- One act of a hook that is fired. -/
theorem performs_act {kills : List (Killing Hook)} (dead : p.alive = false)
    (calling : Calling ⟨p, kills⟩) (act : Act) :
    (act.perform p).2.alive = false ∧
      ∃ hs, Reaches ⟨p, kills⟩ hs ⟨(act.perform p).2, kills⟩ ∧ fired hs = [] ∧
        heard hs = [(act.perform p).1].filter Outcome.isAnswer := by
  cases act with
  | link hook =>
    have step := Step.link calling hook
    simp only [InProcessPeer.link_of_dead dead] at step
    simp only [Act.perform, InProcessPeer.link_of_dead dead]
    exact ⟨dead, _, .next .refl step, rfl, rfl⟩
  | unlink l =>
    have step := Step.unlink calling l
    have same := InProcessPeer.alive_unlink p l
    rw [dead] at same
    rcases answer : p.unlink l with ⟨_ | _, after⟩ <;> simp only [answer] at step same <;>
      simp only [Act.perform, answer] <;> exact ⟨same, _, .next .refl step, rfl, rfl⟩
  | kill =>
    have step := Step.kill calling
    simp only [InProcessPeer.taken_of_dead dead, InProcessPeer.kill_of_dead dead] at step
    simp only [Act.perform, InProcessPeer.kill_of_dead dead, dead]
    exact ⟨trivial, _, (Reaches.refl.next step).next .close, rfl, rfl⟩
  | count => exact ⟨dead, [], .refl, rfl, rfl⟩

theorem performs (dead : p.alive = false) (entries waiting : List (Nat × Hook))
    (entry : Nat × Hook) (kills : List (Killing Hook)) (acts : List Act) :
    (performAll p acts).2.alive = false ∧
      ∃ hs, Reaches ⟨p, ⟨entries, some entry, waiting⟩ :: kills⟩ hs
          ⟨(performAll p acts).2, ⟨entries, some entry, waiting⟩ :: kills⟩ ∧ fired hs = [] ∧
        heard hs = (performAll p acts).1.filter Outcome.isAnswer := by
  induction acts generalizing p with
  | nil => exact ⟨dead, [], .refl, rfl, rfl⟩
  | cons act acts ih =>
    have calling : Calling ⟨p, ⟨entries, some entry, waiting⟩ :: kills⟩ := rfl
    obtain ⟨still, hs, first, silent, heardFirst⟩ := performs_act dead calling act
    obtain ⟨last, gs, rest, more, heardRest⟩ := ih still
    refine ⟨last, hs ++ gs, first.trans rest, ?_, ?_⟩
    · rw [fired_append, silent, more, List.append_nil]
    · rw [heard_append, heardFirst, heardRest, ← List.filter_append]
      rfl

theorem fires (dead : p.alive = false) (entries waiting : List (Nat × Hook))
    (kills : List (Killing Hook)) :
    ∃ hs, Reaches ⟨p, ⟨entries, none, waiting⟩ :: kills⟩ hs
        ⟨(fireAll p (waiting.map (·.2))).2, kills⟩ ∧
      fired hs = waiting.map (·.1) ∧
      heard hs = ((fireAll p (waiting.map (·.2))).1.flatMap Firing.outcomes).filter
        Outcome.isAnswer := by
  induction waiting generalizing p with
  | nil => exact ⟨_, .next .refl .close, rfl, rfl⟩
  | cons entry waiting ih =>
    obtain ⟨link, tag, acts⟩ := entry
    obtain ⟨still, hs, own, silent, heardOwn⟩ :=
      performs dead entries waiting (link, .mk tag acts) kills acts
    obtain ⟨gs, rest, more, heardRest⟩ := ih still
    have begins : Reaches ⟨p, ⟨entries, none, (link, .mk tag acts) :: waiting⟩ :: kills⟩ _ _ :=
      Reaches.refl.next (.fire [] (link, .mk tag acts) waiting)
    refine ⟨_, ((begins.trans own).next (.finish _)).trans rest, ?_, ?_⟩
    · simp only [fired_append, silent, more]
      rfl
    · simp only [heard_append, heardOwn, heardRest, List.map_cons, fireAll, List.flatMap_cons,
        List.filter_append, List.append_assoc]
      rfl

/-- A kill whose hooks follow their lists is one of the runs above: it fires what it takes in the
order of the links, and its hooks hear what they are answered. -/
theorem kill_reaches (p : Peer) :
    ∃ hs, Reaches ⟨p, []⟩ hs ⟨(kill p).2, []⟩ ∧ fired hs = p.taken.map (·.1) ∧
      heard hs = ((kill p).1.flatMap Firing.outcomes).filter Outcome.isAnswer := by
  have dead : p.kill.2.alive = false := by
    cases alive : p.alive <;> simp [InProcessPeer.kill, alive]
  have same : kill p = fireAll p.kill.2 (p.taken.map (·.2)) := by
    rw [InProcessPeer.taken_hooks]
    rfl
  have idle : Calling (⟨p, []⟩ : Scene Hook) := rfl
  obtain ⟨hs, rest, fired, heard⟩ := fires dead p.taken p.taken []
  rw [same]
  exact ⟨_, (Reaches.refl.next (.kill idle)).trans rest, fired, heard⟩

end Reentrant
end ScanSlot
