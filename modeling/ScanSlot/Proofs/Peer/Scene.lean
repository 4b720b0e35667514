import Mathlib.Data.List.Nodup
import ScanSlot.Proofs.Peer.InProcess

/-! A peer of the same process whose hooks, while they are fired, call the very peer whose death
fires them. Every call is a step, also one made by a hook in the middle of a kill, and nothing is
assumed of what hooks do. Two accounts are kept along every run: where each hook is that was ever
linked, and what the kills in progress still have to do with the hooks they took. -/
namespace ScanSlot

namespace InProcessPeer
variable {Hook : Type}

/-- The hooks that a kill takes, with their links. -/
def taken (p : InProcessPeer Hook) : List (Nat × Hook) :=
  if p.kill.1.isSome then p.hooks else []

def links (p : InProcessPeer Hook) : List Nat :=
  p.hooks.map (·.1)

theorem taken_hooks (p : InProcessPeer Hook) : p.taken.map (·.2) = p.kill.1.getD [] := by
  cases alive : p.alive <;> simp [taken, kill, alive]

theorem taken_of_alive {p : InProcessPeer Hook} (alive : p.alive = true) : p.taken = p.hooks := by
  simp [taken, kill, alive]

theorem taken_of_dead {p : InProcessPeer Hook} (dead : p.alive = false) : p.taken = [] := by
  simp [taken, kill, dead]

theorem kill_of_dead {p : InProcessPeer Hook} (dead : p.alive = false) : p.kill.2 = p := by
  simp [kill, dead]

theorem links_unlink (p : InProcessPeer Hook) (l : Nat) :
    (p.unlink l).2.links = p.links.filter (· != l) := by
  rw [links, hooks_unlink, links, List.filter_map]
  rfl

theorem unlink_of_linked {p : InProcessPeer Hook} {l : Nat} (linked : l ∈ p.links) :
    (p.unlink l).1 = .ok () := by
  obtain ⟨entry, here, rfl⟩ := List.mem_map.mp linked
  rw [unlink, if_pos (List.any_eq_true.mpr ⟨entry, here, by simp⟩)]

theorem unlink_of_not_linked {p : InProcessPeer Hook} {l : Nat} (free : l ∉ p.links) :
    p.unlink l = (.error (.notLinked l), p) := by
  refine if_neg fun linked => free ?_
  obtain ⟨entry, here, same⟩ := List.any_eq_true.mp linked
  exact List.mem_map.mpr ⟨entry, here, by simpa using same⟩

theorem link_of_dead {p : InProcessPeer Hook} (dead : p.alive = false) (hook : Hook) :
    p.link hook = (.error .peerDead, p) := by
  simp [link, dead]

theorem link_of_alive {p : InProcessPeer Hook} (alive : p.alive = true) (hook : Hook) :
    (p.link hook).1 = .ok p.nextLink := by
  simp [link, alive]

end InProcessPeer

/-- A kill that has not returned yet. -/
structure Killing (Hook : Type) where
  taken : List (Nat × Hook)
  running : Option (Nat × Hook)
  waiting : List (Nat × Hook)

/-- A peer and the kills in progress on it, the innermost first. -/
structure Scene (Hook : Type) where
  peer : InProcessPeer Hook
  kills : List (Killing Hook) := []

/-- A call on the peer with its answer, or what a kill does with the hooks it took. -/
inductive Happening (Hook : Type) where
  | linked (hook : Hook) (answer : Except Fault Nat)
  | unlinked (link : Nat) (answer : Except Fault Unit)
  | killed (taken : List (Nat × Hook))
  | fired (link : Nat)
  | ran (link : Nat)
  | returned (taken : List (Nat × Hook))

namespace Happening
variable {Hook : Type}

/-- The link that was handed out. -/
def given? : Happening Hook → Option Nat
  | linked _ (.ok link) => some link
  | _ => none

/-- The link that was given up. -/
def released? : Happening Hook → Option Nat
  | unlinked link (.ok ()) => some link
  | _ => none

def fired? : Happening Hook → Option Nat
  | fired link => some link
  | _ => none

def ran? : Happening Hook → Option Nat
  | ran link => some link
  | _ => none

def taken : Happening Hook → List Nat
  | killed taken => taken.map (·.1)
  | _ => []

def isKill : Happening Hook → Bool
  | killed _ => true
  | _ => false

end Happening

namespace Scene
variable {Hook : Type} {s t u : Scene Hook} {h : Happening Hook} {hs : List (Happening Hook)}

/-- Somebody is there to call: a hook of the innermost kill, or the outside if no kill goes on. -/
def Calling (s : Scene Hook) : Prop :=
  s.kills.head?.all (·.running.isSome) = true

/-- A kill fires what it took in any order. A hook runs until it returns, and in between it can make
any call on the peer. -/
inductive Step : Scene Hook → Happening Hook → Scene Hook → Prop where
  | link {s : Scene Hook} (calling : s.Calling) (hook : Hook) :
      Step s (.linked hook (s.peer.link hook).1) { s with peer := (s.peer.link hook).2 }
  | unlink {s : Scene Hook} (calling : s.Calling) (link : Nat) :
      Step s (.unlinked link (s.peer.unlink link).1) { s with peer := (s.peer.unlink link).2 }
  | kill {s : Scene Hook} (calling : s.Calling) :
      Step s (.killed s.peer.taken)
        ⟨s.peer.kill.2, ⟨s.peer.taken, none, s.peer.taken⟩ :: s.kills⟩
  | fire {p : InProcessPeer Hook} {kills : List (Killing Hook)} {taken : List (Nat × Hook)}
      (before : List (Nat × Hook)) (entry : Nat × Hook) (after : List (Nat × Hook)) :
      Step ⟨p, ⟨taken, none, before ++ entry :: after⟩ :: kills⟩ (.fired entry.1)
        ⟨p, ⟨taken, some entry, before ++ after⟩ :: kills⟩
  | finish {p : InProcessPeer Hook} {kills : List (Killing Hook)}
      {taken waiting : List (Nat × Hook)} (entry : Nat × Hook) :
      Step ⟨p, ⟨taken, some entry, waiting⟩ :: kills⟩ (.ran entry.1)
        ⟨p, ⟨taken, none, waiting⟩ :: kills⟩
  | close {p : InProcessPeer Hook} {kills : List (Killing Hook)} {taken : List (Nat × Hook)} :
      Step ⟨p, ⟨taken, none, []⟩ :: kills⟩ (.returned taken) ⟨p, kills⟩

inductive Reaches (s : Scene Hook) : List (Happening Hook) → Scene Hook → Prop where
  | refl : Reaches s [] s
  | next {hs : List (Happening Hook)} {t u : Scene Hook} {h : Happening Hook}
      (run : Reaches s hs t) (step : Step t h u) : Reaches s (hs ++ [h]) u

theorem Reaches.trans {gs : List (Happening Hook)} (first : Reaches s gs t)
    (second : Reaches t hs u) : Reaches s (gs ++ hs) u := by
  induction second with
  | refl => rwa [List.append_nil]
  | next _ step ih =>
    rw [← List.append_assoc]
    exact .next ih step

/-! ### What has happened -/

def given (hs : List (Happening Hook)) : List Nat := hs.filterMap Happening.given?

def released (hs : List (Happening Hook)) : List Nat := hs.filterMap Happening.released?

def taken (hs : List (Happening Hook)) : List Nat := hs.flatMap Happening.taken

def fired (hs : List (Happening Hook)) : List Nat := hs.filterMap Happening.fired?

def ran (hs : List (Happening Hook)) : List Nat := hs.filterMap Happening.ran?

def killed (hs : List (Happening Hook)) : Bool := hs.any Happening.isKill

/-- The hooks that kills in progress have yet to fire. -/
def awaited (kills : List (Killing Hook)) : List Nat :=
  kills.flatMap fun kill => kill.waiting.map (·.1)

/-- The hooks that kills in progress have fired and that have not returned. -/
def running (kills : List (Killing Hook)) : List Nat :=
  kills.flatMap fun kill => (kill.running.map (·.1)).toList

inductive Condition where
  | linked
  | unlinked
  | taken

/-- Whether a hook is linked is read off the peer's table, the rest off what has happened. -/
def Finds (hs : List (Happening Hook)) (s : Scene Hook) (n : Nat) : Condition → Prop
  | .linked => n ∈ s.peer.links
  | .unlinked => n ∈ released hs
  | .taken => n ∈ taken hs

/-- What happens is what has to happen after what has happened. -/
def Follows (hs : List (Happening Hook)) : Happening Hook → Prop
  | .linked _ answer =>
      answer = if killed hs then .error .peerDead else .ok ((given hs).length + 1)
  | .unlinked n answer =>
      (answer = .ok () ∧ n ∈ given hs ∧ n ∉ released hs ∧ n ∉ taken hs) ∨
        (answer = .error (.notLinked n) ∧ ¬ (n ∈ given hs ∧ n ∉ released hs ∧ n ∉ taken hs))
  | .killed entries =>
      ∀ n, n ∈ entries.map (·.1) ↔ killed hs = false ∧ n ∈ given hs ∧ n ∉ released hs
  | .fired n => n ∈ taken hs ∧ n ∉ fired hs
  | .ran n => n ∈ fired hs ∧ n ∉ ran hs
  | .returned entries =>
      ∀ entry ∈ entries, (fired hs).count entry.1 = 1 ∧ (ran hs).count entry.1 = 1

section
variable (hs : List (Happening Hook)) (h : Happening Hook)

theorem given_snoc : given (hs ++ [h]) = given hs ++ h.given?.toList := by
  simp only [given, List.filterMap_append, List.filterMap_cons, List.filterMap_nil]
  cases h.given? <;> rfl

theorem released_snoc : released (hs ++ [h]) = released hs ++ h.released?.toList := by
  simp only [released, List.filterMap_append, List.filterMap_cons, List.filterMap_nil]
  cases h.released? <;> rfl

theorem fired_snoc : fired (hs ++ [h]) = fired hs ++ h.fired?.toList := by
  simp only [fired, List.filterMap_append, List.filterMap_cons, List.filterMap_nil]
  cases h.fired? <;> rfl

theorem ran_snoc : ran (hs ++ [h]) = ran hs ++ h.ran?.toList := by
  simp only [ran, List.filterMap_append, List.filterMap_cons, List.filterMap_nil]
  cases h.ran? <;> rfl

theorem taken_snoc : taken (hs ++ [h]) = taken hs ++ h.taken := by
  simp [taken]

theorem killed_snoc : killed (hs ++ [h]) = (killed hs || h.isKill) := by
  simp [killed]

end

theorem taken_of_not_killed (spared : killed hs = false) : taken hs = [] := by
  rw [killed, List.any_eq_false] at spared
  refine List.flatMap_eq_nil_iff.mpr fun h among => ?_
  have other := spared h among
  cases h with
  | killed => exact absurd rfl other
  | _ => rfl

/-- All hooks that were ever linked, by their links, and where each is. -/
structure Roll (hs : List (Happening Hook)) (p : InProcessPeer Hook) : Prop where
  numbered : given hs = List.range' 1 (given hs).length
  next : p.nextLink = (given hs).length + 1
  placed : (p.links ++ (released hs ++ taken hs)).Perm (given hs)
  alive : p.alive = !killed hs
  emptied : killed hs = true → p.hooks = []

/-- What kills in progress still have to do with the hooks that were taken. -/
structure Duties (hs : List (Happening Hook)) (kills : List (Killing Hook)) : Prop where
  pending : (fired hs ++ awaited kills).Perm (taken hs)
  active : (ran hs ++ running kills).Perm (fired hs)
  owed : ∀ kill ∈ kills, ∀ entry ∈ kill.taken,
    entry.1 ∈ ran hs ∨ kill.running = some entry ∨ entry ∈ kill.waiting

namespace Roll
variable {p : InProcessPeer Hook}

theorem start (name : String) : Roll [] ({ name } : InProcessPeer Hook) where
  numbered := rfl
  next := rfl
  placed := .refl _
  alive := rfl
  emptied := nofun

variable (roll : Roll hs p)
include roll

theorem nodup_given : (given hs).Nodup := by
  rw [roll.numbered]
  exact List.nodup_range'

theorem nodup_placed : (p.links ++ (released hs ++ taken hs)).Nodup :=
  roll.placed.nodup_iff.mpr roll.nodup_given

theorem nodup_links : p.links.Nodup :=
  (List.nodup_append.mp roll.nodup_placed).1

theorem nodup_gone : (released hs ++ taken hs).Nodup :=
  (List.nodup_append.mp roll.nodup_placed).2.1

theorem nodup_taken : (taken hs).Nodup :=
  (List.nodup_append.mp roll.nodup_gone).2.1

/-- What is linked was handed out and has neither been unlinked nor taken. -/
theorem mem_links_iff {n : Nat} :
    n ∈ p.links ↔ n ∈ given hs ∧ n ∉ released hs ∧ n ∉ taken hs := by
  have apart := (List.nodup_append.mp roll.nodup_placed).2.2
  rw [← roll.placed.mem_iff, List.mem_append, List.mem_append]
  constructor
  · intro linked
    exact ⟨.inl linked, fun there => apart n linked n (List.mem_append_left _ there) rfl,
      fun there => apart n linked n (List.mem_append_right _ there) rfl⟩
  · rintro ⟨linked | unlinked | taken, kept, left⟩
    · exact linked
    · exact absurd unlinked kept
    · exact absurd taken left

theorem killed_of_dead (dead : p.alive = false) : killed hs = true := by
  have alive := roll.alive
  rw [dead] at alive
  simpa using alive

theorem spared_of_alive (alive : p.alive = true) : killed hs = false := by
  have same := roll.alive
  rw [alive] at same
  simpa using same.symm

/-- Nothing but granted calls and kills changes the roll. -/
theorem aside (given : h.given? = none) (released : h.released? = none) (taken : h.taken = [])
    (call : h.isKill = false) : Roll (hs ++ [h]) p := by
  obtain ⟨numbered, next, placed, alive, emptied⟩ := roll
  constructor <;> simp only [given_snoc, released_snoc, taken_snoc, killed_snoc, given, released,
    taken, call, Option.toList_none, List.append_nil, Bool.or_false] <;> assumption

theorem link (hook : Hook) : Roll (hs ++ [.linked hook (p.link hook).1]) (p.link hook).2 := by
  cases alive : p.alive with
  | false =>
    rw [InProcessPeer.link_of_dead alive]
    exact roll.aside rfl rfl rfl rfl
  | true =>
    have more : given (hs ++ [.linked hook (.ok p.nextLink)]) = given hs ++ [p.nextLink] :=
      given_snoc hs _
    have same : released (hs ++ [.linked hook (.ok p.nextLink)]) ++
        taken (hs ++ [.linked hook (.ok p.nextLink)]) = released hs ++ taken hs := by
      simp [released_snoc, taken_snoc, Happening.released?, Happening.taken]
    rw [InProcessPeer.link_of_alive alive]
    constructor
    case numbered =>
      rw [more, List.length_append, List.length_singleton, List.range'_1_concat, ← roll.numbered,
        roll.next, Nat.add_comm 1]
    case next =>
      rw [more, List.length_append, InProcessPeer.nextLink_link alive, roll.next]
      rfl
    case placed =>
      have front : (p.link hook).2.links = p.links ++ [p.nextLink] := by
        simp [InProcessPeer.links, InProcessPeer.hooks_link alive]
      rw [more, same, front, List.append_assoc]
      have last : ([p.nextLink] ++ (released hs ++ taken hs)).Perm
          (released hs ++ taken hs ++ [p.nextLink]) := List.perm_append_comm
      refine (last.append_left p.links).trans ?_
      rw [← List.append_assoc]
      exact roll.placed.append_right _
    case alive =>
      rw [killed_snoc, InProcessPeer.alive_link, roll.alive]
      simp [Happening.isKill]
    case emptied =>
      rw [killed_snoc, roll.spared_of_alive alive]
      exact nofun

theorem unlink (l : Nat) : Roll (hs ++ [.unlinked l (p.unlink l).1]) (p.unlink l).2 := by
  by_cases linked : l ∈ p.links
  · have same : given (hs ++ [.unlinked l (.ok ())]) = given hs := by
      simp [given_snoc, Happening.given?]
    have more : released (hs ++ [.unlinked l (.ok ())]) ++ taken (hs ++ [.unlinked l (.ok ())]) =
        released hs ++ l :: taken hs := by
      simp [released_snoc, taken_snoc, Happening.released?, Happening.taken]
    rw [InProcessPeer.unlink_of_linked linked]
    constructor
    case numbered => rw [same, ← roll.numbered]
    case next => rw [same, InProcessPeer.nextLink_unlink, roll.next]
    case placed =>
      have moved := (List.perm_cons_erase linked).symm.append_right (released hs ++ taken hs)
      rw [roll.nodup_links.erase_eq_filter] at moved
      rw [same, more, InProcessPeer.links_unlink]
      refine .trans ?_ (moved.trans roll.placed)
      rw [← List.append_assoc, List.cons_append, ← List.append_assoc]
      exact List.perm_middle
    case alive =>
      rw [killed_snoc, InProcessPeer.alive_unlink, roll.alive]
      simp [Happening.isKill]
    case emptied =>
      intro dead
      have before : killed hs = true := by simpa [killed_snoc, Happening.isKill] using dead
      rw [InProcessPeer.links, roll.emptied before] at linked
      contradiction
  · rw [InProcessPeer.unlink_of_not_linked linked]
    exact roll.aside rfl rfl rfl rfl

/-- A kill takes what is linked, which is nothing if there was a kill before. -/
theorem links_taken : p.taken.map (·.1) = p.links := by
  cases alive : p.alive with
  | true =>
    rw [InProcessPeer.taken_of_alive alive]
    rfl
  | false =>
    rw [InProcessPeer.taken_of_dead alive, InProcessPeer.links,
      roll.emptied (roll.killed_of_dead alive)]

theorem kill : Roll (hs ++ [.killed p.taken]) p.kill.2 := by
  have deadly : killed (hs ++ [.killed p.taken]) = true := by simp [killed_snoc, Happening.isKill]
  have same : given (hs ++ [.killed p.taken]) = given hs := by simp [given_snoc, Happening.given?]
  have gone : p.kill.2.hooks = [] := by
    cases alive : p.alive with
    | true => simp [InProcessPeer.kill, alive]
    | false =>
      rw [InProcessPeer.kill_of_dead alive]
      exact roll.emptied (roll.killed_of_dead alive)
  constructor
  case numbered => rw [same, ← roll.numbered]
  case next =>
    rw [same, ← roll.next]
    cases alive : p.alive <;> simp [InProcessPeer.kill, alive]
  case placed =>
    have more : released (hs ++ [.killed p.taken]) ++ taken (hs ++ [.killed p.taken]) =
        released hs ++ taken hs ++ p.links := by
      simp [released_snoc, taken_snoc, Happening.released?, Happening.taken, roll.links_taken]
    have front : p.kill.2.links = [] := by rw [InProcessPeer.links, gone, List.map_nil]
    rw [same, more, front, List.nil_append]
    exact List.perm_append_comm.trans roll.placed
  case alive =>
    rw [deadly]
    cases alive : p.alive <;> simp [InProcessPeer.kill, alive]
  case emptied => exact fun _ => gone

end Roll

namespace Duties
variable {kills : List (Killing Hook)} {entries waiting before after : List (Nat × Hook)}
  {entry : Nat × Hook}

/-- Calls are no part of what kills have to do. -/
theorem aside (duties : Duties hs kills) (taken : h.taken = []) (fired : h.fired? = none)
    (ran : h.ran? = none) : Duties (hs ++ [h]) kills := by
  obtain ⟨pending, active, owed⟩ := duties
  constructor <;> simp only [taken_snoc, fired_snoc, ran_snoc, taken, fired, ran,
    Option.toList_none, List.append_nil] <;> assumption

theorem kill (duties : Duties hs kills) (entries : List (Nat × Hook)) :
    Duties (hs ++ [.killed entries]) (⟨entries, none, entries⟩ :: kills) := by
  have fires : fired (hs ++ [.killed entries]) = fired hs := by simp [fired_snoc, Happening.fired?]
  have runs : ran (hs ++ [.killed entries]) = ran hs := by simp [ran_snoc, Happening.ran?]
  constructor
  case pending =>
    have more : taken (hs ++ [.killed entries]) = taken hs ++ entries.map (·.1) := taken_snoc hs _
    rw [more, fires, awaited, List.flatMap_cons]
    refine (List.perm_append_comm.append_left (fired hs)).trans ?_
    rw [← List.append_assoc]
    exact duties.pending.append_right _
  case active =>
    rw [fires, runs]
    exact duties.active
  case owed =>
    rw [runs]
    exact List.forall_mem_cons.mpr ⟨fun entry here => .inr (.inr here), duties.owed⟩

theorem fire (duties : Duties hs (⟨entries, none, before ++ entry :: after⟩ :: kills)) :
    Duties (hs ++ [.fired entry.1]) (⟨entries, some entry, before ++ after⟩ :: kills) := by
  have takes : taken (hs ++ [.fired entry.1]) = taken hs := by simp [taken_snoc, Happening.taken]
  have fires : fired (hs ++ [.fired entry.1]) = fired hs ++ [entry.1] := fired_snoc hs _
  have runs : ran (hs ++ [.fired entry.1]) = ran hs := by simp [ran_snoc, Happening.ran?]
  obtain ⟨own, others⟩ := List.forall_mem_cons.mp duties.owed
  constructor
  case pending =>
    have pending := duties.pending
    simp only [awaited, List.flatMap_cons, List.map_append, List.map_cons, List.append_assoc,
      List.cons_append] at pending
    simp only [takes, fires, awaited, List.flatMap_cons, List.map_append, List.append_assoc,
      List.singleton_append]
    exact (List.perm_middle.symm.append_left (fired hs)).trans pending
  case active =>
    rw [fires, runs]
    refine List.perm_middle.trans ?_
    exact (duties.active.cons entry.1).trans (List.perm_append_singleton ..).symm
  case owed =>
    rw [runs]
    refine List.forall_mem_cons.mpr ⟨fun other among => ?_, others⟩
    obtain done | running | waits := own other among
    · exact .inl done
    · contradiction
    · rcases List.mem_append.mp waits with first | rest
      · exact .inr (.inr (List.mem_append_left _ first))
      · rcases List.mem_cons.mp rest with rfl | last
        · exact .inr (.inl rfl)
        · exact .inr (.inr (List.mem_append_right _ last))

theorem finish (duties : Duties hs (⟨entries, some entry, waiting⟩ :: kills)) :
    Duties (hs ++ [.ran entry.1]) (⟨entries, none, waiting⟩ :: kills) := by
  have takes : taken (hs ++ [.ran entry.1]) = taken hs := by simp [taken_snoc, Happening.taken]
  have fires : fired (hs ++ [.ran entry.1]) = fired hs := by simp [fired_snoc, Happening.fired?]
  have runs : ran (hs ++ [.ran entry.1]) = ran hs ++ [entry.1] := ran_snoc hs _
  obtain ⟨own, others⟩ := List.forall_mem_cons.mp duties.owed
  constructor
  case pending =>
    rw [takes, fires]
    exact duties.pending
  case active =>
    rw [fires, runs, List.append_assoc]
    exact duties.active
  case owed =>
    rw [runs]
    refine List.forall_mem_cons.mpr ⟨fun other among => ?_, fun kill here other among => ?_⟩
    · obtain done | running | waits := own other among
      · exact .inl (List.mem_append_left _ done)
      · obtain rfl := Option.some.inj running
        exact .inl (List.mem_append_right _ List.mem_cons_self)
      · exact .inr (.inr waits)
    · exact (others kill here other among).imp_left (List.mem_append_left _)

theorem close (duties : Duties hs (⟨entries, none, []⟩ :: kills)) :
    Duties (hs ++ [.returned entries]) kills := by
  obtain ⟨pending, active, owed⟩ := duties
  have rest : Duties hs kills := ⟨pending, active, (List.forall_mem_cons.mp owed).2⟩
  exact rest.aside rfl rfl rfl

end Duties

/-- What holds of every hook after everything that can have happened. -/
structure Account (hs : List (Happening Hook)) (s : Scene Hook) : Prop where
  roll : Roll hs s.peer
  duties : Duties hs s.kills

namespace Account

theorem step (account : Account hs s) (step : Step s h t) : Account (hs ++ [h]) t := by
  obtain ⟨roll, duties⟩ := account
  cases step with
  | link _ hook => exact ⟨roll.link hook, duties.aside rfl rfl rfl⟩
  | unlink _ link => exact ⟨roll.unlink link, duties.aside rfl rfl rfl⟩
  | kill => exact ⟨roll.kill, duties.kill _⟩
  | fire => exact ⟨roll.aside rfl rfl rfl rfl, duties.fire⟩
  | finish => exact ⟨roll.aside rfl rfl rfl rfl, duties.finish⟩
  | close => exact ⟨roll.aside rfl rfl rfl rfl, duties.close⟩

theorem of_reaches {name : String} (run : Reaches ⟨{ name }, []⟩ hs s) : Account hs s := by
  induction run with
  | refl => exact ⟨.start name, .refl _, .refl _, List.forall_mem_nil _⟩
  | next _ step ih => exact ih.step step

variable (account : Account hs s)
include account

theorem nodup_pending : (fired hs ++ awaited s.kills).Nodup :=
  account.duties.pending.nodup_iff.mpr account.roll.nodup_taken

theorem nodup_fired : (fired hs).Nodup :=
  (List.nodup_append.mp account.nodup_pending).1

theorem nodup_active : (ran hs ++ running s.kills).Nodup :=
  account.duties.active.nodup_iff.mpr account.nodup_fired

theorem nodup_ran : (ran hs).Nodup :=
  (List.nodup_append.mp account.nodup_active).1

theorem fired_of_ran {n : Nat} (done : n ∈ ran hs) : n ∈ fired hs :=
  account.duties.active.mem_iff.mp (List.mem_append_left _ done)

theorem follows (step : Step s h t) : Follows hs h := by
  have roll := account.roll
  have duties := account.duties
  cases step with
  | link _ hook =>
    cases alive : s.peer.alive with
    | true =>
      rw [InProcessPeer.link_of_alive alive, Follows, roll.spared_of_alive alive, roll.next]
      rfl
    | false =>
      rw [InProcessPeer.link_of_dead alive, Follows, roll.killed_of_dead alive]
      rfl
  | unlink _ link =>
    by_cases linked : link ∈ s.peer.links
    · rw [InProcessPeer.unlink_of_linked linked]
      exact .inl ⟨rfl, roll.mem_links_iff.mp linked⟩
    · rw [InProcessPeer.unlink_of_not_linked linked]
      exact .inr ⟨rfl, fun there => linked (roll.mem_links_iff.mpr there)⟩
  | kill =>
    intro n
    rw [roll.links_taken]
    cases before : killed hs with
    | true => simp [InProcessPeer.links, roll.emptied before]
    | false => simp [roll.mem_links_iff, taken_of_not_killed before]
  | @fire p kills entries front entry rest =>
    have waits : entry.1 ∈ awaited (⟨entries, none, front ++ entry :: rest⟩ :: kills) := by
      simp [awaited]
    refine ⟨duties.pending.mem_iff.mp (List.mem_append_right _ waits), fun fired => ?_⟩
    exact (List.nodup_append.mp account.nodup_pending).2.2 _ fired _ waits rfl
  | @finish p kills entries rest entry =>
    have runs : entry.1 ∈ running (⟨entries, some entry, rest⟩ :: kills) := by simp [running]
    refine ⟨duties.active.mem_iff.mp (List.mem_append_right _ runs), fun done => ?_⟩
    exact (List.nodup_append.mp account.nodup_active).2.2 _ done _ runs rfl
  | @close p kills entries =>
    intro entry among
    have done : entry.1 ∈ ran hs := by
      obtain done | running | waits := duties.owed _ List.mem_cons_self entry among
      · exact done
      · contradiction
      · contradiction
    exact ⟨List.count_eq_one_of_mem account.nodup_fired (account.fired_of_ran done),
      List.count_eq_one_of_mem account.nodup_ran done⟩

end Account

end Scene
end ScanSlot
