import ScanSlot.Proofs.World.Ground

/-! What an operation changes outside its registry where all peers live in the same process: at
most one peer, by linking one hook or by taking one away. -/
namespace ScanSlot

/-- What ties a subscription to its peer. -/
structure Bond where
  peer : Nat
  link : Nat
  generation : Nat
  deriving DecidableEq, Repr

def Subscription.bond (active : Subscription) : Bond :=
  ⟨active.peer.index, active.link, active.generation⟩

def Registry.bond (r : Registry) : Option Bond :=
  r.current.map Subscription.bond

@[simp] theorem Registry.bond_emptied (r : Registry) : r.emptied.bond = none := rfl

@[simp] theorem Registry.bond_advanced (r : Registry) : r.advanced.bond = r.bond := rfl

theorem Registry.bond_of_current {r : Registry} {active : Subscription}
    (occupied : r.current = some active) : r.bond = some active.bond :=
  congrArg (Option.map Subscription.bond) occupied

theorem Registry.bond_of_vacant {r : Registry} (vacant : r.current = none) : r.bond = none :=
  congrArg (Option.map Subscription.bond) vacant

/-- No peer is called. -/
def Quiet : List Exchange → Prop
  | [] => True
  | .link .. :: _ | .unlink .. :: _ => False
  | .notify .. :: xs | .log .. :: xs => Quiet xs

@[simp] theorem quiet_nil : Quiet [] := trivial

@[simp] theorem quiet_notify {callback : CallbackRef} {event : Event} {answer : Except Fault Unit}
    {xs : List Exchange} : Quiet (.notify callback event answer :: xs) ↔ Quiet xs := Iff.rfl

@[simp] theorem quiet_log {entry : LogEntry} {xs : List Exchange} :
    Quiet (.log entry :: xs) ↔ Quiet xs := Iff.rfl

@[simp] theorem quiet_append {xs ys : List Exchange} :
    Quiet (xs ++ ys) ↔ Quiet xs ∧ Quiet ys := by
  induction xs with
  | nil => simp
  | cons x xs ih =>
    cases x with
    | link | unlink => simp [Quiet]
    | notify | log => simpa using ih

@[simp] theorem quiet_faultEntries {ε : Type} (entry : Fault → LogEntry)
    (answer : Except Fault ε) : Quiet (faultEntries entry answer) := by
  cases answer <;> simp [faultEntries]

@[simp] theorem quiet_logs {α : Type} (entry : α → LogEntry) (as : List α) :
    Quiet (as.map fun a => .log (entry a)) := by
  induction as with
  | nil => exact trivial
  | cons a as ih => exact ih

theorem quiet_announces {active : Subscription} {matched : List ScanResult}
    {xs : List Exchange} {answer : Except Fault Unit}
    (announced : Registry.Announces active matched xs answer) : Quiet xs := by
  cases announced <;> simp

/-- What one operation of a station makes of it and of the peers. -/
inductive Effect (i : Nat) : Station → List Peer → Station → List Peer → Prop where
  | idle {s s' : Station} {peers : List Peer} (bond : s'.registry.bond = s.registry.bond)
      (next : s.registry.nextGeneration ≤ s'.registry.nextGeneration)
      (queued : ∀ g ∈ s'.inbox, g ∈ s.inbox)
      (kept : ∀ b, s.registry.bond = some b →
        s'.isOpen = true ∧ s'.inbox.count b.generation = s.inbox.count b.generation) :
      Effect i s peers s' peers
  | admitted {s s' : Station} {peers : List Peer} {index : Nat} {p : InProcessPeer DeathHook}
      (vacant : s.registry.bond = none) (opened : s'.isOpen = true)
      (there : peers[index]? = some (.inProcess p)) (alive : p.alive = true)
      (bond : s'.registry.bond = some ⟨index, p.nextLink, s.registry.nextGeneration⟩)
      (next : s'.registry.nextGeneration = s.registry.nextGeneration + 1)
      (inbox : s'.inbox = s.inbox) :
      Effect i s peers s'
        (peers.set index (.inProcess (p.link ⟨i, s.registry.nextGeneration⟩).2))
  | released {s s' : Station} {peers : List Peer} {b : Bond} {p : InProcessPeer DeathHook}
      (held : s.registry.bond = some b) (there : peers[b.peer]? = some (.inProcess p))
      (bond : s'.registry.bond = none)
      (next : s.registry.nextGeneration ≤ s'.registry.nextGeneration)
      (queued : ∀ g ∈ s'.inbox, g ∈ s.inbox) :
      Effect i s peers s' (peers.set b.peer (.inProcess (p.unlink b.link).2))
  | forgotten {s s' : Station} {peers : List Peer} (vacant : s.registry.bond = none)
      (bond : s'.registry.bond = none) (inbox : s'.inbox = []) : Effect i s peers s' peers
  | trans {s s₁ s₂ : Station} {peers peers₁ peers₂ : List Peer}
      (first : Effect i s peers s₁ peers₁) (second : Effect i s₁ peers₁ s₂ peers₂) :
      Effect i s peers s₂ peers₂

/-- A subscription that is not acknowledged is as good as one admitted and released at once. -/
theorem Effect.retracted {i : Nat} {s : Station} {peers : List Peer} (q : Request)
    {p : InProcessPeer DeathHook} (vacant : s.registry.current = none) (opened : s.isOpen = true)
    (there : peers[q.peer.index]? = some (.inProcess p)) (alive : p.alive = true) :
    Effect i s peers { s with registry := s.registry.advanced }
      ((peers.set q.peer.index (.inProcess (p.link ⟨i, s.registry.nextGeneration⟩).2)).set
        q.peer.index
        (.inProcess ((p.link ⟨i, s.registry.nextGeneration⟩).2.unlink p.nextLink).2)) := by
  let held := s.registry.advanced.holding (q.admitted p.nextLink s.registry.nextGeneration)
  have admitted : Effect i s peers { s with registry := held } _ :=
    .admitted (Registry.bond_of_vacant vacant) opened there alive rfl rfl rfl
  obtain ⟨inside, _⟩ := List.getElem?_eq_some_iff.mp there
  exact admitted.trans (.released (b := ⟨q.peer.index, p.nextLink, s.registry.nextGeneration⟩) rfl
    (List.getElem?_set_self inside) (Registry.bond_of_vacant vacant) (Nat.le_refl _)
    fun _ here => here)

namespace World

def InProcess (w : World) : Prop :=
  ∀ peer ∈ w.peers, ∃ p, peer = .inProcess p

theorem InProcess.get {w : World} (inProcess : w.InProcess) {index : Nat} {peer : Peer}
    (there : w.peers[index]? = some peer) : ∃ p, peer = .inProcess p :=
  inProcess peer (List.mem_of_getElem? there)

theorem InProcess.setPeer {w : World} (inProcess : w.InProcess) (index : Nat)
    (p : InProcessPeer DeathHook) : (w.setPeer index (.inProcess p)).InProcess := by
  intro peer here
  rcases List.mem_or_eq_of_mem_set here with here | rfl
  · exact inProcess peer here
  · exact ⟨p, rfl⟩

theorem link_inProcess {w : World} {index : Nat} {p : InProcessPeer DeathHook}
    (there : w.peers[index]? = some (.inProcess p)) (hook : DeathHook) :
    w.link index hook = ((p.link hook).1, w.setPeer index (.inProcess (p.link hook).2)) := by
  unfold link
  rw [there]

theorem unlink_inProcess {w : World} {index : Nat} {p : InProcessPeer DeathHook}
    (there : w.peers[index]? = some (.inProcess p)) (l : Nat) :
    w.unlink index l = ((p.unlink l).1, w.setPeer index (.inProcess (p.unlink l).2)) := by
  unfold unlink
  rw [there]

theorem notify_ground (index : Nat) (event : Event) (w : World) :
    (w.notify index event).2.stations = w.stations ∧
      (w.notify index event).2.peers = w.peers := by
  unfold notify
  split <;> exact ⟨rfl, rfl⟩

variable {i : Nat} {w w' : World} {xs : List Exchange}

theorem plays_quiet (plays : (host i).Plays xs w w') (quiet : Quiet xs) :
    w'.peers = w.peers := by
  induction plays with
  | nil => rfl
  | link | unlink => exact quiet.elim
  | @notify callback event answer xs s t u call rest ih =>
    have same : t.peers = s.peers := by
      have ground := (notify_ground callback.index event s).2
      rwa [show s.notify callback.index event = (answer, t) from call] at ground
    exact (ih quiet).trans same
  | log rest ih => exact ih quiet

/-- No peer of the same process posts anything while it is called. -/
theorem plays_stations (plays : (host i).Plays xs w w') (inProcess : w.InProcess) :
    w'.stations = w.stations := by
  induction plays with
  | nil => rfl
  | @link peer generation answer xs s t u call rest ih =>
    change s.link peer.index ⟨i, generation⟩ = (answer, t) at call
    cases there : s.peers[peer.index]? with
    | none =>
      simp only [link, there, Prod.mk.injEq] at call
      obtain ⟨rfl, rfl⟩ := call
      exact ih inProcess
    | some found =>
      obtain ⟨p, rfl⟩ := inProcess.get there
      rw [link_inProcess there, Prod.mk.injEq] at call
      obtain ⟨rfl, rfl⟩ := call
      exact ih (inProcess.setPeer _ _)
  | @unlink peer l answer xs s t u call rest ih =>
    change s.unlink peer.index l = (answer, t) at call
    cases there : s.peers[peer.index]? with
    | none =>
      simp only [unlink, there, Prod.mk.injEq] at call
      obtain ⟨rfl, rfl⟩ := call
      exact ih inProcess
    | some found =>
      obtain ⟨p, rfl⟩ := inProcess.get there
      rw [unlink_inProcess there, Prod.mk.injEq] at call
      obtain ⟨rfl, rfl⟩ := call
      exact ih (inProcess.setPeer _ _)
  | @notify callback event answer xs s t u call rest ih =>
    have ground := notify_ground callback.index event s
    rw [show s.notify callback.index event = (answer, t) from call] at ground
    have still : t.InProcess := by
      unfold InProcess
      rw [ground.2]
      exact inProcess
    exact (ih still).trans ground.1
  | log rest ih => exact ih inProcess

theorem plays_linked {peer : PeerRef} {generation l : Nat} (inProcess : w.InProcess)
    (plays : (host i).Plays (.link peer generation (.ok l) :: xs) w w') :
    ∃ p, w.peers[peer.index]? = some (.inProcess p) ∧ p.alive = true ∧ l = p.nextLink ∧
      (host i).Plays xs
        (w.setPeer peer.index (.inProcess (p.link ⟨i, generation⟩).2)) w' := by
  cases plays with
  | link call rest =>
    change w.link peer.index ⟨i, generation⟩ = _ at call
    cases there : w.peers[peer.index]? with
    | none => simp [link, there] at call
    | some found =>
      obtain ⟨p, rfl⟩ := inProcess.get there
      rw [link_inProcess there, Prod.mk.injEq] at call
      obtain ⟨answer, rfl⟩ := call
      by_cases alive : p.alive = true
      · simp only [InProcessPeer.link, if_pos alive, Except.ok.injEq] at answer
        exact ⟨p, rfl, alive, answer.symm, rest⟩
      · simp [InProcessPeer.link, alive] at answer

theorem plays_unlinkable {peer : PeerRef} {generation : Nat} {fault : Fault}
    (inProcess : w.InProcess)
    (plays : (host i).Plays (.link peer generation (.error fault) :: xs) w w') :
    (host i).Plays xs w w' := by
  cases plays with
  | link call rest =>
    change w.link peer.index ⟨i, generation⟩ = _ at call
    cases there : w.peers[peer.index]? with
    | none =>
      simp only [link, there, Prod.mk.injEq] at call
      obtain ⟨_, rfl⟩ := call
      exact rest
    | some found =>
      obtain ⟨p, rfl⟩ := inProcess.get there
      rw [link_inProcess there, Prod.mk.injEq] at call
      obtain ⟨answer, rfl⟩ := call
      by_cases alive : p.alive = true
      · simp [InProcessPeer.link, alive] at answer
      · simp only [InProcessPeer.link, if_neg alive, setPeer_eq_self there] at rest
        exact rest

theorem plays_unlinked {peer : PeerRef} {l : Nat} {answer : Except Fault Unit}
    {p : InProcessPeer DeathHook} (there : w.peers[peer.index]? = some (.inProcess p))
    (plays : (host i).Plays (.unlink peer l answer :: xs) w w') :
    (host i).Plays xs (w.setPeer peer.index (.inProcess (p.unlink l).2)) w' := by
  cases plays with
  | unlink call rest =>
    change w.unlink peer.index l = _ at call
    rw [unlink_inProcess there, Prod.mk.injEq] at call
    obtain ⟨_, rfl⟩ := call
    exact rest

/-- A link is granted and, after a word to the callback, given back. -/
theorem plays_retracted {peer : PeerRef} {generation l : Nat} {callback : CallbackRef}
    {event : Event} {told answer : Except Fault Unit} {entry : LogEntry} (inProcess : w.InProcess)
    (plays : (host i).Plays (.link peer generation (.ok l) :: .notify callback event told ::
      .log entry :: .unlink peer l answer :: xs) w w') (quiet : Quiet xs) :
    ∃ p, w.peers[peer.index]? = some (.inProcess p) ∧ p.alive = true ∧ l = p.nextLink ∧
      w'.peers = (w.peers.set peer.index (.inProcess (p.link ⟨i, generation⟩).2)).set peer.index
        (.inProcess ((p.link ⟨i, generation⟩).2.unlink l).2) := by
  obtain ⟨p, there, alive, granted, rest⟩ := plays_linked inProcess plays
  obtain ⟨w₁, said, taken⟩ := rest.split [_, _]
  have same : w₁.peers = w.peers.set peer.index _ := plays_quiet said (by simp)
  have linked : w₁.peers[peer.index]? = some (.inProcess (p.link ⟨i, generation⟩).2) := by
    obtain ⟨inside, _⟩ := List.getElem?_eq_some_iff.mp there
    rw [same]
    exact List.getElem?_set_self inside
  have freed := plays_quiet (plays_unlinked linked taken) quiet
  rw [setPeer, same] at freed
  exact ⟨p, there, alive, granted, freed⟩

theorem subscribe_effect {s : Station} {q : Request} {accepted : Bool} {r : Registry}
    (course : s.registry.Subscribes q xs accepted r) (plays : (host i).Plays xs w w')
    (inProcess : w.InProcess) (opened : s.isOpen = true) :
    Effect i s w.peers { s with registry := r } w'.peers := by
  cases course with
  | rejected answer occupied =>
    rw [plays_quiet plays (by simp)]
    exact .idle rfl (Nat.le_refl _) (fun _ here => here) fun _ _ => ⟨opened, rfl⟩
  | linkFailed fault vacant =>
    rw [plays_quiet (plays_unlinkable inProcess plays) (by simp)]
    exact .idle rfl (Nat.le_succ _) (fun _ here => here) fun _ _ => ⟨opened, rfl⟩
  | successNotSent link fault answer vacant =>
    obtain ⟨p, there, alive, rfl, left⟩ := plays_retracted inProcess plays (by simp)
    rw [left]
    exact .retracted q vacant opened there alive
  | admitted link vacant =>
    obtain ⟨p, there, alive, rfl, rest⟩ := plays_linked inProcess plays
    rw [plays_quiet rest (by simp)]
    exact .admitted (Registry.bond_of_vacant vacant) opened there alive rfl rfl rfl

/-- Whatever ends a subscription gives its link back as the last thing. -/
theorem release_effect (said : List Exchange) {active : Subscription}
    {answer : Except Fault Unit} {s s' : Station}
    (plays : (host i).Plays (said ++ active.release answer) w w') (quiet : Quiet said)
    (held : s.registry.current = some active)
    (known : ∀ b, s.registry.bond = some b → ∃ p, w.peers[b.peer]? = some (.inProcess p))
    (emptied : s'.registry = s.registry.emptied) (queued : ∀ g ∈ s'.inbox, g ∈ s.inbox) :
    Effect i s w.peers s' w'.peers := by
  have bonded := Registry.bond_of_current held
  obtain ⟨w₁, said, released⟩ := plays.split _
  have same := plays_quiet said quiet
  obtain ⟨p, there⟩ := known _ bonded
  rw [← same] at there
  have freed := plays_quiet (plays_unlinked there released) (by simp)
  rw [freed, setPeer, same]
  rw [same] at there
  refine .released bonded there ?_ ?_ queued
  · rw [emptied]
    rfl
  · exact Nat.le_of_eq (congrArg Registry.nextGeneration emptied).symm

/-- It makes no difference whether the notice has been in the inbox. -/
theorem loses_effect {s s' : Station} {generation : Nat} {r : Registry}
    (course : s.registry.Loses generation xs r) (plays : (host i).Plays xs w w')
    (known : ∀ b, s.registry.bond = some b → ∃ p, w.peers[b.peer]? = some (.inProcess p))
    (registry : s'.registry = r) (opened : s'.isOpen = true)
    (queued : ∀ g ∈ s'.inbox, g ∈ s.inbox)
    (others : ∀ g, g ≠ generation → s'.inbox.count g = s.inbox.count g) :
    Effect i s w.peers s' w'.peers := by
  have next : s'.registry.nextGeneration = r.nextGeneration :=
    congrArg Registry.nextGeneration registry
  cases course with
  | vacant vacant =>
    cases plays
    refine .idle (congrArg Registry.bond registry) (Nat.le_of_eq next.symm) queued fun b held => ?_
    rw [Registry.bond_of_vacant vacant] at held
    contradiction
  | stale occupied other =>
    rw [plays_quiet plays (by simp)]
    refine .idle (congrArg Registry.bond registry) (Nat.le_of_eq next.symm) queued fun b held => ?_
    obtain rfl := Option.some.inj ((Registry.bond_of_current occupied).symm.trans held)
    exact ⟨opened, others _ other⟩
  | lost released occupied same =>
    exact release_effect [_] plays (by simp) occupied known registry queued

/-- Whatever an operation does to the registry, its calls have this effect around it. -/
theorem course_effect {s : Station} {op : Operation} {out : Outcome} {r : Registry}
    (course : op.Course s xs out r) (plays : (host i).Plays xs w w') (inProcess : w.InProcess)
    (opened : s.isOpen = true)
    (known : ∀ b, s.registry.bond = some b → ∃ p, w.peers[b.peer]? = some (.inProcess p)) :
    Effect i s w.peers (op.finish r (op.begin s)) w'.peers := by
  have kept {r : Registry} {peers : List Peer} (bond : r.bond = s.registry.bond)
      (next : r.nextGeneration = s.registry.nextGeneration) :
      Effect i s peers { s with registry := r } peers :=
    .idle bond (Nat.le_of_eq next.symm) (fun _ here => here) fun _ _ => ⟨opened, rfl⟩
  cases course with
  | subscribe course => exact subscribe_effect course plays inProcess opened
  | unsubscribe course =>
    cases course with
    | refused =>
      cases plays
      exact kept rfl rfl
    | removed answer released occupied owned =>
      rw [List.append_cons] at plays
      exact release_effect _ plays (by simp) occupied known rfl fun _ here => here
  | deliver course =>
    cases course with
    | vacant | unmatched =>
      cases plays
      exact kept rfl rfl
    | matched released occupied wanted announced =>
      refine release_effect _ plays ?_ occupied known rfl fun _ here => here
      simp [quiet_announces announced]
  | peerLost course =>
    exact loses_effect course plays known rfl opened (fun _ here => here) fun _ _ => rfl
  | process course =>
    have taken : ∀ g ∈ (Operation.process.begin s).inbox, g ∈ s.inbox :=
      fun _ here => absurd here List.not_mem_nil
    cases course with
    | vacant vacant =>
      cases plays
      refine .idle rfl (Nat.le_refl _) taken fun b held => ?_
      rw [Registry.bond_of_vacant vacant] at held
      contradiction
    | stale occupied absent =>
      rw [plays_quiet plays (by simp)]
      refine .idle rfl (Nat.le_refl _) taken fun b held => ⟨opened, ?_⟩
      obtain rfl := Option.some.inj ((Registry.bond_of_current occupied).symm.trans held)
      exact (List.count_eq_zero.mpr absent).symm
    | lost before after released occupied split first =>
      rw [List.append_cons] at plays
      exact release_effect _ plays (by simp) occupied known rfl taken
  | close course =>
    have gone : ∀ g ∈ (Operation.close.finish r (Operation.close.begin s)).inbox, g ∈ s.inbox :=
      fun _ here => absurd here List.not_mem_nil
    cases course with
    | vacant vacant =>
      cases plays
      refine .idle (Registry.bond_of_vacant vacant).symm (Nat.le_refl _) gone fun b held => ?_
      rw [Registry.bond_of_vacant vacant] at held
      contradiction
    | released answer occupied =>
      exact release_effect [] plays trivial occupied known rfl gone

theorem operate_effect {s : Station} (inProcess : w.InProcess)
    (there : w.stations[i]? = some s) (opened : s.isOpen = true)
    (known : ∀ b, s.registry.bond = some b → ∃ p, w.peers[b.peer]? = some (.inProcess p))
    (op : Operation) :
    ∃ xs out r, op.Course s xs out r ∧
      (w.operate i op).stations = w.stations.set i (op.finish r (op.begin s)) ∧
      Effect i s w.peers (op.finish r (op.begin s)) (w.operate i op).peers := by
  obtain ⟨xs, out, r, w₁, course, plays, done⟩ := operate_course there op
  have still : (w.modifyStation i op.begin).InProcess := inProcess
  have once := stations_modifyStation (op.finish r ∘ op.begin) there
  have effect := course_effect course plays still opened known
  rw [← modifyStation_modifyStation] at once
  rw [done]
  refine ⟨xs, out, r, course, Eq.trans ?_ once, effect⟩
  exact congrArg (List.modify · i (op.finish r)) (plays_stations plays still)

/-- Takes the first notice out of the inbox and applies it. -/
def heed (i generation : Nat) (rest : List Nat) (w : World) : World :=
  (w.modifyStation i fun s => { s with inbox := rest }).operate i (.peerLost generation)

theorem heed_effect {s : Station} {generation : Nat} {rest : List Nat} (inProcess : w.InProcess)
    (there : w.stations[i]? = some s) (opened : s.isOpen = true)
    (known : ∀ b, s.registry.bond = some b → ∃ p, w.peers[b.peer]? = some (.inProcess p))
    (queued : s.inbox = generation :: rest) :
    ∃ s', (w.heed i generation rest).stations = w.stations.set i s' ∧
      Effect i s w.peers s' (w.heed i generation rest).peers := by
  have taken := getElem?_modifyStation (fun s => { s with inbox := rest }) there
  obtain ⟨xs, out, r, w₁, course, plays, done⟩ := operate_course taken (.peerLost generation)
  let begun := (w.modifyStation i fun s => { s with inbox := rest }).modifyStation i
    (Operation.peerLost generation).begin
  have still : begun.InProcess := inProcess
  let s' : Station := { s with registry := r, inbox := rest }
  have effect : Effect i s begun.peers s' w₁.peers := by
    cases course with
    | peerLost course =>
      refine loses_effect course plays known rfl opened ?_ fun g other => ?_
      · intro g here
        exact queued ▸ List.mem_cons_of_mem _ here
      · rw [queued, List.count_cons_of_ne (Ne.symm other)]
  have once := stations_modifyStation
    (((Operation.peerLost generation).finish r ∘ (Operation.peerLost generation).begin) ∘
      fun s => { s with inbox := rest }) there
  rw [← modifyStation_modifyStation, ← modifyStation_modifyStation] at once
  rw [heed, done]
  refine ⟨s', Eq.trans ?_ once, effect⟩
  exact congrArg (List.modify · i _) (plays_stations plays still)

end World
end ScanSlot
