import ScanSlot.Worker.Basic
import ScanSlot.Proofs.Dialogue.Path
import Mathlib.Logic.Relation
import Mathlib.Order.WellFounded

/-! A worker waits for two queues at once, the notices of dead peers and the messages of its
clients, and may serve either when both have something. The choice makes no difference: the worker
always stops, and replies, calls and registry are those of a plain program without any choice. -/
namespace ScanSlot

open Relation (ReflTransGen)

/-- Peers, callbacks and log around one worker. A peer may fire hooks while it links one, and what
they post to the worker's inbox comes with its answer; nothing else posts notices. -/
structure Surroundings (σ : Type) where
  link : PeerRef → Nat → σ → Except Fault Nat × List Nat × σ
  unlink : PeerRef → Nat → σ → Except Fault Unit × σ
  notify : CallbackRef → Event → σ → Except Fault Unit × σ
  log : LogEntry → σ → σ

/-- The inbox of a worker, everything it has said and heard so far, and what surrounds it. -/
structure Site (σ : Type) where
  inbox : List Nat
  exchanges : List Exchange
  outside : σ

/-- What a worker meets at its site. -/
def Surroundings.host {σ : Type} (e : Surroundings σ) : Host (Site σ) where
  link peer generation s :=
    let (answer, posted, outside) := e.link peer generation s.outside
    (answer, ⟨s.inbox ++ posted, s.exchanges ++ [.link peer generation answer], outside⟩)
  unlink peer l s :=
    let (answer, outside) := e.unlink peer l s.outside
    (answer, ⟨s.inbox, s.exchanges ++ [.unlink peer l answer], outside⟩)
  notify callback event s :=
    let (answer, outside) := e.notify callback event s.outside
    (answer, ⟨s.inbox, s.exchanges ++ [.notify callback event answer], outside⟩)
  log entry s := ⟨s.inbox, s.exchanges ++ [.log entry], e.log entry s.outside⟩
  takeNotices s := (s.inbox, { s with inbox := [] })

namespace Worker
variable {σ : Type}

/-- The plain program: before each message all notices are applied in their order, and a shutdown
or the end of the messages ends it, which gives the slot up. -/
def serve (h : Host σ) (r : Registry) (s : σ) : List Message → List Reply × Registry × σ
  | [] | .shutdown :: _ =>
      let (r, s) := applyQueued h r s
      ([], r, (r.vacate.run h.toCollaborators s).2)
  | .command command :: rest =>
      let (r, s) := applyQueued h r s
      let ((reply, r), s) := (command.handle r).run h.toCollaborators s
      let (replies, r, s) := serve h r s rest
      (reply :: replies, r, s)

/-- Hands over messages one after another. -/
def receiveAll (h : Host σ) : List Message → Worker → σ → List (Except Fault Reply) × Worker × σ
  | [], w, s => ([], w, s)
  | m :: rest, w, s =>
      let (reply, w, s) := receive h m w s
      let (replies, w, s) := receiveAll h rest w s
      (reply :: replies, w, s)

/-- The plain program is the worker that receives the messages one by one and is shut down. -/
theorem receiveAll_commands (h : Host σ) (commands : List Command) (r : Registry) (s : σ) :
    receiveAll h (commands.map .command ++ [.shutdown]) (.running r) s =
      let (replies, _, s) := serve h r s (commands.map .command)
      (replies.map .ok ++ [.ok .done], .stopped, s) := by
  induction commands generalizing r s with
  | nil => rfl
  | cons command rest ih =>
    simp only [List.map_cons, List.cons_append, receiveAll, receive, serve, ih]

/-- A worker between two waits. Its clients are gone once there is no message pending. -/
structure Loop (σ : Type) where
  registry : Registry
  running : Bool
  pending : List Message
  replies : List Reply
  site : Site σ

namespace Loop

/-- Takes one notice. -/
def takeNotice (e : Surroundings σ) (generation : Nat) (rest : List Nat) (l : Loop σ) : Loop σ :=
  let (registry, site) :=
    (l.registry.peerLost generation).run e.host.toCollaborators { l.site with inbox := rest }
  { l with registry, site }

/-- Takes a message or learns that there will be none. Either way all notices come first. -/
def takeMessage (e : Surroundings σ) (l : Loop σ) : Loop σ :=
  let (r, s) := applyQueued e.host l.registry l.site
  match l.pending with
  | [] | .shutdown :: _ =>
      { l with
        registry := r, running := false, site := (r.vacate.run e.host.toCollaborators s).2 }
  | .command command :: rest =>
      let ((reply, r), s) := (command.handle r).run e.host.toCollaborators s
      { l with registry := r, pending := rest, replies := l.replies ++ [reply], site := s }

/-- One round of waiting, with either queue chosen where both are ready. -/
inductive Step (e : Surroundings σ) : Loop σ → Loop σ → Prop where
  | notice {l : Loop σ} {generation : Nat} {rest : List Nat} (running : l.running = true)
      (queued : l.site.inbox = generation :: rest) : Step e l (l.takeNotice e generation rest)
  | message {l : Loop σ} (running : l.running = true) : Step e l (l.takeMessage e)

/-- Where the loop is bound to end. -/
def result (e : Surroundings σ) (l : Loop σ) : List Reply × Registry × Site σ :=
  if l.running then
    let (replies, r, s) := serve e.host l.registry l.site l.pending
    (l.replies ++ replies, r, s)
  else (l.replies, l.registry, l.site)

end Loop

/-- A notice is taken without a look at the inbox and posts nothing to it. -/
theorem run_peerLost_inbox (e : Surroundings σ) (r : Registry) (generation : Nat) (s : Site σ)
    (inbox : List Nat) :
    (r.peerLost generation).run e.host.toCollaborators { s with inbox } =
      (((r.peerLost generation).run e.host.toCollaborators s).1,
        { ((r.peerLost generation).run e.host.toCollaborators s).2 with inbox }) := by
  unfold Registry.peerLost Registry.vacate
  cases occupied : r.current with
  | none => rfl
  | some active =>
    by_cases same : active.generation = generation
    · simp only [if_pos same, Dialogue.run_bind]
      simp only [Dialogue.report, Dialogue.callUnlink, Dialogue.run, Surroundings.host]
      cases (e.unlink active.peer active.link (e.log (.peerLost active.owner) s.outside)).1 <;> rfl
    · simp only [if_neg same]
      rfl

/-- Applying the whole queue is taking its first notice and then applying the rest. -/
theorem applyQueued_cons (e : Surroundings σ) (r : Registry) (s : Site σ) {generation : Nat}
    {rest : List Nat} (queued : s.inbox = generation :: rest) :
    applyQueued e.host r s =
      applyQueued e.host
        ((r.peerLost generation).run e.host.toCollaborators { s with inbox := rest }).1
        ((r.peerLost generation).run e.host.toCollaborators { s with inbox := rest }).2 := by
  have taken (r : Registry) (s : Site σ) : applyQueued e.host r s =
      (r.applyNotices s.inbox).run e.host.toCollaborators { s with inbox := [] } := rfl
  have first : (r.applyNotices (generation :: rest)) =
      r.peerLost generation >>= fun r => r.applyNotices rest := rfl
  rw [taken, taken, queued, first, Dialogue.run_bind, run_peerLost_inbox e r generation s rest,
    run_peerLost_inbox e r generation s []]

theorem serve_congr {h : Host σ} {r r' : Registry} {s s' : σ}
    (same : applyQueued h r s = applyQueued h r' s') (pending : List Message) :
    serve h r s pending = serve h r' s' pending := by
  cases pending with
  | nil => simp only [serve, same]
  | cons message rest => cases message <;> simp only [serve, same]

namespace Loop

theorem step_result {e : Surroundings σ} {l l' : Loop σ} (step : Step e l l') :
    l'.result e = l.result e := by
  cases step with
  | @notice generation rest running queued =>
    have same := serve_congr (applyQueued_cons e l.registry l.site queued) l.pending
    simp only [result, takeNotice, running, if_true, same]
  | message running =>
    obtain ⟨r, _, pending, replies, s⟩ := l
    obtain rfl : _ = true := running
    cases pending with
    | nil => simp [result, takeMessage, serve]
    | cons message rest => cases message <;> simp [result, takeMessage, serve]

theorem reaches_result {e : Surroundings σ} {l l' : Loop σ} (run : ReflTransGen (Step e) l l') :
    l'.result e = l.result e := by
  induction run with
  | refl => rfl
  | tail _ step ih => exact (step_result step).trans ih

/-- Stopping counts most, then the messages, then the notices: a message may well bring notices. -/
def weight (l : Loop σ) : Nat × Nat × Nat :=
  (if l.running then 1 else 0, l.pending.length, l.site.inbox.length)

abbrev Lighter : Nat × Nat × Nat → Nat × Nat × Nat → Prop :=
  Prod.Lex (· < ·) (Prod.Lex (· < ·) (· < ·))

theorem lighter_wf : WellFounded Lighter :=
  (Prod.lex Nat.lt_wfRel (Prod.lex Nat.lt_wfRel Nat.lt_wfRel)).wf

theorem step_lighter {e : Surroundings σ} {l l' : Loop σ} (step : Step e l l') :
    Lighter l'.weight l.weight := by
  cases step with
  | @notice generation rest running queued =>
    have kept : (l.takeNotice e generation rest).site.inbox = rest := by
      simp only [takeNotice, run_peerLost_inbox e l.registry generation l.site rest]
    simp only [weight, kept, queued]
    exact .right _ (.right _ (Nat.lt_succ_self _))
  | message running =>
    obtain ⟨r, _, pending, replies, s⟩ := l
    obtain rfl : _ = true := running
    cases pending with
    | nil => exact .left _ _ Nat.one_pos
    | cons message rest =>
      cases message with
      | shutdown => exact .left _ _ Nat.one_pos
      | command command => exact .right _ (.left _ _ (Nat.lt_succ_self _))

theorem step_acc (e : Surroundings σ) (l : Loop σ) : Acc (fun l' l => Step e l l') l :=
  Subrelation.accessible step_lighter (InvImage.accessible weight (lighter_wf.apply l.weight))

end Loop

/-- Whatever is chosen at each wait, the worker does not go on for ever, is never stuck, and where
it has stopped it has done what the plain program does. -/
theorem schedule_irrelevant (e : Surroundings σ) (r : Registry) (site : Site σ)
    (pending : List Message) :
    let start : Loop σ := ⟨r, true, pending, [], site⟩
    (¬ ∃ loops : Nat → Loop σ,
        loops 0 = start ∧ ∀ n, Loop.Step e (loops n) (loops (n + 1))) ∧
      (∀ l, ReflTransGen (Loop.Step e) start l → l.running = true → ∃ l', Loop.Step e l l') ∧
      ∀ l, ReflTransGen (Loop.Step e) start l → l.running = false →
        (l.replies, l.registry, l.site) = serve e.host r site pending := by
  intro start
  refine ⟨?_, ?_, ?_⟩
  · rintro ⟨loops, initial, steps⟩
    exact not_acc_iff_exists_descending_chain.mpr ⟨loops, initial, steps⟩ (Loop.step_acc e start)
  · intro l _ running
    exact ⟨_, .message running⟩
  · intro l run stopped
    have same := Loop.reaches_result run
    simpa [Loop.result, start, stopped] using same

end Worker
end ScanSlot
