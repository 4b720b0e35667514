import ScanSlot.Proofs.Worker.Schedule
import ScanSlot.Proofs.Registry.Course

/-! A service: a worker, the queue of messages in front of it and any number of clients that call at
any time. Callers wait for an answer of their own, except those that bring results; nobody waits for
the death notices. The worker takes one message after another until a shutdown, or until there are
no clients left, then gives up the queue and last the registry. -/
namespace ScanSlot

open Relation (ReflTransGen)
open Dialogue (Path path_run)

namespace Message

def isCommand : Message → Bool
  | .command _ => true
  | .shutdown => false

/-- What is lost with a message that nobody handles. -/
def callback? : Message → Option CallbackRef
  | .command (.subscribe request) => some request.callback
  | _ => none

/-- What a caller hears when the queue takes its message: results are not waited for. -/
def receipt : Message → Option (Except Fault Reply)
  | .command (.deliver _) => some (.ok .done)
  | _ => none

/-- What a caller hears when its message is handled. -/
def returned (reply : Reply) : Message → Option (Except Fault Reply)
  | .command (.deliver _) | .shutdown => none
  | .command _ => some (.ok reply)

/-- What a caller hears when its message is lost with the queue. -/
def verdict : Message → Option (Except Fault Reply)
  | .command (.deliver _) | .shutdown => none
  | .command _ => some (.error .serviceStopped)

/-- What a caller hears when there is no queue any more. -/
def refusal : Message → Option (Except Fault Reply)
  | .command _ => some (.error .serviceStopped)
  | .shutdown => none

end Message

/-- Surroundings in which a callback can also be dropped without having been called. -/
structure Environment (σ : Type) extends Surroundings σ where
  drop : CallbackRef → σ → σ

/-- Drops the callbacks that come with some messages. -/
def Environment.dropAll {σ : Type} (e : Environment σ) (entries : List (Message × Nat))
    (s : Site σ) : Site σ :=
  { s with
    outside := (entries.filterMap (·.1.callback?)).foldl (fun o callback => e.drop callback o)
      s.outside }

/-- What a worker does in one go. A ticket tells whose message it is. -/
inductive Job where
  | notice (generation : Nat)
  | command (generations : List Nat) (ticket : Nat) (command : Command)
  | stop (generations : List Nat) (ticket : Option Nat)
  | retire

namespace Job

def program (r : Registry) : Job → Dialogue (Reply × Registry)
  | notice generation => do return (.done, ← r.peerLost generation)
  | command generations _ c => do c.handle (← r.applyNotices generations)
  | stop generations _ => do return (.done, ← r.applyNotices generations)
  | retire => do return (.done, ← r.vacate)

/-- The message that the job takes from the queue. -/
def entry? : Job → Option (Message × Nat)
  | command _ ticket c => some (.command c, ticket)
  | stop _ ticket => ticket.map (.shutdown, ·)
  | notice _ | retire => none

end Job

/-- A job as it was done. -/
structure Deed where
  job : Job
  before : Registry
  exchanges : List Exchange
  reply : Reply
  after : Registry

inductive Phase where
  | serving
  /-- No message is taken any more, but the queue is still there. -/
  | leaving
  /-- The queue is gone, but the registry is still there. -/
  | closing
  | gone
  deriving DecidableEq

/-- The state of a service and what has happened to it. A call is known by its place in the order of
arrival, which is its ticket. It arrives when the queue takes its message or is found to be gone; a
caller that still waits for room in the queue has not arrived. -/
structure Service (σ : Type) where
  phase : Phase
  registry : Registry
  queue : List (Message × Nat)
  /-- There is no client left that could call. -/
  deserted : Bool
  calls : List Message
  answers : List (Nat × Except Fault Reply)
  /-- What the worker has done. -/
  journal : List Deed
  /-- What was in the queue when it was given up. -/
  discarded : List (Message × Nat)
  /-- What came too late for the queue. -/
  refused : List (Message × Nat)
  /-- The callbacks dropped with messages that nobody handled. -/
  dropped : List CallbackRef
  site : Site σ

/-- The answers that some messages get. -/
def answersTo (answer : Message → Option (Except Fault Reply)) (entries : List (Message × Nat)) :
    List (Nat × Except Fault Reply) :=
  entries.filterMap fun entry => (answer entry.1).map (entry.2, ·)

/-- What the caller with a ticket has been told. -/
def heardIn (answers : List (Nat × Except Fault Reply)) (ticket : Nat) :
    List (Except Fault Reply) :=
  answers.filterMap fun answer => if answer.1 = ticket then some answer.2 else none

namespace Service
variable {σ : Type}

def start (r : Registry) (site : Site σ) : Service σ where
  phase := .serving
  registry := r
  queue := []
  deserted := false
  calls := []
  answers := []
  journal := []
  discarded := []
  refused := []
  dropped := []
  site

/-- The receiving end of the queue is still there. -/
def isOpen (t : Service σ) : Bool :=
  match t.phase with
  | .serving | .leaving => true
  | .closing | .gone => false

def heard (t : Service σ) (ticket : Nat) : List (Except Fault Reply) :=
  heardIn t.answers ticket

/-- The messages that the worker has taken. -/
def taken (t : Service σ) : List (Message × Nat) :=
  t.journal.filterMap (·.job.entry?)

/-- The commands that the worker has handled. -/
def handled (t : Service σ) : List (Message × Nat) :=
  t.taken.filter (·.1.isCommand)

/-! ### Clients -/

def accept (m : Message) (t : Service σ) : Service σ :=
  { t with
    calls := t.calls ++ [m]
    queue := t.queue ++ [(m, t.calls.length)]
    answers := t.answers ++ answersTo Message.receipt [(m, t.calls.length)] }

def refuse (e : Environment σ) (m : Message) (t : Service σ) : Service σ :=
  { t with
    calls := t.calls ++ [m]
    refused := t.refused ++ [(m, t.calls.length)]
    answers := t.answers ++ answersTo Message.refusal [(m, t.calls.length)]
    dropped := t.dropped ++ [(m, t.calls.length)].filterMap (·.1.callback?)
    site := e.dropAll [(m, t.calls.length)] t.site }

/-- A caller of a shutdown waits until the worker has exited. -/
def join (ticket : Nat) (t : Service σ) : Service σ :=
  { t with answers := t.answers ++ [(ticket, .ok .done)] }

/-! ### The worker -/

def outcome (e : Environment σ) (job : Job) (inbox : List Nat) (t : Service σ) :
    (Reply × Registry) × Site σ :=
  (job.program t.registry).run e.host.toCollaborators { t.site with inbox }

def deed (e : Environment σ) (job : Job) (inbox : List Nat) (t : Service σ) : Deed where
  job
  before := t.registry
  exchanges := (job.program t.registry).exchanges e.host.toCollaborators { t.site with inbox }
  reply := (t.outcome e job inbox).1.1
  after := (t.outcome e job inbox).1.2

/-- Does a job, with the given notices left in the inbox. -/
def act (e : Environment σ) (job : Job) (inbox : List Nat) (phase : Phase) (t : Service σ) :
    Service σ :=
  { t with
    phase
    registry := (t.outcome e job inbox).1.2
    journal := t.journal ++ [t.deed e job inbox]
    site := (t.outcome e job inbox).2 }

def handle (e : Environment σ) (ticket : Nat) (command : Command) (rest : List (Message × Nat))
    (t : Service σ) : Service σ :=
  { t.act e (.command t.site.inbox ticket command) [] .serving with
    queue := rest
    answers := t.answers ++
      answersTo (Message.returned (t.deed e (.command t.site.inbox ticket command) []).reply)
        [(.command command, ticket)] }

def stop (e : Environment σ) (ticket : Option Nat) (rest : List (Message × Nat))
    (t : Service σ) : Service σ :=
  { t.act e (.stop t.site.inbox ticket) [] .leaving with queue := rest }

/-- Gives up the queue with everything in it. -/
def discard (e : Environment σ) (t : Service σ) : Service σ :=
  { t with
    phase := .closing
    queue := []
    discarded := t.queue
    answers := t.answers ++ answersTo Message.verdict t.queue
    dropped := t.dropped ++ t.queue.filterMap (·.1.callback?)
    site := e.dropAll t.queue t.site }

def exit (e : Environment σ) (t : Service σ) : Service σ :=
  t.act e .retire t.site.inbox .gone

/-- What clients and surroundings do. -/
inductive Acts (e : Environment σ) : Service σ → Service σ → Prop where
  | accepted {t : Service σ} (m : Message) (present : t.deserted = false)
      (accepting : t.isOpen = true) : Acts e t (t.accept m)
  | refused {t : Service σ} (m : Message) (present : t.deserted = false)
      (closed : t.isOpen = false) : Acts e t (t.refuse e m)
  | joined {t : Service σ} (ticket : Nat) (asked : t.calls[ticket]? = some .shutdown)
      (waiting : t.heard ticket = []) (exited : t.phase = .gone) : Acts e t (t.join ticket)
  | deserted (t : Service σ) : Acts e t { t with deserted := true }
  | posted (t : Service σ) (generation : Nat) :
      Acts e t { t with site := { t.site with inbox := t.site.inbox ++ [generation] } }
  | changed (t : Service σ) (outside : σ) : Acts e t { t with site := { t.site with outside } }

/-- What the worker does. It leaves at a shutdown, or when nobody is left and all is done. -/
inductive Works (e : Environment σ) : Service σ → Service σ → Prop where
  | notice {t : Service σ} {generation : Nat} {rest : List Nat} (serving : t.phase = .serving)
      (posted : t.site.inbox = generation :: rest) :
      Works e t (t.act e (.notice generation) rest .serving)
  | handle {t : Service σ} {command : Command} {ticket : Nat} {rest : List (Message × Nat)}
      (serving : t.phase = .serving) (next : t.queue = (.command command, ticket) :: rest) :
      Works e t (t.handle e ticket command rest)
  | stop {t : Service σ} {ticket : Nat} {rest : List (Message × Nat)}
      (serving : t.phase = .serving) (next : t.queue = (.shutdown, ticket) :: rest) :
      Works e t (t.stop e (some ticket) rest)
  | abandon {t : Service σ} (serving : t.phase = .serving) (alone : t.deserted = true)
      (served : t.queue = []) : Works e t (t.stop e none [])
  | discard {t : Service σ} (leaving : t.phase = .leaving) : Works e t (t.discard e)
  | exit {t : Service σ} (closing : t.phase = .closing) : Works e t (t.exit e)

def Step (e : Environment σ) (t t' : Service σ) : Prop :=
  Acts e t t' ∨ Works e t t'

/-- What a run says and hears is added to the site. -/
theorem run_exchanges {α : Type} (e : Surroundings σ) (d : Dialogue α) (s : Site σ) :
    (d.run e.host.toCollaborators s).2.exchanges =
      s.exchanges ++ d.exchanges e.host.toCollaborators s := by
  induction d generalizing s with
  | done => exact (List.append_nil _).symm
  | link _ _ _ ih | unlink _ _ _ ih | notify _ _ _ ih | log _ _ ih =>
    simp only [Dialogue.run, Dialogue.exchanges, ih]
    simp only [Surroundings.host, List.append_assoc, List.singleton_append]

theorem deed_lawful (e : Environment σ) (job : Job) (inbox : List Nat) (t : Service σ) :
    Path (job.program (t.deed e job inbox).before) (t.deed e job inbox).exchanges
      ((t.deed e job inbox).reply, (t.deed e job inbox).after) :=
  path_run e.host.toCollaborators (job.program t.registry) { t.site with inbox }

theorem act_exchanges (e : Environment σ) (job : Job) (inbox : List Nat) (phase : Phase)
    (t : Service σ) :
    (t.act e job inbox phase).site.exchanges =
      t.site.exchanges ++ (t.deed e job inbox).exchanges :=
  run_exchanges e.toSurroundings (job.program t.registry) { t.site with inbox }

@[simp] theorem taken_act (e : Environment σ) (job : Job) (inbox : List Nat) (phase : Phase)
    (t : Service σ) : (t.act e job inbox phase).taken = t.taken ++ job.entry?.toList := by
  simp only [taken, act, List.filterMap_append, List.filterMap_cons, List.filterMap_nil]
  cases entry : job.entry? <;> simp [deed, entry]

/-- A notice posts nothing. -/
theorem inbox_notice (e : Environment σ) (generation : Nat) (rest : List Nat) (t : Service σ) :
    (t.act e (.notice generation) rest .serving).site.inbox = rest := by
  simp only [act, outcome, Job.program, Dialogue.run_bind,
    Worker.run_peerLost_inbox e.toSurroundings t.registry generation t.site rest]
  rfl

/-! ### The worker comes to its end -/

/-- How far the worker has come counts most, then the messages, then the notices. -/
def weight (t : Service σ) : Nat × Nat × Nat :=
  (match t.phase with
    | .serving => 3
    | .leaving => 2
    | .closing => 1
    | .gone => 0,
    t.queue.length, t.site.inbox.length)

theorem works_lighter {e : Environment σ} {t t' : Service σ} (works : Works e t t') :
    Worker.Loop.Lighter t'.weight t.weight := by
  cases works with
  | @notice generation rest serving posted =>
    simp only [weight, inbox_notice, serving, posted]
    exact .right _ (.right _ (Nat.lt_succ_self _))
  | handle serving next =>
    simp only [weight, handle, act, serving, next]
    exact .right _ (.left _ _ (Nat.lt_succ_self _))
  | stop serving next =>
    simp only [weight, Service.stop, act, serving]
    exact .left _ _ (by decide)
  | abandon serving =>
    simp only [weight, Service.stop, act, serving]
    exact .left _ _ (by decide)
  | discard leaving =>
    simp only [weight, Service.discard, leaving]
    exact .left _ _ (by decide)
  | exit closing =>
    simp only [weight, Service.exit, act, closing]
    exact .left _ _ (by decide)

/-- The worker cannot go on for ever on its own. -/
theorem works_acc (e : Environment σ) (t : Service σ) : Acc (fun t' t => Works e t t') t :=
  Subrelation.accessible works_lighter
    (InvImage.accessible weight (Worker.Loop.lighter_wf.apply t.weight))

/-- The worker rests only where nobody has left it anything to do. -/
theorem works_or_rests (e : Environment σ) (t : Service σ) :
    (∃ t', Works e t t') ∨ t.phase = .gone ∨
      t.phase = .serving ∧ t.queue = [] ∧ t.deserted = false := by
  cases phase : t.phase with
  | serving =>
    cases queue : t.queue with
    | nil =>
      cases alone : t.deserted with
      | false => exact .inr (.inr ⟨rfl, rfl, rfl⟩)
      | true => exact .inl ⟨_, .abandon phase alone queue⟩
    | cons entry rest =>
      obtain ⟨_ | _, ticket⟩ := entry
      · exact .inl ⟨_, .handle phase queue⟩
      · exact .inl ⟨_, .stop phase queue⟩
  | leaving => exact .inl ⟨_, .discard phase⟩
  | closing => exact .inl ⟨_, .exit phase⟩
  | gone => exact .inr (.inl rfl)

/-! ### The worker of a service is the worker that receives messages -/

theorem applyQueued_host (e : Environment σ) (r : Registry) (s : Site σ) :
    Worker.applyQueued e.host r s =
      (r.applyNotices s.inbox).run e.host.toCollaborators { s with inbox := [] } := rfl

theorem handle_eq_receive (e : Environment σ) (ticket : Nat) (c : Command)
    (rest : List (Message × Nat)) (t : Service σ) :
    Worker.receive e.host (.command c) (.running t.registry) t.site =
      (.ok (t.deed e (.command t.site.inbox ticket c) []).reply,
        .running (t.handle e ticket c rest).registry, (t.handle e ticket c rest).site) := by
  simp only [Worker.receive, applyQueued_host, handle, act, deed, outcome, Job.program,
    Dialogue.run_bind]

/-- A shutdown is received by stopping and then exiting with nothing in between. -/
theorem exit_stop_eq_receive (e : Environment σ) (ticket : Option Nat)
    (rest : List (Message × Nat)) (t : Service σ) :
    Worker.receive e.host .shutdown (.running t.registry) t.site =
      (.ok .done, .stopped, ((t.stop e ticket rest).exit e).site) := by
  simp only [Worker.receive, applyQueued_host, exit, stop, act, outcome, Job.program,
    Dialogue.run_bind]
  rfl

end Service
end ScanSlot
