import Mathlib.Data.List.Basic
import ScanSlot.Channel
import ScanSlot.Event

/-! A channel loses nothing and doubles nothing. What its two ends were ever told fixes what happens
next: the notifications that were accepted and not yet received are buffered, in the order of the
calls, and every answer to either end is read off them and off which ends are closed. -/
namespace ScanSlot.Channel

section
variable {α : Type}

/-- Receiving one item after another until there is none. -/
inductive Drains : Channel α → List α → Channel α → Prop where
  | stop {c : Channel α} {silence : Silence} (silent : c.receive.1 = .error silence) :
      Drains c [] c.receive.2
  | take {c c' : Channel α} {a : α} {rest : List α} (taken : c.receive.1 = .ok a)
      (later : Drains c.receive.2 rest c') : Drains c (a :: rest) c'

/-- Taking everything at once comes to the same. -/
theorem drains_iff {c c' : Channel α} {items : List α} :
    Drains c items c' ↔ c.drain = (items, c') := by
  obtain ⟨capacity, buffer, receiverOpen, senderOpen⟩ := c
  induction buffer generalizing items with
  | nil =>
    constructor
    · rintro (_ | taken)
      · rfl
      · cases taken
    · rintro ⟨⟩
      exact .stop rfl
  | cons a rest ih =>
    constructor
    · rintro (silent | ⟨taken, later⟩)
      · cases silent
      · cases taken
        obtain ⟨rfl, rfl⟩ := Prod.mk.inj (ih.mp later)
        rfl
    · rintro ⟨⟩
      exact .take rfl (ih.mpr rfl)

end

/-! ### The uses of a channel -/

/-- Receiving waits without end, not at all, or for a while. -/
inductive Mode where
  | blocking
  | polling
  | timed
  deriving DecidableEq

inductive Report where
  | recvError
  | empty
  | timeout
  | disconnected
  deriving DecidableEq

/-- How a silence is reported. A receiver that waits without end on an open channel hears
nothing. -/
def Mode.report : Mode → Silence → Option Report
  | blocking, .empty => none
  | blocking, .disconnected => some .recvError
  | polling, .empty => some .empty
  | polling, .disconnected => some .disconnected
  | timed, .empty => some .timeout
  | timed, .disconnected => some .disconnected

/-- What was done at one of the ends, with the answer. An event stands for the call that announces
it. -/
inductive Use where
  | notified (event : Event) (answer : Except Fault Unit)
  | received (mode : Mode) (event : Event)
  | silent (mode : Mode) (report : Report)
  | drained (events : List Event)
  | receiverClosed
  | senderClosed
  deriving DecidableEq

/-- Only who holds an end can use it. -/
inductive Step : Channel Event → Use → Channel Event → Prop where
  | notify {c : Channel Event} (held : c.senderOpen = true) (event : Event) :
      Step c (.notified event (c.send event).1) (c.send event).2
  | receive {c : Channel Event} {event : Event} (held : c.receiverOpen = true) (mode : Mode)
      (next : c.receive.1 = .ok event) : Step c (.received mode event) c.receive.2
  | silence {c : Channel Event} {silence : Silence} {mode : Mode} {report : Report}
      (held : c.receiverOpen = true) (none : c.receive.1 = .error silence)
      (told : mode.report silence = some report) : Step c (.silent mode report) c.receive.2
  | drain {c : Channel Event} (held : c.receiverOpen = true) :
      Step c (.drained c.drain.1) c.drain.2
  | closeReceiver {c : Channel Event} (held : c.receiverOpen = true) :
      Step c .receiverClosed c.closeReceiver
  | closeSender {c : Channel Event} (held : c.senderOpen = true) :
      Step c .senderClosed c.closeSender

inductive Runs (c : Channel Event) : List Use → Channel Event → Prop where
  | refl : Runs c [] c
  | next {uses : List Use} {use : Use} {d e : Channel Event} (run : Runs c uses d)
      (step : Step d use e) : Runs c (uses ++ [use]) e

/-- The event of a call that was accepted. -/
def Use.accepted : Use → List Event
  | notified event (.ok ()) => [event]
  | _ => []

def Use.delivered : Use → List Event
  | received _ event => [event]
  | drained events => events
  | _ => []

def accepted (uses : List Use) : List Event := uses.flatMap Use.accepted

def delivered (uses : List Use) : List Event := uses.flatMap Use.delivered

/-- What was accepted and not delivered. -/
def pending (uses : List Use) : List Event :=
  (accepted uses).drop (delivered uses).length

/-- What happens is what has to happen after what has happened, on a channel with room for `n`. -/
def Follows (n : Nat) (uses : List Use) : Use → Prop
  | .notified _ answer =>
      (answer = .ok () ∨ answer = .error .callbackBufferFull ∨ answer = .error .peerUnreachable) ∧
      (answer = .error .callbackBufferFull ↔
        .receiverClosed ∉ uses ∧ (pending uses).length = n) ∧
      (answer = .error .peerUnreachable ↔ .receiverClosed ∈ uses)
  | .received _ event => ∃ rest, pending uses = event :: rest
  | .silent mode report => pending uses = [] ∧
      mode.report (if .senderClosed ∈ uses then .disconnected else .empty) = some report
  | .drained events => events = pending uses
  | .receiverClosed => .receiverClosed ∉ uses
  | .senderClosed => .senderClosed ∉ uses

section
variable {n : Nat} {c d : Channel Event} {uses : List Use} {use : Use}

theorem send_gone (gone : c.receiverOpen = false) (event : Event) :
    c.send event = (.error .peerUnreachable, c) := by
  simp [send, gone]

theorem send_full (held : c.receiverOpen = true) (full : c.capacity ≤ c.buffer.length)
    (event : Event) : c.send event = (.error .callbackBufferFull, c) := by
  simp [send, held, full]

theorem send_room (held : c.receiverOpen = true) (room : ¬ c.capacity ≤ c.buffer.length)
    (event : Event) : c.send event = (.ok (), { c with buffer := c.buffer ++ [event] }) := by
  simp [send, held, room]

theorem receive_silent {silence : Silence} (silent : c.receive.1 = .error silence) :
    c.buffer = [] ∧ c.receive.2 = c ∧
      silence = if c.senderOpen then .empty else .disconnected := by
  cases buffered : c.buffer with
  | nil =>
    simp only [Channel.receive, buffered, Except.error.injEq] at silent ⊢
    exact ⟨trivial, trivial, silent.symm⟩
  | cons => simp [Channel.receive, buffered] at silent

theorem buffer_of_receive {event : Event} (next : c.receive.1 = .ok event) :
    c.buffer = event :: c.receive.2.buffer := by
  cases buffered : c.buffer with
  | nil => simp [Channel.receive, buffered] at next
  | cons => simpa [Channel.receive, buffered] using next

theorem accepted_snoc (uses : List Use) (use : Use) :
    accepted (uses ++ [use]) = accepted uses ++ use.accepted := by
  simp [accepted]

theorem delivered_snoc (uses : List Use) (use : Use) :
    delivered (uses ++ [use]) = delivered uses ++ use.delivered := by
  simp [delivered]

/-- What a channel keeps of its past. -/
structure Keeps (n : Nat) (uses : List Use) (c : Channel Event) : Prop where
  capacity : c.capacity = n
  receiver : c.receiverOpen = true ↔ .receiverClosed ∉ uses
  sender : c.senderOpen = true ↔ .senderClosed ∉ uses
  fifo : c.receiverOpen = true → delivered uses ++ c.buffer = accepted uses
  bounded : c.buffer.length ≤ n
  inOrder : delivered uses <+: accepted uses

namespace Keeps

theorem start (n : Nat) : Keeps n [] { capacity := n } where
  capacity := rfl
  receiver := by simp
  sender := by simp
  fifo _ := rfl
  bounded := Nat.zero_le n
  inOrder := List.prefix_rfl

variable (keeps : Keeps n uses c)
include keeps

theorem buffer_eq_pending (held : c.receiverOpen = true) : c.buffer = pending uses := by
  rw [pending, ← keeps.fifo held, List.drop_left]

/-- A use that moves no event and closes no end. -/
theorem idle (accepted : use.accepted = []) (delivered : use.delivered = [])
    (receiver : .receiverClosed ≠ use) (sender : .senderClosed ≠ use) :
    Keeps n (uses ++ [use]) c where
  capacity := keeps.capacity
  receiver := by simp [keeps.receiver, receiver]
  sender := by simp [keeps.sender, sender]
  fifo := by simpa [accepted_snoc, delivered_snoc, accepted, delivered] using keeps.fifo
  bounded := keeps.bounded
  inOrder := by simpa [accepted_snoc, delivered_snoc, accepted, delivered] using keeps.inOrder

/-- A use that moves events through the buffer. -/
theorem move {buffer : List Event} (held : c.receiverOpen = true)
    (moved : use.delivered ++ buffer = c.buffer ++ use.accepted) (fits : buffer.length ≤ n)
    (receiver : .receiverClosed ≠ use) (sender : .senderClosed ≠ use) :
    Keeps n (uses ++ [use]) { c with buffer } := by
  have fifo : delivered (uses ++ [use]) ++ buffer = accepted (uses ++ [use]) := by
    rw [delivered_snoc, accepted_snoc, List.append_assoc, moved, ← List.append_assoc,
      keeps.fifo held]
  exact {
    capacity := keeps.capacity
    receiver := by simp [keeps.receiver, receiver]
    sender := by simp [keeps.sender, sender]
    fifo := fun _ => fifo
    bounded := fits
    inOrder := ⟨buffer, fifo⟩ }

theorem notify (event : Event) :
    Keeps n (uses ++ [.notified event (c.send event).1]) (c.send event).2 := by
  cases held : c.receiverOpen with
  | false =>
    rw [send_gone held]
    exact keeps.idle rfl rfl nofun nofun
  | true =>
    by_cases full : c.capacity ≤ c.buffer.length
    · rw [send_full held full]
      exact keeps.idle rfl rfl nofun nofun
    · rw [send_room held full]
      have room := keeps.capacity
      refine keeps.move held rfl ?_ nofun nofun
      rw [List.length_append, List.length_singleton]
      omega

theorem receive {event : Event} (held : c.receiverOpen = true) (mode : Mode)
    (next : c.receive.1 = .ok event) : Keeps n (uses ++ [.received mode event]) c.receive.2 := by
  have buffered := buffer_of_receive next
  have fits := keeps.bounded
  rw [buffered, List.length_cons] at fits
  have moved : Use.delivered (.received mode event) ++ c.receive.2.buffer = c.buffer ++ [] :=
    buffered.symm.trans (List.append_nil _).symm
  have kept := keeps.move held moved (by omega) nofun nofun
  have same : c.receive.2 = { c with buffer := c.receive.2.buffer } := by
    rw [Channel.receive, buffered]
  rwa [same]

theorem step (step : Step c use d) : Keeps n (uses ++ [use]) d := by
  cases step with
  | notify _ event => exact keeps.notify event
  | receive held mode next => exact keeps.receive held mode next
  | silence _ none =>
    rw [(receive_silent none).2.1]
    exact keeps.idle rfl rfl nofun nofun
  | drain held => exact keeps.move held rfl (Nat.zero_le n) nofun nofun
  | closeReceiver =>
    exact {
      capacity := keeps.capacity
      receiver := by simp [closeReceiver]
      sender := by simp [closeReceiver, keeps.sender]
      fifo := nofun
      bounded := Nat.zero_le n
      inOrder := by simpa [accepted_snoc, delivered_snoc, Use.accepted, Use.delivered]
        using keeps.inOrder }
  | closeSender =>
    exact {
      capacity := keeps.capacity
      receiver := by simp [closeSender, keeps.receiver]
      sender := by simp [closeSender]
      fifo := by simpa [closeSender, accepted_snoc, delivered_snoc, Use.accepted, Use.delivered]
        using keeps.fifo
      bounded := keeps.bounded
      inOrder := by simpa [accepted_snoc, delivered_snoc, Use.accepted, Use.delivered]
        using keeps.inOrder }

theorem follows (step : Step c use d) : Follows n uses use := by
  cases step with
  | notify _ event =>
    cases held : c.receiverOpen with
    | false =>
      have gone : .receiverClosed ∈ uses := by simpa [held] using keeps.receiver
      rw [send_gone held]
      simp [Follows, gone]
    | true =>
      have there := keeps.receiver.mp held
      have bounded := keeps.bounded
      rw [keeps.buffer_eq_pending held] at bounded
      have room := keeps.capacity
      by_cases full : c.capacity ≤ c.buffer.length
      · rw [send_full held full]
        rw [keeps.buffer_eq_pending held] at full
        have exact' : (pending uses).length = n := by omega
        simp [Follows, there, exact']
      · rw [send_room held full]
        rw [keeps.buffer_eq_pending held] at full
        have less : (pending uses).length ≠ n := by omega
        simp [Follows, there, less]
  | receive held _ next =>
    exact ⟨_, (keeps.buffer_eq_pending held).symm.trans (buffer_of_receive next)⟩
  | silence held none told =>
    obtain ⟨empty, _, rfl⟩ := receive_silent none
    refine ⟨(keeps.buffer_eq_pending held).symm.trans empty, ?_⟩
    have sender := keeps.sender
    cases there : c.senderOpen <;> simp_all
  | drain held => exact keeps.buffer_eq_pending held
  | closeReceiver held => exact keeps.receiver.mp held
  | closeSender held => exact keeps.sender.mp held

end Keeps

theorem keeps_of_runs (run : Runs { capacity := n } uses c) : Keeps n uses c := by
  induction run with
  | refl => exact .start n
  | next _ step ih => exact ih.step step

theorem follows_each {before : List Use} (run : Runs { capacity := n } uses c)
    (earlier : before ++ [use] <+: uses) : Follows n before use := by
  induction run with
  | refl => simp at earlier
  | next run step ih =>
    rcases List.prefix_concat_iff.mp earlier with last | earlier
    · obtain ⟨rfl, rfl⟩ := List.append_singleton_inj.mp last
      exact (keeps_of_runs run).follows step
    · exact ih earlier

/-- A call that fails leaves the channel as it was. -/
theorem eq_of_refused {event : Event} {fault : Fault}
    (step : Step c (.notified event (.error fault)) d) : d = c := by
  generalize refusal : Use.notified event (.error fault) = use at step
  cases step with
  | notify _ event =>
    obtain ⟨rfl, refused⟩ := Use.notified.inj refusal
    cases held : c.receiverOpen with
    | false => rw [send_gone held]
    | true =>
      by_cases full : c.capacity ≤ c.buffer.length
      · rw [send_full held full]
      · rw [send_room held full] at refused
        contradiction
  | _ => contradiction

/-- Whatever is done at the two ends of a channel with room for `n` events: while there is a
receiver, what it has received followed by what is buffered is what the accepted calls announced, in
their order; no more than `n` events are buffered; and whether a call is accepted, what is received
next and how a silence is reported all follow from what happened before. A call that fails changes
nothing, and taking everything at once is receiving until there is none. -/
theorem lossless_fifo (run : Runs { capacity := n } uses c) :
    (.receiverClosed ∉ uses → delivered uses ++ c.buffer = accepted uses) ∧
      delivered uses <+: accepted uses ∧ c.buffer.length ≤ n ∧
      (∀ before use, before ++ [use] <+: uses → Follows n before use) ∧
      (∀ event fault d, Step c (.notified event (.error fault)) d → d = c) ∧
      ∀ d events, Drains c events d ↔ c.drain = (events, d) := by
  have keeps := keeps_of_runs run
  refine ⟨fun there => keeps.fifo (keeps.receiver.mpr there), keeps.inOrder, keeps.bounded,
    fun before use => follows_each run, ?_, fun d events => drains_iff⟩
  intro event fault d step
  exact eq_of_refused step

/-- With room for one event: a second call fails until the first event is received, and what is
buffered when the sender goes is received before the end is reported. -/
theorem lossless_fifo_one :
    let uses : List Use :=
      [.notified .registerSuccess (.ok ()),
        .notified (.removed .unregistered) (.error .callbackBufferFull),
        .received .polling .registerSuccess, .silent .timed .timeout,
        .notified (.removed .unregistered) (.ok ()), .senderClosed,
        .drained [.removed .unregistered], .silent .polling .disconnected,
        .silent .blocking .recvError]
    ∃ c, Runs { capacity := 1 } uses c ∧
      delivered uses ++ c.buffer = [.registerSuccess, .removed .unregistered] ∧
      ∀ before use, before ++ [use] <+: uses → Follows 1 before use := by
  intro uses
  let full (event : Event) : Channel Event := ⟨1, [event], true, true⟩
  have first : Step ⟨1, [], true, true⟩ (.notified .registerSuccess (.ok ()))
      (full .registerSuccess) := .notify rfl .registerSuccess
  have refused : Step (full .registerSuccess)
      (.notified (.removed .unregistered) (.error .callbackBufferFull)) (full .registerSuccess) :=
    .notify rfl (.removed .unregistered)
  have taken : Step (full .registerSuccess) (.received .polling .registerSuccess)
      ⟨1, [], true, true⟩ := .receive rfl .polling rfl
  have waits : Step ⟨1, [], true, true⟩ (.silent .timed .timeout) ⟨1, [], true, true⟩ :=
    .silence rfl rfl rfl
  have second : Step ⟨1, [], true, true⟩ (.notified (.removed .unregistered) (.ok ()))
      (full (.removed .unregistered)) := .notify rfl (.removed .unregistered)
  have closes : Step (full (.removed .unregistered)) .senderClosed
      ⟨1, [.removed .unregistered], true, false⟩ := .closeSender rfl
  have drains : Step ⟨1, [.removed .unregistered], true, false⟩
      (.drained [.removed .unregistered]) ⟨1, [], true, false⟩ := .drain rfl
  have polls : Step ⟨1, [], true, false⟩ (.silent .polling .disconnected) ⟨1, [], true, false⟩ :=
    .silence rfl rfl rfl
  have ends : Step ⟨1, [], true, false⟩ (.silent .blocking .recvError) ⟨1, [], true, false⟩ :=
    .silence rfl rfl rfl
  have run : Runs { capacity := 1 } uses ⟨1, [], true, false⟩ :=
    ((((((((Runs.refl.next first).next refused).next taken).next waits).next second).next
      closes).next drains).next polls).next ends
  obtain ⟨fifo, _, _, follows, _⟩ := lossless_fifo run
  exact ⟨_, run, fifo (by decide), follows⟩

end

end ScanSlot.Channel
