import ScanSlot.Fault

/-! A bounded first-in first-out channel with one sending and one receiving end. -/
namespace ScanSlot

structure Channel (α : Type) where
  capacity : Nat
  buffer : List α := []
  receiverOpen : Bool := true
  senderOpen : Bool := true
  deriving Repr

namespace Channel
variable {α : Type}

/-- A gone receiver is noticed before a full buffer. -/
def send (c : Channel α) (a : α) : Except Fault Unit × Channel α :=
  if !c.receiverOpen then (.error .peerUnreachable, c)
  else if c.capacity ≤ c.buffer.length then (.error .callbackBufferFull, c)
  else (.ok (), { c with buffer := c.buffer ++ [a] })

/-- Why there is nothing to receive. -/
inductive Silence where
  | empty
  | disconnected
  deriving DecidableEq, Repr

/-- Takes the oldest item. Buffered items outlive the sender. -/
def receive (c : Channel α) : Except Silence α × Channel α :=
  match c.buffer with
  | a :: rest => (.ok a, { c with buffer := rest })
  | [] => (.error (if c.senderOpen then .empty else .disconnected), c)

/-- Takes everything that is buffered. -/
def drain (c : Channel α) : List α × Channel α :=
  (c.buffer, { c with buffer := [] })

def closeReceiver (c : Channel α) : Channel α :=
  { c with receiverOpen := false, buffer := [] }

def closeSender (c : Channel α) : Channel α :=
  { c with senderOpen := false }

end Channel
end ScanSlot
