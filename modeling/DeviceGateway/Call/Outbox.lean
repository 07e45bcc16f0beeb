import DeviceGateway.Frame.Basic

/-!
# Outboxes

The frames of all calls of a connection leave through one outbox, in the order in which they are put
in. It has room for so many frames; whoever fills it waits. When the connection cannot be written
any more, the outbox is closed.
-/

namespace DeviceGateway

/-- The frames that wait to be written. -/
structure Outbox where
  queue : List Frame
  capacity : Nat
  /-- Whether anybody will write them. -/
  isOpen : Bool
  deriving DecidableEq, Repr

namespace Outbox

def empty (capacity : Nat) : Outbox := ⟨[], capacity, true⟩

/-- **Puts a frame in**, or waits for room. A closed outbox takes nothing. -/
def put? (b : Outbox) (f : Frame) : Option (Except GatewayError Outbox) :=
  if !b.isOpen then some (.error .channelClosed)
  else if b.queue.length < b.capacity then some (.ok { b with queue := b.queue ++ [f] })
  else none

/-- **Sends a message of a call**, or waits for room. Nothing is sent of a message that is too large
for a frame. -/
def send? (b : Outbox) (id : UInt64) (payload : Bytes) :
    Option (Except GatewayError Unit × Outbox) :=
  match Frame.message id payload with
  | .error e => some (.error e.toError, b)
  | .ok f =>
    match b.put? f with
    | none => none
    | some (.error e) => some (.error e, b)
    | some (.ok b) => some (.ok (), b)

/-- Takes out the frame that is written next. -/
def take? (b : Outbox) : Option (Frame × Outbox) :=
  match b.queue with
  | [] => none
  | f :: rest => some (f, { b with queue := rest })

def close (b : Outbox) : Outbox := { b with isOpen := false, queue := [] }

end Outbox

end DeviceGateway
