import DeviceGateway.Bytes

/-!
# Inboxes

The messages of a caller wait in an inbox until the handler of the call reads them. The inbox has
room for a few; whoever fills it waits for room. Either side may let go of it: without a sender the
stream ends after the messages that are left, and without a reader nothing is kept.
-/

namespace DeviceGateway

/-- The messages of one call that wait to be read. -/
structure Inbox where
  queue : List Bytes
  /-- Whether more messages may come. -/
  sending : Bool
  /-- Whether anybody will read them. -/
  reading : Bool
  deriving DecidableEq, Repr, Inhabited

namespace Inbox

/-- The messages that an inbox has room for. -/
def capacity : Nat := 64

def empty : Inbox := ⟨[], true, true⟩

/-- **Puts a message in**, or waits for room. A message that nobody will read is dropped. -/
def put? (b : Inbox) (m : Bytes) : Option Inbox :=
  if !b.sending || !b.reading then some b
  else if b.queue.length < capacity then some { b with queue := b.queue ++ [m] }
  else none

/-- **Takes the next message out**, or waits for one. After the last there is nothing. -/
def take? (b : Inbox) : Option (Option Bytes × Inbox) :=
  match b.queue with
  | m :: rest => some (some m, { b with queue := rest })
  | [] => if b.sending then none else some (none, b)

def endSending (b : Inbox) : Inbox := { b with sending := false }

def endReading (b : Inbox) : Inbox := { b with reading := false, queue := [] }

end Inbox

end DeviceGateway
