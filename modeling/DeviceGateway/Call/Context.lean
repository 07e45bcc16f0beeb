import DeviceGateway.Call.Inbox
import DeviceGateway.Call.Outbox

/-!
# What a handler sees of its call

A handler knows which method it was called for, reads the messages of its caller, and answers
through the outbox of the connection. Every message that goes out is counted and carries the number
of the call. Nothing else of the connection is in its reach.
-/

namespace DeviceGateway

/-- **One call as its handler sees it.** -/
structure CallContext where
  id : UInt64
  service : String
  method : String
  request : Bytes
  inbox : Inbox
  outbox : Outbox
  /-- The messages sent so far. -/
  sent : Nat
  withdrawn : Bool
  deriving Repr

namespace CallContext

def ofRequest (id : UInt64) (r : CallRequest) (inbox : Inbox) (outbox : Outbox) : CallContext :=
  ⟨id, r.service, r.method, r.request, inbox, outbox, 0, false⟩

/-- **Sends a message to the caller**, or waits for room. Only what is sent is counted. -/
def send? (c : CallContext) (payload : Bytes) : Option (Except GatewayError Unit × CallContext) :=
  match c.outbox.send? c.id payload with
  | none => none
  | some (.ok (), outbox) => some (.ok (), { c with outbox, sent := c.sent + 1 })
  | some (.error e, outbox) => some (.error e, { c with outbox })

/-- Sends messages one after the other, as far as there is room: what became of each, with the count
after it. -/
def sendAll (c : CallContext) : List Bytes → List (Except GatewayError Unit × Nat) × CallContext
  | [] => ([], c)
  | payload :: rest =>
    match c.send? payload with
    | none => ([], c)
    | some (result, c) =>
      let (results, last) := c.sendAll rest
      ((result, c.sent) :: results, last)

/-- The messages of the caller that can be read now, in order. -/
def messages (c : CallContext) : List Bytes := c.inbox.queue

/-- Why a call of a method that the service does not have fails. -/
def unknownMethod (service method : String) : GatewayError :=
  .notFound s!"method {service}.{method}"

end CallContext

end DeviceGateway
