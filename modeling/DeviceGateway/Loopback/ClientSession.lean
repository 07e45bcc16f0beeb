import DeviceGateway.Client.Exchange
import DeviceGateway.Loopback.Network

/-!
# A client and a scripted server

A client makes calls one after the other over one connection. For each of them the server reads a
number of frames, then writes what its script says, and perhaps hangs up.
-/

namespace DeviceGateway

/-- What the client does in one call. -/
inductive ClientAct where
  | request (kind : ExchangeKind) (r : CallRequest)
  | upload (service method : String) (messages : List Bytes)
  /-- The call is opened, frames are queued one by one whatever becomes of the others, and all
  frames that arrive are taken. -/
  | manual (r : CallRequest) (frames : List (UInt64 → Except FrameFault Frame))

/-- One call, and what the server does about it. -/
structure ScriptedCall where
  act : ClientAct
  /-- The frames that the server reads first. -/
  expected : Nat
  /-- The octets that it writes then. -/
  response : Bytes
  /-- Whether it hangs up after that. -/
  hangsUp : Bool

/-- What comes of a call. -/
inductive CallResult where
  | reply (r : Except GatewayError Bytes)
  | transfer (r : Except GatewayError Received)
  /-- The messages and errors of a stream, by the number of its call. -/
  | stream (id : UInt64) (items : List (Except GatewayError Bytes))
  /-- What became of each frame that was queued, and the frames that arrived. -/
  | manual (id : UInt64) (acts : List (Except GatewayError Unit)) (frames : List Frame)
  /-- The call could not be opened. -/
  | unopened (e : GatewayError)
  /-- The call waits for something that never comes. -/
  | stuck

namespace ClientSession

/-- More steps than a client takes in one call. -/
def patience : Nat := 10000000

/-- The client works until it has nothing to do. -/
def settle (s : Exchanges) : Exchanges := s.settle .standard patience

/-- What the server does after it has read: its octets arrive, and perhaps the end. -/
def respond (c : ScriptedCall) (s : Exchanges) : Exchanges :=
  let answered := { s with client := s.client.arrive c.response }
  settle (if c.hangsUp then { answered with client := { answered.client with hungUp := true } }
    else answered)

def resultOf (x : Exchange) : CallResult :=
  match x.answer? with
  | none => .stuck
  | some r =>
    match x.kind, r with
    | .reply, r => .reply (r.bind Answer.reply)
    | .transfer, r => .transfer (r.bind Answer.transfer)
    | .stream, .ok a => .stream x.id a.items
    | .stream, .error e => .unopened e

def exchange (c : ScriptedCall) (s : Exchanges) (m : Exchanges.Move) : CallResult × Exchanges :=
  let id := s.client.nextId
  let s := respond c (settle ((s.step? .standard m).getD s))
  match s.exchange? id with
  | some x => (resultOf x, s)
  | none => (.stuck, s)

/-- Queues frames one by one, the writer writing in between. -/
def queueAll (id : UInt64) (s : Exchanges) :
    List (UInt64 → Except FrameFault Frame) → List (Except GatewayError Unit) × Exchanges
  | [] => ([], s)
  | f :: rest =>
    match s.client.queue? (f id) with
    | none => ([], s)
    | some (r, client) =>
      let (results, last) := queueAll id (settle { s with client }) rest
      (r :: results, last)

/-- Takes all frames of a call until no more can come, so many at most. -/
def takeAll (id : UInt64) : Nat → List Frame → Exchanges → Option (List Frame) × Exchanges
  | 0, _, s => (none, s)
  | n + 1, taken, s =>
    match s.client.receive? id with
    | none => (none, s)
    | some (none, client) => (some taken.reverse, { s with client })
    | some (some f, client) => takeAll id n (f :: taken) (settle { s with client })

def manual (c : ScriptedCall) (r : CallRequest)
    (frames : List (UInt64 → Except FrameFault Frame)) (s : Exchanges) : CallResult × Exchanges :=
  match s.client.startCall? r with
  | none => (.stuck, s)
  | some (.error e, client) => (.unopened e, { s with client })
  | some (.ok id, client) =>
    let (acts, s) := queueAll id (settle { s with client }) frames
    match takeAll id patience [] (respond c s) with
    | (some taken, s) => (.manual id acts taken, s)
    | (none, s) => (.stuck, s)

/-- **One call.** -/
def perform (c : ScriptedCall) (s : Exchanges) : CallResult × Exchanges :=
  match c.act with
  | .request kind r => exchange c s (.request kind r)
  | .upload service method messages => exchange c s (.upload service method messages)
  | .manual r frames => manual c r frames s

/-- The calls in order: what the server read for each, and what came of it. -/
def trace (s : Exchanges) : List ScriptedCall → List (List Frame × CallResult)
  | [] => []
  | c :: rest =>
    let (result, s) := perform c s
    (s.written.take c.expected, result) ::
      trace { s with written := s.written.drop c.expected } rest

/-- **A whole session** on a machine; the fault if the server cannot be reached. -/
def record (n : Network) (calls : List ScriptedCall) :
    Except GatewayError (List (List Frame × CallResult)) :=
  match n.fault? with
  | some fault => .error (.io fault)
  | none => .ok (trace .new calls)

end ClientSession

end DeviceGateway
