import DeviceGateway.Client.Answer
import DeviceGateway.Client.Basic

/-!
# Exchanges

An exchange is one call of a client from its first frame to its answer. It queues the frames of its
script in order, and gives up at the first that cannot be made or queued. After that it takes the
frames that arrive for it until they make up an answer, or no more can come.

Exchanges, the reader and the writer of a client take their steps independently.
-/

namespace DeviceGateway

/-- What an exchange is about. -/
inductive ExchangeKind where
  | reply
  | stream
  | transfer
  deriving DecidableEq, Repr, Inhabited

/-- Where an exchange stands. -/
inductive ExchangeStage where
  /-- Frames are queued; these are left. -/
  | queuing (script : List (Except FrameFault Frame))
  | reading
  /-- It is over, perhaps because a frame could not be queued. -/
  | finished (failure : Option GatewayError)

/-- **An exchange.** -/
structure Exchange where
  id : UInt64
  kind : ExchangeKind
  stage : ExchangeStage
  /-- The frames queued so far. -/
  queued : List Frame
  /-- The frames that arrived for it so far. -/
  received : List Frame

namespace Exchange

/-! ## Scripts -/

/-- **One request.** -/
def request (id : UInt64) (r : CallRequest) : List (Except FrameFault Frame) := [Frame.call id r]

/-- **An upload**: a request without a body, the messages, and their end. -/
def upload (id : UInt64) (service method : String) (messages : List Bytes) :
    List (Except FrameFault Frame) :=
  Frame.call id ⟨service, method, []⟩ :: messages.map (Frame.message id) ++ [.ok (.halfClose id)]

def begin (id : UInt64) (kind : ExchangeKind) (script : List (Except FrameFault Frame)) :
    Exchange :=
  ⟨id, kind, .queuing script, [], []⟩

/-! ## Steps -/

/-- Whether a transfer is spoiled by its messages. -/
def isSpoiled (a : Answer) : Bool :=
  match Answer.receive .new [] a.messages with
  | .error _ => true
  | .ok _ => false

def isSatisfied (x : Exchange) : Bool :=
  Answer.isWhole x.received || (x.kind == .transfer && isSpoiled (.ofFrames x.received))

/-- The exchange is over, and nobody listens any more. -/
def close (x : Exchange) (failure : Option GatewayError) (c : Client) : Exchange × Client :=
  ({ x with stage := .finished failure }, c.unlisten x.id)

/-- Queues the next frame of the script. -/
def queueNext? (x : Exchange) (c : Client) (f : Except FrameFault Frame)
    (rest : List (Except FrameFault Frame)) : Option (Exchange × Client) :=
  match c.queue? f with
  | none => none
  | some (.error e, c) => some (x.close (some e) c)
  | some (.ok (), c) =>
    some ({ x with stage := .queuing rest, queued := x.queued ++ f.toOption.toList }, c)

def takeNext? (x : Exchange) (c : Client) : Option (Exchange × Client) :=
  match c.receive? x.id with
  | none => none
  | some (none, c) => some (x.close none c)
  | some (some f, c) =>
    let x := { x with received := x.received ++ [f] }
    some (if x.isSatisfied then x.close none c else (x, c))

/-- **One step of an exchange**, if it is possible. -/
def step? (x : Exchange) (c : Client) : Option (Exchange × Client) :=
  match x.stage with
  | .queuing [] => some ({ x with stage := .reading }, c)
  | .queuing (f :: rest) => x.queueNext? c f rest
  | .reading => x.takeNext? c
  | .finished _ => none

/-! ## Results -/

/-- The answer, unless a frame could not be queued; nothing while the exchange is not over. -/
def answer? (x : Exchange) : Option (Except GatewayError Answer) :=
  match x.stage with
  | .finished (some e) => some (.error e)
  | .finished none => some (.ok (.ofFrames x.received))
  | _ => none

def reply? (x : Exchange) : Option (Except GatewayError Bytes) :=
  x.answer?.map fun a => a.bind Answer.reply

def transfer? (x : Exchange) : Option (Except GatewayError Received) :=
  x.answer?.map fun a => a.bind Answer.transfer

end Exchange

/-! ## Many exchanges -/

/-- **A client with its exchanges**, and the frames that its writer has written. -/
structure Exchanges where
  client : Client
  exchanges : List Exchange
  written : List Frame

namespace Exchanges

def new : Exchanges := ⟨.new, [], []⟩

/-- Who takes a step, and which. -/
inductive Move where
  /-- A request for a reply, a stream or a transfer. -/
  | request (kind : ExchangeKind) (r : CallRequest)
  | upload (service method : String) (messages : List Bytes)
  /-- The exchange with a number takes a step. -/
  | step (id : UInt64)
  /-- The reader reads a frame. -/
  | read
  /-- The reader puts a frame into a channel. -/
  | deliver
  /-- The writer writes a frame. -/
  | write
  /-- The writer finds that the server is gone. -/
  | failWriting
  /-- Octets of the server arrive. -/
  | arrive (data : Bytes)
  /-- The server sends nothing more. -/
  | hangUp

/-- Begins an exchange under the next number. -/
def begin (s : Exchanges) (kind : ExchangeKind)
    (script : UInt64 → List (Except FrameFault Frame)) : Exchanges :=
  let (id, client) := s.client.register
  { s with client, exchanges := s.exchanges ++ [.begin id kind (script id)] }

/-- Lets the exchange with a number take a step. -/
def act? (s : Exchanges) (id : UInt64) : Option Exchanges :=
  match s.exchanges.find? (·.id == id) with
  | none => none
  | some x => (x.step? s.client).map fun (x, client) =>
    { s with client, exchanges := s.exchanges.map fun y => if y.id = id then x else y }

/-- **The state after a step**, if it is possible. -/
def step? (k : Checksum) (s : Exchanges) : Move → Option Exchanges
  | .request kind r => some (s.begin kind fun id => Exchange.request id r)
  | .upload service method messages =>
    some (s.begin .reply fun id => Exchange.upload id service method messages)
  | .step id => s.act? id
  | .read => (s.client.read? k).map fun client => { s with client }
  | .deliver => s.client.deliver?.map fun client => { s with client }
  | .write => s.client.write?.map fun (f, client) => { s with client, written := s.written ++ [f] }
  | .failWriting => some { s with client := { s.client with outbox := s.client.outbox.close } }
  | .arrive data => some { s with client := s.client.arrive data }
  | .hangUp => some { s with client := { s.client with hungUp := true } }

/-- The state after a run, if all its steps are possible. -/
def run? (k : Checksum) (s : Exchanges) : List Move → Option Exchanges
  | [] => some s
  | m :: ms => (s.step? k m).bind (run? k · ms)

def exchange? (s : Exchanges) (id : UInt64) : Option Exchange := s.exchanges.find? (·.id == id)

/-! ## Running undisturbed -/

/-- The steps that may be possible without anything from outside. -/
def moves (s : Exchanges) : List Move :=
  s.exchanges.map (fun x => .step x.id) ++ [.write, .deliver, .read]

/-- The state after the first of some steps that is possible. -/
def stepFirst? (k : Checksum) (s : Exchanges) : List Move → Option Exchanges
  | [] => none
  | m :: ms =>
    match s.step? k m with
    | some s => some s
    | none => stepFirst? k s ms

/-- Lets everything take steps, so many at most, until nothing is possible. -/
def settle (k : Checksum) : Nat → Exchanges → Exchanges
  | 0, s => s
  | n + 1, s =>
    match s.stepFirst? k s.moves with
    | none => s
    | some s => settle k n s

end Exchanges

end DeviceGateway
