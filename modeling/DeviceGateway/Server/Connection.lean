import DeviceGateway.Call.Pool
import DeviceGateway.Frame.Codec

/-!
# Serving a connection

A connection has a loop, a writer, and the calls of its pool. The loop reads frames and hands each
to the call that it belongs to; it also takes notice of calls that have ended, and of the order to
stop. It does one of these at a time, and waits in the middle of one when an inbox or the outbox is
full. The writer takes frames out of the outbox and writes them.

When the caller hangs up, or breaks the rules, or the gateway stops, the loop withdraws all calls,
waits until each has come to its end, and leaves the rest to the writer. While it waits it reads
nothing: neither frames nor the reports of its calls.

`Connection.step?` is one step of any of them. What is possible next depends on nothing but the
state.
-/

namespace DeviceGateway

/-- What a server does for its calls. -/
structure Server (ω σ : Type) where
  checksum : Checksum
  handler : Handler ω σ
  /-- What the handler of a call starts with, unless there is no handler for it. -/
  accept : CallRequest → Except GatewayError (Job ω σ)

/-- Where the loop of a connection stands. -/
inductive LoopStage where
  | serving
  /-- A message waits for room in the inbox of its call. -/
  | feeding (id : UInt64) (message : Bytes)
  /-- The status of a refused call waits for room in the outbox. -/
  | rejecting (f : Frame)
  /-- All calls are being withdrawn; these steps are left. -/
  | withdrawing (steps : List Pool.TeardownStep) (result : Except GatewayError Unit)
  /-- The loop waits for the calls to end. -/
  | joining (result : Except GatewayError Unit)
  /-- The loop waits for the writer. -/
  | flushing (result : Except GatewayError Unit)
  | closed (result : Except GatewayError Unit)

/-- **A connection that is served.** -/
structure Connection (ω σ : Type) where
  pool : Pool ω σ
  shared : Shared ω
  stage : LoopStage
  /-- Octets of the caller that have not been read as frames. -/
  unread : Bytes
  /-- Whether the caller has hung up. -/
  hungUp : Bool
  /-- The frames written so far, in order. -/
  written : List Frame

namespace Connection

variable {ω σ : Type}

/-- The frames that the outbox has room for. -/
def outboxCapacity : Nat := 256

/-- A connection that has just been accepted, on a world. -/
def start (world : ω) : Connection ω σ where
  pool := .empty
  shared := ⟨world, .empty outboxCapacity, []⟩
  stage := .serving
  unread := []
  hungUp := false
  written := []

/-- Whether the loop takes the next thing that happens. -/
def isServing (c : Connection ω σ) : Bool :=
  match c.stage with
  | .serving => true
  | _ => false

/-- The result of serving, once the connection is closed. -/
def result? (c : Connection ω σ) : Option (Except GatewayError Unit) :=
  match c.stage with
  | .closed r => some r
  | _ => none

/-- The loop ends, and begins to withdraw all calls. -/
def leave (c : Connection ω σ) (result : Except GatewayError Unit) : Connection ω σ :=
  { c with stage := .withdrawing c.pool.teardown result }

/-! ## Frames -/

/-- A call is refused. A status that is too large for a frame is not sent. -/
def reject (c : Connection ω σ) (id : UInt64) (e : GatewayError) : Connection ω σ :=
  match Frame.status id (Status.ofError e) with
  | .error _ => c
  | .ok f => { c with stage := .rejecting f }

/-- **A frame that opens a call.** One that does not decode is refused; a number that is in use
closes the connection. -/
def openCall (s : Server ω σ) (c : Connection ω σ) (id : UInt64) (payload : Bytes) :
    Connection ω σ :=
  match (Payload.ofBytes payload : Except GatewayError CallRequest) with
  | .error e => c.reject id e
  | .ok r =>
    if c.pool.contains id then c.leave (.error (.protocol s!"duplicate call id {id.toNat}"))
    else match c.pool.spawn id true (.opening (s.accept r)) with
      | .ok pool => { c with pool }
      | .error e => c.reject id e

/-- **A frame of the caller.** A status means nothing here. -/
def dispatch (s : Server ω σ) (c : Connection ω σ) (f : Frame) : Connection ω σ :=
  match f.kind with
  | .call => c.openCall s f.callId f.payload
  | .message => { c with stage := .feeding f.callId f.payload }
  | .halfClose => { c with pool := c.pool.halfClose f.callId }
  | .cancel => { c with pool := c.pool.cancel f.callId }
  | .status => c

/-- **The loop reads**: the next frame of the caller, or the end of what the caller sends, which
must not come in the middle of a frame. -/
def read? (s : Server ω σ) (c : Connection ω σ) : Option (Connection ω σ) :=
  match Frame.decode s.checksum c.unread with
  | .frame f rest => some ({ c with unread := rest }.dispatch s f)
  | .fault e rest => some ({ c with unread := rest }.leave (.error e.toError))
  | .more =>
    if !c.hungUp then none
    else if c.unread.isEmpty then some (c.leave (.ok ()))
    else some (c.leave (.error (.io "bytes remaining on stream")))

/-! ## Steps -/

/-- Who takes a step, and which. -/
inductive Move where
  /-- Octets of the caller arrive. -/
  | arrive (data : Bytes)
  /-- The caller sends nothing more. -/
  | hangUp
  /-- The gateway is told to stop. -/
  | stop
  /-- The loop reads the next frame. -/
  | read
  /-- The loop takes notice of a call that has ended. -/
  | notice
  /-- The loop notices that the gateway stops. -/
  | heed
  /-- The loop goes on with the thing in whose middle it waits. -/
  | proceed
  /-- The writer writes a frame. -/
  | write
  /-- The writer finds that the caller is gone. -/
  | failWriting
  | pool (m : Pool.Move)
  deriving DecidableEq, Repr

/-- The loop goes on where it waits. -/
def proceed? (c : Connection ω σ) : Option (Connection ω σ) :=
  match c.stage with
  | .serving | .closed _ => none
  | .feeding id m => (c.pool.feed? id m).map fun pool => { c with pool, stage := .serving }
  | .rejecting f =>
    match c.shared.outbox.put? f with
    | none => none
    | some (.error _) => some { c with stage := .serving }
    | some (.ok outbox) => some { c with shared := { c.shared with outbox }, stage := .serving }
  | .withdrawing (step :: rest) result =>
    some { c with pool := c.pool.tear step, stage := .withdrawing rest result }
  | .withdrawing [] result => some { c with stage := .joining result }
  | .joining result =>
    if c.pool.calls.all (·.stage.isGone) then some { c with stage := .flushing result } else none
  | .flushing result =>
    if c.shared.outbox.queue.isEmpty then some { c with stage := .closed result } else none

def write? (c : Connection ω σ) : Option (Connection ω σ) :=
  c.shared.outbox.take?.map fun (f, outbox) =>
    { c with shared := { c.shared with outbox }, written := c.written ++ [f] }

/-- **The state after a step**, if it is possible. -/
def step? (s : Server ω σ) (c : Connection ω σ) : Move → Option (Connection ω σ)
  | .arrive data => if c.hungUp then none else some { c with unread := c.unread ++ data }
  | .hangUp => some { c with hungUp := true }
  | .stop => some { c with pool := c.pool.cancelParent }
  | .read => if c.isServing then c.read? s else none
  | .notice =>
    if c.isServing then c.pool.notice?.map fun (_, pool) => { c with pool } else none
  | .heed => if c.isServing && c.pool.allWithdrawn then some (c.leave (.ok ())) else none
  | .proceed => c.proceed?
  | .write => c.write?
  | .failWriting => some { c with shared := { c.shared with outbox := c.shared.outbox.close } }
  | .pool m => (c.pool.step? s.handler c.shared m).map fun (pool, shared) => { c with pool, shared }

/-- The state after a run, if all its steps are possible. -/
def run? (s : Server ω σ) (c : Connection ω σ) : List Move → Option (Connection ω σ)
  | [] => some c
  | m :: ms => (c.step? s m).bind (run? s · ms)

/-! ## Running undisturbed -/

/-- Whether the loop is about to withdraw calls, which it does without waiting for anything. -/
def isWithdrawing (c : Connection ω σ) : Bool :=
  match c.stage with
  | .withdrawing .. => true
  | _ => false

/-- The steps that may be possible without anything from outside, providers apart. -/
def moves (c : Connection ω σ) : List Move :=
  if c.isWithdrawing then [.proceed]
  else c.pool.moves.map .pool ++ [.write, .notice, .proceed, .heed, .read]

/-- The state after the first of some steps that is possible. -/
def stepFirst? (s : Server ω σ) (c : Connection ω σ) : List Move → Option (Connection ω σ)
  | [] => none
  | m :: ms =>
    match c.step? s m with
    | some c => some c
    | none => stepFirst? s c ms

/-- Lets everything take steps, so many at most, until nothing is possible. -/
def settle (s : Server ω σ) : Nat → Connection ω σ → Connection ω σ
  | 0, c => c
  | n + 1, c =>
    match c.stepFirst? s c.moves with
    | none => c
    | some c => settle s n c

/-- A provider that never answers runs into its limit, if any has been asked. -/
def expireFirst? (s : Server ω σ) (c : Connection ω σ) : Option (Connection ω σ) :=
  c.stepFirst? s (c.pool.calls.map fun call => .pool (.expire call.id))

end Connection

end DeviceGateway
