import DeviceGateway.Gateway.Handlers
import DeviceGateway.Loopback.Network
import DeviceGateway.Server.Connection

/-!
# A session with a gateway

One caller talks to a gateway over one connection at a time, in frames. After each step of the
caller the gateway works until it has nothing left to do. What it writes waits until the caller asks
for it, call by call.
-/

namespace DeviceGateway

/-- A gateway as the server of its connections. -/
def Gateway.server (g : Gateway) : Server GatewayWorld HandlerState :=
  ⟨.standard, g.handler, g.accept⟩

/-- What the caller does. -/
inductive SessionStep where
  | send (data : Bytes)
  /-- Waits for the status of a call. -/
  | await (id : UInt64)
  /-- Waits until a file has a size. -/
  | awaitFile (path : String) (size : Nat)
  /-- Looks at the working directory of the gateway. -/
  | inspect
  /-- Hangs up, and reads the rest. -/
  | close
  /-- Waits until the gateway hangs up, and reads the rest. -/
  | awaitClose
  /-- Stops the gateway, and reads the rest. -/
  | shutdown
  /-- Drops the connection and makes a new one. -/
  | connect
  deriving DecidableEq, Repr

/-- The frames of a call: its messages, and its status if it has one. -/
structure CallFrames where
  messages : List Bytes
  status : Option Bytes
  deriving DecidableEq, Repr, Inhabited

/-- What a step shows. -/
inductive SessionAnswer where
  | nothing
  | frames (f : CallFrames)
  /-- The connection was closed before the status came. -/
  | closed
  | there
  | directory (tree : List (String × Option Bytes))
  /-- The frames that nobody asked for, by the numbers of their calls. -/
  | rest (frames : List (UInt64 × CallFrames))
  | connected
  /-- What the caller waits for never comes. -/
  | stuck
  deriving DecidableEq, Repr, Inhabited

/-- **The state of a session.** -/
structure ServerSession where
  server : Server GatewayWorld HandlerState
  connection : Connection GatewayWorld HandlerState
  /-- The frames that the caller has not asked for. -/
  unread : List Frame
  /-- Whether the caller has read to the end of the connection. -/
  finished : Bool

namespace ServerSession

/-- A caller who has just connected to a gateway on a disk. -/
def start (g : Gateway) (d : Disk) : ServerSession where
  server := g.server
  connection := .start ⟨d, .new⟩
  unread := []
  finished := false

/-- More steps than a connection takes after one step of the caller. -/
def patience : Nat := 10000000

/-- The gateway works until it has nothing to do, and the caller gets what it wrote. -/
def settle (s : ServerSession) : ServerSession :=
  let c := s.connection.settle s.server patience
  { s with connection := { c with written := [] }, unread := s.unread ++ c.written }

/-- Something happens to the connection, if it can, and the gateway works. -/
def happen (s : ServerSession) (m : Connection.Move) : ServerSession :=
  { s with connection := (s.connection.step? s.server m).getD s.connection }.settle

def disk (s : ServerSession) : Disk := s.connection.shared.world.disk

/-- Whether the gateway has closed the connection. -/
def isClosed (s : ServerSession) : Bool := s.connection.result?.isSome

/-! ## Frames of calls -/

def collect (frames : List Frame) : CallFrames where
  messages := (frames.filter (·.kind == .message)).map (·.payload)
  status := (frames.find? (·.kind == .status)).map (·.payload)

/-- The frames of a call up to its first status, and all the others; nothing without a status. -/
def untilStatus? (id : UInt64) (seen others : List Frame) :
    List Frame → Option (CallFrames × List Frame)
  | [] => none
  | f :: rest =>
    if f.callId = id then
      if f.kind = .status then some (collect (seen.reverse ++ [f]), others.reverse ++ rest)
      else untilStatus? id (f :: seen) others rest
    else untilStatus? id seen (f :: others) rest

/-- All frames that nobody asked for, by the numbers of their calls. -/
def byCall (frames : List Frame) : List (UInt64 × CallFrames) :=
  ((frames.map (·.callId)).eraseDups.mergeSort).map fun id =>
    (id, collect (frames.filter (·.callId == id)))

/-! ## Steps -/

/-- Waits for the status of a call. Providers that never answer run into their limits meanwhile, so
many at most. -/
def await (id : UInt64) : Nat → ServerSession → SessionAnswer × ServerSession
  | 0, s => (.stuck, s)
  | n + 1, s =>
    match untilStatus? id [] [] s.unread with
    | some (frames, others) => (.frames frames, { s with unread := others })
    | none =>
      if s.isClosed then (.closed, s)
      else match s.connection.expireFirst? s.server with
        | some connection => await id n { s with connection }.settle
        | none => (.stuck, s)

/-- The caller reads to the end of the connection. -/
def finish (s : ServerSession) : SessionAnswer × ServerSession :=
  if s.isClosed then (.rest (byCall s.unread), { s with unread := [], finished := true })
  else (.stuck, s)

/-- Drops the connection and makes a new one. -/
def reconnect (s : ServerSession) : ServerSession :=
  let old := s.happen .hangUp
  { old with connection := .start old.connection.shared.world, unread := [], finished := false }

/-- **One step of the caller.** -/
def step (s : ServerSession) : SessionStep → SessionAnswer × ServerSession
  | .send data => (.nothing, s.happen (.arrive data))
  | .await id => s.await id patience
  | .awaitFile path size =>
    match s.disk.fileData path with
    | .ok data => (if data.length = size then .there else .stuck, s)
    | .error _ => (.stuck, s)
  | .inspect => (.directory s.disk.tree, s)
  | .close => (s.happen .hangUp).finish
  | .awaitClose => s.finish
  | .shutdown => (s.happen .stop).finish
  | .connect => (.connected, s.reconnect)

/-- The answers to steps, and the state after them. -/
def trace (s : ServerSession) : List SessionStep → List SessionAnswer × ServerSession
  | [] => ([], s)
  | st :: rest =>
    let (answer, s) := s.step st
    let (answers, last) := s.trace rest
    (answer :: answers, last)

/-- What a whole session shows. -/
structure Record where
  answers : List SessionAnswer
  /-- The rest that was read when the caller hung up at the end, if it had not before. -/
  last : Option SessionAnswer
  /-- What the working directory of the gateway holds in the end. -/
  tree : List (String × Option Bytes)
  deriving Repr

/-- **A whole session** on a machine; the fault if the gateway cannot be reached. -/
def record (n : Network) (g : Gateway) (d : Disk) (steps : List SessionStep) :
    Except String Record :=
  match n.fault? with
  | some fault => .error fault
  | none =>
    let (answers, s) := (start g d).trace steps
    if s.finished then .ok ⟨answers, none, s.disk.tree⟩
    else
      let (last, s) := s.step .close
      .ok ⟨answers, some last, s.disk.tree⟩

end ServerSession

end DeviceGateway
