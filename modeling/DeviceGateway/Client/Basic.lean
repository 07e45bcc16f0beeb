import DeviceGateway.Call.Outbox
import DeviceGateway.Frame.Codec

/-!
# Clients

A client makes many calls over one connection. Every call has a channel on which its frames arrive.
A reader takes the frames of the connection one after the other and puts each into the channel of
its call, as long as it has a route there; a status is the last frame of a call, so the route is
taken away with it. A writer writes what the calls queue.

A channel has room for so many frames, and the reader waits when the one that it needs is full. When
the connection ends, the reader takes away all routes that are there and is gone.
-/

namespace DeviceGateway

/-- The channel of one call. -/
structure ReplyChannel where
  id : UInt64
  /-- The frames that wait for the caller. -/
  queue : List Frame
  /-- Whether the reader has a route to the channel. -/
  routed : Bool
  /-- Whether the caller still takes frames. -/
  listening : Bool
  deriving DecidableEq, Repr

/-- Where the reader stands. -/
inductive ReaderStage where
  | reading
  /-- A frame waits for room in its channel. -/
  | delivering (f : Frame)
  | gone
  deriving DecidableEq, Repr

/-- **A client.** -/
structure Client where
  /-- The number of the next call. -/
  nextId : UInt64
  channels : List ReplyChannel
  /-- The frames that wait for the writer. -/
  outbox : Outbox
  reader : ReaderStage
  /-- Octets of the server that have not been read as frames. -/
  unread : Bytes
  /-- Whether the server has hung up. -/
  hungUp : Bool
  deriving DecidableEq, Repr

namespace Client

/-- The frames that a channel, and the way to the writer, have room for. -/
def capacity : Nat := 64

def new : Client := ⟨1, [], .empty capacity, .reading, [], false⟩

def channel? (c : Client) (id : UInt64) : Option ReplyChannel := c.channels.find? (·.id == id)

def modify (c : Client) (id : UInt64) (f : ReplyChannel → ReplyChannel) : Client :=
  { c with channels := c.channels.map fun ch => if ch.id = id then f ch else ch }

/-- **The calls that the reader has a route for.** -/
def routes (c : Client) : List UInt64 := (c.channels.filter (·.routed)).map (·.id)

/-! ## The side of the callers -/

/-- **Takes a number for a call**, with a channel and a route to it. -/
def register (c : Client) : UInt64 × Client :=
  (c.nextId,
    { c with nextId := c.nextId + 1, channels := c.channels ++ [⟨c.nextId, [], true, true⟩] })

/-- **Queues a frame for the writer**, or waits for room. -/
def queue? (c : Client) (f : Except FrameFault Frame) :
    Option (Except GatewayError Unit × Client) :=
  match f with
  | .error e => some (.error e.toError, c)
  | .ok f =>
    match c.outbox.put? f with
    | none => none
    | some (.error e) => some (.error e, c)
    | some (.ok outbox) => some (.ok (), { c with outbox })

/-- The caller of a call is not interested any more. -/
def unlisten (c : Client) (id : UInt64) : Client :=
  c.modify id fun ch => { ch with listening := false, queue := [] }

/-- **Opens a call**: its number is taken and the frame that opens it is queued, or waits for
room. When that fails, nobody listens to the channel. -/
def startCall? (c : Client) (r : CallRequest) : Option (Except GatewayError UInt64 × Client) :=
  let (id, c) := c.register
  match c.queue? (Frame.call id r) with
  | none => none
  | some (.error e, c) => some (.error e, c.unlisten id)
  | some (.ok (), c) => some (.ok id, c)

/-- Whether the reader holds a frame for a call. -/
def isDelivering (c : Client) (id : UInt64) : Bool :=
  match c.reader with
  | .delivering f => f.callId == id
  | _ => false

/-- **Takes the next frame of a call**, or waits for one. When no more can come there is nothing. -/
def receive? (c : Client) (id : UInt64) : Option (Option Frame × Client) :=
  match c.channel? id with
  | none => some (none, c)
  | some ch =>
    match ch.queue with
    | f :: rest => some (some f, c.modify id fun ch => { ch with queue := rest })
    | [] => if ch.routed || c.isDelivering id then none else some (none, c)

/-! ## The reader and the writer -/

/-- The reader takes a frame to the channel of its call. A frame without a route is dropped. -/
def route (c : Client) (f : Frame) : Client :=
  match c.channel? f.callId with
  | none => c
  | some ch =>
    if ch.routed then
      let c := if f.kind = .status then c.modify f.callId ({ · with routed := false }) else c
      { c with reader := .delivering f }
    else c

/-- The reader is gone, and all routes with it. -/
def leave (c : Client) : Client :=
  { c with reader := .gone, channels := c.channels.map ({ · with routed := false }) }

/-- **The reader reads** the next frame, or the end of the connection. -/
def read? (k : Checksum) (c : Client) : Option Client :=
  match c.reader with
  | .reading =>
    match Frame.decode k c.unread with
    | .frame f rest => some ({ c with unread := rest }.route f)
    | .fault _ rest => some { c with unread := rest }.leave
    | .more => if c.hungUp then some c.leave else none
  | _ => none

/-- **The reader puts a frame into its channel**, if there is room. A frame that nobody listens for
is dropped. -/
def deliver? (c : Client) : Option Client :=
  match c.reader with
  | .delivering f =>
    match c.channel? f.callId with
    | none => some { c with reader := .reading }
    | some ch =>
      if !ch.listening then some { c with reader := .reading }
      else if ch.queue.length < capacity then
        let c := c.modify f.callId fun ch => { ch with queue := ch.queue ++ [f] }
        some { c with reader := .reading }
      else none
  | _ => none

def write? (c : Client) : Option (Frame × Client) :=
  c.outbox.take?.map fun (f, outbox) => (f, { c with outbox })

def arrive (c : Client) (data : Bytes) : Client := { c with unread := c.unread ++ data }

end Client

end DeviceGateway
