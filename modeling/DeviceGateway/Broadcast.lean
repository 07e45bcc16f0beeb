import DeviceGateway.Bytes

/-!
# Broadcasting frames to viewers

Encoded screen frames go to every connected viewer. Each viewer has a queue of its own that starts
with an acknowledgement; a viewer whose queue is full misses the frame, and nobody waits for
anybody. A viewer may be forgotten by number and still read what its queue holds; letting a viewer
go forgets it as well.
-/

namespace DeviceGateway

/-- What a viewer receives. -/
inductive PushMessage where
  /-- The greeting on connecting. -/
  | ack
  | frame (data : Bytes)
  deriving DecidableEq, Repr, Inhabited

/-- The receiving end of one viewer. -/
structure Viewer where
  id : Nat
  /-- Whether frames are still queued for it. -/
  registered : Bool
  queue : List PushMessage
  deriving DecidableEq, Repr, Inhabited

/-- **The state of the broadcast.** -/
structure Broadcast where
  /-- Frames that may wait for one viewer. -/
  depth : Nat
  /-- Whether any viewer is connected, as publishers see it. -/
  connected : Bool
  nextId : Nat
  /-- The viewers that have not been let go, oldest first. -/
  viewers : List Viewer
  deriving DecidableEq, Repr, Inhabited

namespace Broadcast

/-- Frames that wait for one viewer when nothing else is configured. -/
def standardDepth : Nat := 4

/-- Nobody connected yet. A queue holds at least one frame. -/
def new (depth : Nat) : Broadcast := ⟨max depth 1, false, 1, []⟩

/-- The messages that one queue can hold: the frames and the acknowledgement. -/
def capacity (b : Broadcast) : Nat := b.depth + 1

/-- The viewers that frames are queued for. -/
def table (b : Broadcast) : List Viewer := b.viewers.filter (·.registered)

def clientCount (b : Broadcast) : Nat := b.table.length

def viewer? (b : Broadcast) (id : Nat) : Option Viewer := b.viewers.find? (·.id == id)

/-- **A viewer connects**: it gets the next number; its queue starts with the acknowledgement. -/
def connect (b : Broadcast) : Nat × Broadcast :=
  (b.nextId,
    { b with connected := true, nextId := b.nextId + 1,
             viewers := b.viewers ++ [⟨b.nextId, true, [.ack]⟩] })

/-- The flag is lowered when the table is empty. -/
def settle (b : Broadcast) : Broadcast :=
  if b.table.isEmpty then { b with connected := false } else b

def modify (b : Broadcast) (id : Nat) (f : Viewer → Viewer) : Broadcast :=
  { b with viewers := b.viewers.map fun v => if v.id = id then f v else v }

/-- **Forgets the viewer with a number**, if there is one; its queue stays readable. -/
def disconnect (b : Broadcast) (id : Nat) : Broadcast :=
  settle (b.modify id fun v => { v with registered := false })

/-- **Lets a viewer go**: it is forgotten, and its queue with it. Says whether it was there. -/
def drop (b : Broadcast) (id : Nat) : Bool × Broadcast :=
  match b.viewer? id with
  | none => (false, b)
  | some _ =>
    let b := b.disconnect id
    (true, { b with viewers := b.viewers.filter (·.id != id) })

/-- Whether a frame would be queued for a viewer now. -/
def admits (b : Broadcast) (v : Viewer) : Bool := v.registered && v.queue.length < b.capacity

/-- **A viewer after a frame was offered to it**: the frame is queued if there is room. -/
def offered (b : Broadcast) (data : Bytes) (v : Viewer) : Viewer :=
  if b.admits v then { v with queue := v.queue ++ [.frame data] } else v

/-- A frame is offered to one viewer. -/
def offer (b : Broadcast) (data : Bytes) (id : Nat) : Broadcast := b.modify id (b.offered data)

/-- **Publishing a frame**: it is queued for every viewer with room; the number of those. A viewer
leaves the table before its queue goes, so no queue in the table is closed. -/
def publish (b : Broadcast) (data : Bytes) : Nat × Broadcast :=
  if !b.connected then (0, b)
  else
    let offer (v : Viewer) : Viewer :=
      if b.admits v then { v with queue := v.queue ++ [.frame data] } else v
    ((b.viewers.filter b.admits).length, settle { b with viewers := b.viewers.map offer })

/-- **The next message of a viewer**, if one waits. -/
def receive (b : Broadcast) (id : Nat) : Option PushMessage × Broadcast :=
  match b.viewer? id with
  | none => (none, b)
  | some v => (v.queue.head?, b.modify id fun v => { v with queue := v.queue.tail })

def drain (b : Broadcast) (id : Nat) : List PushMessage × Broadcast :=
  match b.viewer? id with
  | none => ([], b)
  | some v => (v.queue, b.modify id fun v => { v with queue := [] })

/-! ## Histories -/

/-- One thing that happens to a broadcast. -/
inductive Op where
  | connect
  | disconnect (id : Nat)
  | drop (id : Nat)
  | publish (data : Bytes)
  | receive (id : Nat)
  | drain (id : Nat)
  deriving DecidableEq, Repr

/-- Whether it needs the table of the viewers for itself. -/
def Op.locks : Op → Bool
  | .connect | .disconnect _ | .drop _ | .publish _ => true
  | .receive _ | .drain _ => false

/-- What it answers. -/
inductive Outcome where
  | connected (id : Nat)
  | disconnected
  | dropped (existed : Bool)
  | published (count : Nat)
  | received (message : Option PushMessage)
  | drained (messages : List PushMessage)
  deriving DecidableEq, Repr

def step (b : Broadcast) : Op → Outcome × Broadcast
  | .connect => let (id, b) := b.connect; (.connected id, b)
  | .disconnect id => (.disconnected, b.disconnect id)
  | .drop id => let (existed, b) := b.drop id; (.dropped existed, b)
  | .publish data => let (count, b) := b.publish data; (.published count, b)
  | .receive id => let (message, b) := b.receive id; (.received message, b)
  | .drain id => let (messages, b) := b.drain id; (.drained messages, b)

/-- The answers of a history, each with the state after it. -/
def trace (b : Broadcast) : List Op → List (Outcome × Broadcast)
  | [] => []
  | op :: ops => let r := b.step op; r :: trace r.2 ops

def run (b : Broadcast) (ops : List Op) : Broadcast := ops.foldl (fun b op => (b.step op).2) b

end Broadcast

end DeviceGateway
