import DeviceGateway.Broadcast
import DeviceGateway.Loopback.Network

/-!
# Viewers

Viewers connect to the push listener, which keeps one client of the broadcast for each. What is
queued for a client goes to its viewer at once: the greeting as a text, every frame as octets. What
viewers send is ignored, but for signs of life, which are answered, and for their leaving. A peer
that does not speak like a viewer never becomes one.
-/

namespace DeviceGateway

/-- What arrives at a viewer. -/
inductive ViewerMessage where
  | text (s : String)
  | octets (data : Bytes)
  /-- The answer to a sign of life. -/
  | pong
  | close
  deriving DecidableEq, Repr, Inhabited

def greeting : String := "OK"

/-- A message of the broadcast as it goes to a viewer. -/
def ViewerMessage.ofPush : PushMessage → ViewerMessage
  | .ack => text greeting
  | .frame data => octets data

/-- The viewer's end of a connection. -/
structure ViewerLine where
  /-- How the viewer is called. -/
  name : Nat
  /-- The client of the broadcast, as long as the listener serves the viewer. -/
  client : Option Nat
  /-- What has arrived and has not been read. -/
  arrived : List ViewerMessage
  deriving DecidableEq, Repr, Inhabited

/-- **The listener with its viewers.** -/
structure PushListener where
  broadcast : Broadcast
  lines : List ViewerLine
  stopped : Bool
  deriving DecidableEq, Repr, Inhabited

/-- What a viewer, a publisher or the gateway does. -/
inductive PushStep where
  | connect (name : Nat)
  /-- A viewer reads the next message. -/
  | receive (name : Nat)
  /-- A viewer sends something that is ignored. -/
  | chatter (name : Nat)
  /-- A viewer sends a sign of life. -/
  | ping (name : Nat)
  | publish (data : Bytes)
  /-- A viewer takes its leave. -/
  | leave (name : Nat)
  /-- The connection of a viewer is lost. -/
  | vanish (name : Nat)
  /-- A peer connects that is no viewer. -/
  | stranger (data : Bytes)
  | shutdown
  deriving DecidableEq, Repr

/-- What a step answers. -/
inductive PushAnswer where
  | nothing
  | message (m : Option ViewerMessage)
  | delivered (count : Nat)
  deriving DecidableEq, Repr, Inhabited

namespace PushListener

/-- A listener that nobody has connected to. -/
def new (depth : Nat) : PushListener := ⟨.new depth, [], false⟩

def modify (l : PushListener) (name : Nat) (f : ViewerLine → ViewerLine) : PushListener :=
  { l with lines := l.lines.map fun line => if line.name = name then f line else line }

/-- What is queued for a client goes to its viewer. -/
def forwardLine (b : Broadcast) (line : ViewerLine) : ViewerLine × Broadcast :=
  match line.client with
  | none => (line, b)
  | some id =>
    let (messages, b) := b.drain id
    ({ line with arrived := line.arrived ++ messages.map .ofPush }, b)

/-- What is queued for all clients goes to their viewers. -/
def forward (l : PushListener) : PushListener :=
  let (lines, broadcast) := l.lines.foldl (fun (lines, b) line =>
    let (line, b) := forwardLine b line
    (lines ++ [line], b)) ([], l.broadcast)
  { l with lines, broadcast }

def release (l : PushListener) (name : Nat) (last : List ViewerMessage) : PushListener :=
  match l.lines.find? (·.name == name) with
  | some { client := some id, .. } =>
    let closed := l.modify name fun line =>
      { line with client := none, arrived := line.arrived ++ last }
    { closed with broadcast := (l.broadcast.drop id).2 }
  | _ => l

/-- One step, without what is forwarded after it. -/
def perform (l : PushListener) : PushStep → PushAnswer × PushListener
  | .connect name =>
    if l.stopped then (.nothing, l)
    else
      let (id, broadcast) := l.broadcast.connect
      (.nothing, { l with broadcast, lines := l.lines ++ [⟨name, some id, []⟩] })
  | .receive name =>
    match l.lines.find? (·.name == name) with
    | none => (.message none, l)
    | some line =>
      (.message line.arrived.head?, l.modify name fun line =>
        { line with arrived := line.arrived.tail })
  | .chatter _ | .stranger _ => (.nothing, l)
  | .ping name =>
    let answered := l.modify name fun line =>
      if line.client.isSome then { line with arrived := line.arrived ++ [.pong] } else line
    (.nothing, answered)
  | .publish data =>
    let (count, broadcast) := l.broadcast.publish data
    (.delivered count, { l with broadcast })
  | .leave name | .vanish name => (.nothing, l.release name [.close])
  | .shutdown =>
    let ended := l.lines.foldl (fun l line => l.release line.name [.close]) l
    (.nothing, { ended with stopped := true })

/-- **One step**, and what is forwarded after it. -/
def step (l : PushListener) (s : PushStep) : PushAnswer × PushListener :=
  let (answer, l) := l.perform s
  (answer, l.forward)

/-- Why a session on a machine comes to an end before it is over. -/
inductive Failure where
  /-- A viewer cannot connect. -/
  | viewer (fault : String)
  /-- A stranger cannot connect. -/
  | stranger (fault : String)
  deriving DecidableEq, Repr, Inhabited

/-- Whether a step fails on a machine. -/
def failure? (n : Network) : PushStep → Option Failure
  | .connect _ => n.fault?.map .viewer
  | .stranger _ => n.fault?.map .stranger
  | _ => none

/-- **The answers to steps** on a machine, each with the listener after it; the first failure if
there is one. -/
def record (n : Network) (l : PushListener) :
    List PushStep → Except Failure (List (PushAnswer × PushListener))
  | [] => .ok []
  | s :: rest =>
    match failure? n s with
    | some f => .error f
    | none =>
      let r := l.step s
      (record n r.2 rest).map (r :: ·)

end PushListener

end DeviceGateway
