import DeviceGateway.Frame.Basic
import DeviceGateway.Transfer.Receiver

/-!
# Answers to calls

The frames that arrive for a call are its messages, up to the first frame that is none: a status, or
something that a server should not send. When the frames run out before that, the connection was
lost. A call takes from this what it is about: the last message, all of them, or the transfer that
they make.
-/

namespace DeviceGateway

/-- How the messages of a call end. -/
inductive Ending where
  /-- With a status, in its wire form. -/
  | status (payload : Bytes)
  /-- With a frame that a server should not send. -/
  | stray (kind : FrameKind)
  /-- The connection was lost. -/
  | cut
  deriving DecidableEq, Repr, Inhabited

namespace Ending

/-- What an ending means to the caller. -/
def result : Ending → Except GatewayError Unit
  | status payload =>
    match (Payload.ofBytes payload : Except GatewayError Status) with
    | .error e => .error e
    | .ok s => s.toResult
  | stray kind => .error (.protocol s!"unexpected {kind.name} frame from server")
  | cut => .error .channelClosed

end Ending

/-- **The answer to a call.** -/
structure Answer where
  messages : List Bytes
  ending : Ending
  deriving DecidableEq, Repr, Inhabited

/-- A reassembled transfer. -/
structure Received where
  declaredLength : Option UInt64
  body : Bytes
  deriving DecidableEq, Repr, Inhabited

namespace Answer

/-- **The answer in the frames that arrived for a call.** -/
def ofFrames : List Frame → Answer
  | [] => ⟨[], .cut⟩
  | f :: rest =>
    match f.kind with
    | .message =>
      let answer := ofFrames rest
      { answer with messages := f.payload :: answer.messages }
    | .status => ⟨[], .status f.payload⟩
    | kind => ⟨[], .stray kind⟩

/-- Whether the frames that arrived so far make up the answer. -/
def isWhole (frames : List Frame) : Bool := frames.any (·.kind != .message)

/-- **The one reply**: the last message, if the call went well. -/
def reply (a : Answer) : Except GatewayError Bytes :=
  match a.ending.result with
  | .error e => .error e
  | .ok () => .ok (a.messages.getLast?.getD [])

/-- **All messages in order**, with the error of the ending as the last item. -/
def items (a : Answer) : List (Except GatewayError Bytes) :=
  a.messages.map .ok ++ match a.ending.result with
    | .error e => [.error e]
    | .ok () => []

/-- The receiver after some messages, with the chunks that it handed back. -/
def receive (r : Transfer.Receiver) (body : List Bytes) :
    List Bytes → Except Transfer.Fault (Transfer.Receiver × List Bytes)
  | [] => .ok (r, body)
  | m :: rest =>
    match r.accept m with
    | .error e => .error e
    | .ok (none, r) => receive r body rest
    | .ok (some chunk, r) => receive r (body ++ [chunk]) rest

/-- **The transfer that the messages make.** A message out of place counts before the ending. -/
def transfer (a : Answer) : Except GatewayError Received :=
  match receive .new [] a.messages with
  | .error e => .error e.toError
  | .ok (r, chunks) =>
    match a.ending.result with
    | .error e => .error e
    | .ok () =>
      match r.finish with
      | .error e => .error e.toError
      | .ok _ => .ok ⟨r.declared, chunks.flatten⟩

end Answer

end DeviceGateway
