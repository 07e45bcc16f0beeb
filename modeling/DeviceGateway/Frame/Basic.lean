import DeviceGateway.Wire.Payload

/-!
# Frames

A connection carries frames. A frame belongs to a call and has a kind: `call` opens the call,
`message` carries one message of it in either direction, `halfClose` ends the messages of the
caller, `cancel` withdraws the call, and `status` ends it. No payload is longer than
`Frame.maxPayload`; this is part of the type, so every way to make a frame checks it.
-/

namespace DeviceGateway

/-- What a frame is for. -/
inductive FrameKind where
  | call
  | message
  | halfClose
  | cancel
  | status
  deriving DecidableEq, Repr, Inhabited

namespace FrameKind

def name : FrameKind → String
  | call => "Call"
  | message => "Message"
  | halfClose => "HalfClose"
  | cancel => "Cancel"
  | status => "Status"

/-- The octet that stands for a kind. -/
def code : FrameKind → UInt8
  | call => 1
  | message => 2
  | halfClose => 3
  | cancel => 4
  | status => 5

/-- The kind that an octet stands for. -/
def ofCode? (b : UInt8) : Option FrameKind :=
  if b = 1 then some call
  else if b = 2 then some message
  else if b = 3 then some halfClose
  else if b = 4 then some cancel
  else if b = 5 then some status
  else none

theorem ofCode?_eq_some_iff {b : UInt8} {k : FrameKind} : ofCode? b = some k ↔ b = k.code := by
  constructor
  · unfold ofCode?
    intro h
    repeat' split at h
    all_goals simp_all [code]
    all_goals subst h; rfl
  · rintro rfl
    cases k <;> rfl

end FrameKind

/-- Why octets, or the parts of a frame, are no frame. -/
inductive FrameFault where
  | badMagic
  | unknownKind
  | lengthMismatch
  | checksumMismatch
  | tooLarge (size : Nat)
  deriving DecidableEq, Repr

/-- No payload has more octets than this. -/
def Frame.maxPayload : Nat := 1048576

/-- The fault as the gateway reports it. -/
def FrameFault.toError : FrameFault → GatewayError
  | badMagic => .invalidFrame "bad magic"
  | unknownKind => .invalidFrame "unknown frame kind"
  | lengthMismatch => .invalidFrame "payload length mismatch"
  | checksumMismatch => .invalidFrame "checksum mismatch"
  | tooLarge size => .payloadTooLarge size Frame.maxPayload

/-- **A frame**: a kind, the call that it belongs to, and a payload within the limit. -/
structure Frame where
  kind : FrameKind
  callId : UInt64
  payload : Bytes
  payload_le : payload.length ≤ Frame.maxPayload
  deriving DecidableEq, Repr

namespace Frame

/-- The frame of these parts, unless the payload is over the limit. -/
def make (kind : FrameKind) (callId : UInt64) (payload : Bytes) : Except FrameFault Frame :=
  if h : payload.length ≤ maxPayload then .ok ⟨kind, callId, payload, h⟩
  else .error (.tooLarge payload.length)

def call (callId : UInt64) (request : CallRequest) : Except FrameFault Frame :=
  make .call callId (Payload.toBytes request)

def message (callId : UInt64) (payload : Bytes) : Except FrameFault Frame :=
  make .message callId payload

def halfClose (callId : UInt64) : Frame := ⟨.halfClose, callId, [], Nat.zero_le _⟩

def cancel (callId : UInt64) : Frame := ⟨.cancel, callId, [], Nat.zero_le _⟩

def status (callId : UInt64) (s : Status) : Except FrameFault Frame :=
  make .status callId (Payload.toBytes s)

def summary (f : Frame) : String :=
  "Frame \x7b kind: " ++ f.kind.name ++ ", call_id: " ++ toString f.callId.toNat ++
    ", payload_len: " ++ toString f.payload.length ++ " \x7d"

end Frame

end DeviceGateway
