import DeviceGateway.Transfer.Format
import DeviceGateway.Error
import DeviceGateway.Text.Quoted

/-!
# Receiving a transfer

The receiver takes the messages of a transfer one at a time. It hands back the chunks and uses up
the header. A message that does not fit is refused and changes nothing.
-/

namespace DeviceGateway.Transfer

/-- Why a message, or the end of the messages, is refused. -/
inductive Fault where
  | unknownMode (octet : UInt8)
  | modeSize (size : Nat)
  | lengthSize (size : Nat)
  | chunkSize (size : Nat)
  | noBody
  | wrongLength (declared received : Nat)
  deriving DecidableEq, Repr

namespace Fault

def message : Fault → String
  | unknownMode b =>
    "unknown transfer mode byte 0x" ++ (if b < 16 then "0" else "") ++ Text.hex b.toNat
  | modeSize n => s!"mode message must be 1 byte, got {n}"
  | lengthSize n => s!"length message must be 8 bytes, got {n}"
  | chunkSize n => s!"body chunk of {n} bytes exceeds 4096"
  | noBody => "transfer ended before the body started"
  | wrongLength declared received => s!"declared {declared} bytes, received {received}"

def toError (f : Fault) : GatewayError := .protocol f.message

end Fault

/-- What the receiver waits for. -/
inductive Awaiting where
  | mode
  | length
  | chunk
  deriving DecidableEq, Repr, Inhabited

/-- A transfer that is being received. -/
structure Receiver where
  awaiting : Awaiting
  declared : Option UInt64
  received : Nat
  deriving DecidableEq, Repr, Inhabited

namespace Receiver

def new : Receiver := ⟨.mode, none, 0⟩

/-- **One message**: what the receiver says to it, and the receiver afterwards. A chunk is handed
back; a part of the header is not. -/
def step (r : Receiver) (m : Bytes) : Except Fault (Option Bytes) × Receiver :=
  match r.awaiting with
  | .mode =>
    match m with
    | [b] =>
      if b = declaredMode then (.ok none, { r with awaiting := .length })
      else if b = undeclaredMode then (.ok none, { r with awaiting := .chunk })
      else (.error (.unknownMode b), r)
    | m => (.error (.modeSize m.length), r)
  | .length =>
    if m.length = Transfer.lengthSize then
      (.ok none,
        { r with awaiting := .chunk, declared := some (UInt64.ofNat (Bytes.toNatBE m)) })
    else (.error (.lengthSize m.length), r)
  | .chunk =>
    if m.length ≤ Transfer.chunkSize then
      (.ok (some m), { r with received := r.received + m.length })
    else (.error (.chunkSize m.length), r)

/-- One message for those who go no further after a refusal. -/
def accept (r : Receiver) (m : Bytes) : Except Fault (Option Bytes × Receiver) :=
  match r.step m with
  | (.ok chunk, r) => .ok (chunk, r)
  | (.error fault, _) => .error fault

theorem accept_eq_ok_iff {r r' : Receiver} {m : Bytes} {chunk : Option Bytes} :
    r.accept m = .ok (chunk, r') ↔ r.step m = (.ok chunk, r') := by
  rcases h : r.step m with ⟨result, after⟩
  cases result <;> simp [accept, h]

theorem step_chunk {declared : Option UInt64} {n : Nat} {m : Bytes}
    (h : m.length ≤ Transfer.chunkSize) :
    step ⟨.chunk, declared, n⟩ m = (.ok (some m), ⟨.chunk, declared, n + m.length⟩) :=
  if_pos h

theorem accept_chunk {declared : Option UInt64} {n : Nat} {m : Bytes}
    (h : m.length ≤ Transfer.chunkSize) :
    accept ⟨.chunk, declared, n⟩ m = .ok (some m, ⟨.chunk, declared, n + m.length⟩) :=
  accept_eq_ok_iff.2 (step_chunk h)

/-- **The end of the messages**: the size of the body, which must be the declared one. -/
def finish (r : Receiver) : Except Fault Nat :=
  if r.awaiting ≠ .chunk then .error .noBody
  else match r.declared with
    | none => .ok r.received
    | some n => if n.toNat = r.received then .ok r.received
      else .error (.wrongLength n.toNat r.received)

end Receiver

end DeviceGateway.Transfer
