import DeviceGateway.Frame.Basic
import DeviceGateway.Checksum

/-!
# Frame headers

A frame starts with a header of 24 octets: four of magic, the checksum of the payload, the kind,
three reserved octets that are written as zero and ignored when read, the call, and the length of
the payload.
-/

namespace DeviceGateway

structure FrameHeader where
  checksum : UInt32
  kind : FrameKind
  callId : UInt64
  length : UInt32
  deriving DecidableEq, Repr, Inhabited

namespace FrameHeader

def size : Nat := 24

/-- The first four octets of every frame. -/
def magic : Bytes := [0x47, 0x44, 0x52, 0x31]

/-- A header on the wire, with the three reserved octets as given. -/
def toBytesWith (reserved : Bytes) (h : FrameHeader) : Bytes :=
  magic ++ Bytes.ofNatLE 4 h.checksum.toNat ++ [h.kind.code] ++ reserved ++
    Bytes.ofNatLE 8 h.callId.toNat ++ Bytes.ofNatLE 4 h.length.toNat

/-- **A header on the wire.** -/
def toBytes (h : FrameHeader) : Bytes := h.toBytesWith [0, 0, 0]

/-- The octets from one position up to another, as a little-endian number. -/
def field (bs : Bytes) (start count : Nat) : Nat := Bytes.toNatLE ((bs.drop start).take count)

/-- **Reading a header** from its 24 octets: the magic must be right, and the kind known. -/
def ofBytes (bs : Bytes) : Except FrameFault FrameHeader :=
  if bs.take 4 ≠ magic then .error .badMagic
  else match FrameKind.ofCode? (bs.getD 8 0) with
    | none => .error .unknownKind
    | some kind => .ok
      { checksum := UInt32.ofNat (field bs 4 4), kind, callId := UInt64.ofNat (field bs 12 8)
        length := UInt32.ofNat (field bs 20 4) }

end FrameHeader

namespace Frame

/-- The header that goes with a frame. -/
def header (c : Checksum) (f : Frame) : FrameHeader :=
  { checksum := c.sum f.payload, kind := f.kind, callId := f.callId
    length := UInt32.ofNat f.payload.length }

/-- **A frame on the wire**: its header, then its payload. -/
def toBytes (c : Checksum) (f : Frame) : Bytes := (f.header c).toBytes ++ f.payload

/-- The frame of a header and a payload, which must be as the header says. -/
def ofParts (c : Checksum) (h : FrameHeader) (payload : Bytes) : Except FrameFault Frame :=
  if payload.length ≠ h.length.toNat then .error .lengthMismatch
  else if c.sum payload ≠ h.checksum then .error .checksumMismatch
  else make h.kind h.callId payload

end Frame

end DeviceGateway
