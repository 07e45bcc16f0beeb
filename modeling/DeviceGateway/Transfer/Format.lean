import DeviceGateway.Bytes

/-!
# The form of a transfer

A file travels as a sequence of messages: one octet that says whether a length follows, the length
in eight octets if so, and then chunks of at most 4096 octets up to the end. `Transfer.messages` is
that sequence; the framer produces it and the receiver accepts nothing else.
-/

namespace DeviceGateway.Transfer

/-- The mode octet of a transfer that declares its length. -/
def declaredMode : UInt8 := 0xAA

/-- The mode octet of a transfer without a declared length. -/
def undeclaredMode : UInt8 := 0xBB

/-- No chunk has more octets than this. -/
def chunkSize : Nat := 4096

/-- The octets of a declared length. -/
def lengthSize : Nat := 8

def header : Option UInt64 → List Bytes
  | some n => [[declaredMode], Bytes.ofNatBE lengthSize n.toNat]
  | none => [[undeclaredMode]]

/-- **All messages of a transfer.** -/
def messages (declared : Option UInt64) (chunks : List Bytes) : List Bytes :=
  header declared ++ chunks

end DeviceGateway.Transfer
