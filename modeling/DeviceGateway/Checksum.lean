import DeviceGateway.Checksum.Blake3

/-!
# Frame checksums

Every frame carries a checksum of its payload. The frame codec only relies on the checksum of
nothing being zero, so it is written over any `Checksum`; `Checksum.standard` is the one on the
wire.
-/

namespace DeviceGateway

/-- A function from payloads to words that gives zero to the empty payload. -/
structure Checksum where
  sum : Bytes → UInt32
  sum_nil : sum [] = 0

namespace Checksum

/-- **The checksum on the wire**: the first word of the payload's hash, and zero for no payload. -/
def standard : Checksum where
  sum data := if data.isEmpty then 0 else Blake3.firstWord ⟨data.toArray⟩
  sum_nil := rfl

end Checksum

end DeviceGateway
