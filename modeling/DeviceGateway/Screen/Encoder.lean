import DeviceGateway.Screen.Jpeg

/-!
# Encoding frames for viewers

Frames are scaled down and compressed before they are sent. The scale is at most one and the
quality lies between 1 and 100; a scale that is not positive is replaced by the standard one.
-/

namespace DeviceGateway

/-- How frames are encoded. -/
structure FrameEncoder where
  scale : Float
  quality : Nat
  deriving Inhabited

namespace FrameEncoder

def standardScale : Float := 0.52

def standardQuality : Nat := 60

/-- The encoder of a scale and a quality. -/
def new (scale : Float) (quality : Nat) : FrameEncoder :=
  { scale := if scale > 0 then (if scale < 1 then scale else 1) else standardScale
    quality := max 1 (min quality 100) }

/-- The encoder when nothing else is configured. -/
def standard : FrameEncoder := new standardScale standardQuality

/-- One side of a picture after scaling: rounded down, but at least one. -/
def scaledSide (e : FrameEncoder) (side : UInt32) : UInt32 :=
  max (Float.ofNat side.toNat * e.scale).toUInt32 1

/-- The size of a picture after scaling. -/
def scaledSize (e : FrameEncoder) (width height : UInt32) : UInt32 × UInt32 :=
  (e.scaledSide width, e.scaledSide height)

/-- **Encoding a frame.** A picture that is still too large for the format is refused. -/
def encode (e : FrameEncoder) (f : RawFrame) : Except GatewayError Bytes :=
  match f.toImage with
  | .error d => .error d.toError
  | .ok _ =>
    let (w, h) := e.scaledSize f.width f.height
    if w.toNat ≤ Jpeg.Outline.maxSide ∧ h.toNat ≤ Jpeg.Outline.maxSide then
      .ok (Jpeg.Outline.ofSize w.toNat h.toNat e.quality).toBytes
    else
      .error (.encoding ("jpeg encode failed: Format error encoding Jpeg:\n"
        ++ s!"Invalid image size ({w} x {h}) to encode as JPEG: "
        ++ "width and height must be >= 1 and <= 65535"))

end FrameEncoder

end DeviceGateway
