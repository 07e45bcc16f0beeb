import DeviceGateway.Bytes
import DeviceGateway.Error

/-!
# Raw frames

A raw frame is a picture as a capture source hands it over: rows of pixels, each row `stride`
octets long, which may be more than its pixels need. `toImage` checks that the octets are there and
makes a packed picture of red, green and blue out of them.
-/

namespace DeviceGateway

/-- The order of the octets of a pixel. -/
inductive PixelFormat where
  | bgra
  | rgba
  | rgb
  deriving DecidableEq, Repr, Inhabited

namespace PixelFormat

def size : PixelFormat → Nat
  | bgra | rgba => 4
  | rgb => 3

def name : PixelFormat → String
  | bgra => "Bgra8"
  | rgba => "Rgba8"
  | rgb => "Rgb8"

/-- Red, green and blue of a pixel. -/
def colour (f : PixelFormat) (pixel : Bytes) : Bytes :=
  match f, pixel with
  | bgra, b :: g :: r :: _ => [r, g, b]
  | rgba, r :: g :: b :: _ | rgb, r :: g :: b :: _ => [r, g, b]
  | _, _ => []

end PixelFormat

/-- A picture without compression. -/
structure RawFrame where
  width : UInt32
  height : UInt32
  /-- The octets from the start of one row to the start of the next. -/
  stride : UInt32
  format : PixelFormat
  data : Bytes
  deriving DecidableEq, Repr, Inhabited

/-- A packed picture of red, green and blue. -/
structure RgbImage where
  width : UInt32
  height : UInt32
  pixels : Bytes
  deriving DecidableEq, Repr, Inhabited

/-- Why octets are no picture. -/
inductive FrameDefect where
  | empty
  | shortStride
  | shortData (size needed : Nat)
  deriving DecidableEq, Repr

/-- The defect as the gateway reports it. -/
def FrameDefect.toError : FrameDefect → GatewayError
  | empty => .encoding "empty frame"
  | shortStride => .encoding "stride shorter than a row"
  | shortData size needed => .encoding s!"frame buffer holds {size} bytes, expected {needed}"

namespace RawFrame

/-- A frame whose rows follow each other without a gap. -/
def packed (width height : UInt32) (format : PixelFormat) (data : Bytes) : RawFrame :=
  ⟨width, height, width * UInt32.ofNat format.size, format, data⟩

def needed (f : RawFrame) : Nat := f.stride.toNat * f.height.toNat

/-- What keeps the octets from being a picture, if anything. -/
def defect? (f : RawFrame) : Option FrameDefect :=
  if f.width = 0 ∨ f.height = 0 then some .empty
  else if f.stride.toNat < f.width.toNat * f.format.size then some .shortStride
  else if f.data.length < f.needed then some (.shortData f.data.length f.needed)
  else none

/-- The colours of a number of pixels, in front of those done so far (all last first). -/
def rowColours (format : PixelFormat) : Nat → Bytes → Bytes → Bytes
  | 0, _, done => done
  | n + 1, row, done =>
    rowColours format n (row.drop format.size)
      ((format.colour (row.take format.size)).reverse ++ done)

/-- The colours of a number of rows, in front of those done so far (all last first). -/
def colours (format : PixelFormat) (width stride : Nat) : Nat → Bytes → Bytes → Bytes
  | 0, _, done => done
  | n + 1, data, done =>
    colours format width stride n (data.drop stride) (rowColours format width data done)

/-- **The packed picture of a frame**: alpha, the rests of rows and what follows the last row are
left out. -/
def toImage (f : RawFrame) : Except FrameDefect RgbImage :=
  match f.defect? with
  | some d => .error d
  | none => .ok ⟨f.width, f.height,
      (colours f.format f.width.toNat f.stride.toNat f.height.toNat f.data []).reverse⟩

end RawFrame

end DeviceGateway
