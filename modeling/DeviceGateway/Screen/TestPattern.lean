import DeviceGateway.Screen.RawFrame
import DeviceGateway.Text.Quoted

/-!
# Capture sources

A source hands over the current picture of the screen. The test pattern needs no screen: it shows
seven upright colour bars and a white bar of eight rows that moves down with every frame.
-/

namespace DeviceGateway

/-- The test pattern, and the number of frames that it has shown. -/
structure TestPattern where
  width : UInt32
  height : UInt32
  tick : UInt32
  deriving DecidableEq, Repr, Inhabited

namespace TestPattern

/-- The colours of the bars, from left to right. -/
def bars : List Bytes :=
  [[192, 192, 192], [192, 192, 0], [0, 192, 192], [0, 192, 0], [192, 0, 192], [192, 0, 0],
    [0, 0, 192]]

/-- The rows of the white bar. -/
def sweepRows : Nat := 8

/-- The pattern of a size, at least one pixel each way. -/
def new (width height : UInt32) : TestPattern := ⟨max width 1, max height 1, 0⟩

def barColour (width x : Nat) : Bytes := bars.getD (x * bars.length / width) []

/-- The first row of the white bar. -/
def sweep (p : TestPattern) : Nat := p.tick.toNat * sweepRows % p.height.toNat

/-- **The next frame**, and the pattern after it. -/
def next (p : TestPattern) : RawFrame × TestPattern :=
  let barRow := (List.range p.width.toNat).flatMap (barColour p.width.toNat)
  let whiteRow := List.replicate (p.width.toNat * 3) 255
  let data := (List.range p.height.toNat).flatMap fun y =>
    if p.sweep ≤ y ∧ y < p.sweep + sweepRows then whiteRow else barRow
  (.packed p.width p.height .rgb data, { p with tick := p.tick + 1 })

/-- The next frames, after those taken so far (last first). -/
def take : Nat → List RawFrame → TestPattern → List RawFrame
  | 0, taken, _ => taken.reverse
  | n + 1, taken, p => let (f, p) := p.next; take n (f :: taken) p

end TestPattern

/-- The sources that can be configured. -/
inductive CaptureSource where
  | testPattern (p : TestPattern)
  /-- No source: the screen is not captured. -/
  | off
  deriving DecidableEq, Repr

namespace CaptureSource

/-- **The source of a configured name.** -/
def ofName (name : String) (width height : UInt32) : Except GatewayError CaptureSource :=
  match name with
  | "test-pattern" => .ok (testPattern (.new width height))
  | "none" => .ok off
  | other => .error (.configuration ("unknown capture source " ++ Text.quote other))

end CaptureSource

end DeviceGateway
