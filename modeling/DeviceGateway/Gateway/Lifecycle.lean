import DeviceGateway.Config.Basic
import DeviceGateway.Gateway.Catalogue
import DeviceGateway.Limiter
import DeviceGateway.Screen.Capture
import DeviceGateway.Screen.Encoder
import DeviceGateway.Screen.TestPattern

/-!
# From start to stop

A gateway registers its services, then serves calls and, if viewers can connect, shows them the
screen. What cannot be started stops the whole gateway; otherwise it serves until it is told to
stop, and ends well.
-/

namespace DeviceGateway

/-- What shows the screen to viewers. -/
structure ScreenPush where
  limiter : Limiter
  source : CaptureSource
  encoder : FrameEncoder
  viewers : Broadcast

namespace ScreenPush

/-- **Sets up the screen**: the limiter first, then the source. -/
def ofConfig (c : GatewayConfig) (now : Int) : Except GatewayError ScreenPush :=
  let l := c.limiter
  match Limiter.ofKind l.kind l.capacity.toNat l.refillPerSec.toNat l.windowMs.toNat now with
  | .error e => .error e
  | .ok limiter =>
    match CaptureSource.ofName c.screen.source c.screen.width c.screen.height with
    | .error e => .error e
    | .ok source => .ok
      { limiter, source, encoder := .new (.ofBits c.screen.scaleBits) c.screen.quality.toNat
        viewers := .new c.screen.clientQueueDepth.toNat }

/-- What frames pass through, at one instant. -/
def passage (encoder : FrameEncoder) (now : Int) : Passage Limiter RawFrame where
  allow l := l.allow now
  encode l f := (encoder.encode f, l)

/-- The first frame of a source; none if the screen is not captured. -/
def firstShot : CaptureSource → List (Shot RawFrame)
  | .off => []
  | .testPattern p => [.frame p.next.1]

/-- **What a viewer who connects sees first**: the greeting, and then the first frame, if the
source gives one and it gets through. -/
def firstMessages (s : ScreenPush) (now : Int) : List PushMessage :=
  let (id, viewers) := s.viewers.connect
  let run : CaptureRun Limiter RawFrame := ⟨.start, .start s.limiter viewers false⟩
  let played := run.play (passage s.encoder now) (firstShot s.source)
  (played.pipeline.viewers.drain id).1

end ScreenPush

namespace Lifecycle

/-- What has been started. -/
structure Started where
  registry : Registry
  screen : Option ScreenPush

/-- **Starts a gateway**, with viewers or without. -/
def start (c : GatewayConfig) (withViewers : Bool) (now : Int) : Except GatewayError Started :=
  match registration with
  | (some e, _) => .error e
  | (none, builder) =>
    if withViewers then
      match ScreenPush.ofConfig c now with
      | .error e => .error e
      | .ok screen => .ok ⟨builder.registry, some screen⟩
    else .ok ⟨builder.registry, none⟩

/-- **Serves until it is told to stop**, which ends well; what cannot be started ends at once. -/
def serve (c : GatewayConfig) (withViewers : Bool) (now : Int) : Except GatewayError Unit :=
  (start c withViewers now).map fun _ => ()

/-- Serves as configured: viewers can connect if the screen is enabled. -/
def run (c : GatewayConfig) (now : Int) : Except GatewayError Unit := serve c c.screen.enabled now

end Lifecycle

end DeviceGateway
