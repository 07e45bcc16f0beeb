import DeviceGateway.Duration

/-!
# Configuration

What can be configured, in sections, each with what holds when nothing is said.
-/

namespace DeviceGateway

/-- The listeners. -/
structure NetworkConfig where
  bindAddress : String := "0.0.0.0"
  /-- The port on which calls are served. -/
  rpcPort : UInt16 := 9999
  /-- The port on which viewers are served. -/
  pushPort : UInt16 := 10000
  deriving DecidableEq, Repr, Inhabited

/-- The screen as viewers see it. -/
structure ScreenConfig where
  enabled : Bool := true
  source : String := "test-pattern"
  width : UInt32 := 720
  height : UInt32 := 1280
  /-- Frames that the source is asked for in a second. -/
  fps : UInt32 := 30
  /-- The factor by which frames are scaled down, as the bits of a double. -/
  scaleBits : UInt64 := 0x3FE0A3D70A3D70A4
  quality : UInt8 := 60
  /-- Frames that may wait for one viewer. -/
  clientQueueDepth : UInt64 := 4
  deriving DecidableEq, Repr, Inhabited

/-- The limiter in front of the screen encoder. -/
structure LimiterConfig where
  kind : String := "token-bucket"
  capacity : UInt64 := 30
  refillPerSec : UInt64 := 15
  windowMs : UInt64 := 1000
  deriving DecidableEq, Repr, Inhabited

/-- Where things are kept. -/
structure StorageConfig where
  mediaRoot : String := "/tmp/gdroid/media"
  installDir : String := "/tmp/gdroid/packages"
  stagingDir : String := "/tmp/gdroid/staging"
  deriving DecidableEq, Repr, Inhabited

/-- The providers. -/
structure ProvidersConfig where
  /-- How long a provider may take. -/
  timeoutMs : UInt64 := 5000
  deriving DecidableEq, Repr, Inhabited

structure LoggingConfig where
  level : String := "info"
  deriving DecidableEq, Repr, Inhabited

/-- **The configuration of a gateway.** -/
structure GatewayConfig where
  network : NetworkConfig := {}
  screen : ScreenConfig := {}
  limiter : LimiterConfig := {}
  storage : StorageConfig := {}
  providers : ProvidersConfig := {}
  logging : LoggingConfig := {}
  deriving DecidableEq, Repr, Inhabited

namespace GatewayConfig

def standard : GatewayConfig := {}

def rpcAddress (c : GatewayConfig) : String := s!"{c.network.bindAddress}:{c.network.rpcPort.toNat}"

def pushAddress (c : GatewayConfig) : String :=
  s!"{c.network.bindAddress}:{c.network.pushPort.toNat}"

/-- How long a provider may take, but at least a millisecond. -/
def providerTimeout (c : GatewayConfig) : Duration := .ofMillis (max c.providers.timeoutMs.toNat 1)

/-- Frames in a second, between one and sixty. -/
def frameRate (c : GatewayConfig) : Nat := max 1 (min c.screen.fps.toNat 60)

/-- The time from one frame to the next, to the nearest nanosecond. -/
def frameInterval (c : GatewayConfig) : Duration :=
  ⟨(2 * 1000000000 + c.frameRate) / (2 * c.frameRate)⟩

end GatewayConfig

end DeviceGateway
