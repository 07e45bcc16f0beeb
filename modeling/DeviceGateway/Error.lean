import DeviceGateway.Duration

/-!
# Errors of the gateway

Everything that can go wrong in the gateway is one of these causes. `GatewayError.message` is
their wording, the one that peers are shown.
-/

namespace DeviceGateway

/-- Why an operation of the gateway failed. -/
inductive GatewayError where
  /-- A service, method, provider or file that is not there. -/
  | notFound (what : String)
  /-- The operating system refused. -/
  | io (text : String)
  /-- The peer broke the rules of the conversation. -/
  | protocol (text : String)
  /-- Bytes that are no frame. -/
  | invalidFrame (text : String)
  /-- A payload over the frame limit. -/
  | payloadTooLarge (size max : Nat)
  | timeout (limit : Duration)
  | cancelled
  | channelClosed
  | configuration (text : String)
  /-- Bytes or text that do not decode. -/
  | encoding (text : String)
  | other (text : String)
  deriving DecidableEq, Repr, Inhabited

namespace GatewayError

/-- **The error in words.** -/
def message : GatewayError → String
  | notFound what => "not found: " ++ what
  | io text => "io error: " ++ text
  | protocol text => "protocol error: " ++ text
  | invalidFrame text => "invalid frame: " ++ text
  | payloadTooLarge size max => s!"payload too large: {size} bytes (max {max})"
  | timeout limit => "timeout after " ++ limit.text
  | cancelled => "call cancelled"
  | channelClosed => "channel closed"
  | configuration text => "configuration error: " ++ text
  | encoding text => "encoding error: " ++ text
  | other text => text

end GatewayError

end DeviceGateway
