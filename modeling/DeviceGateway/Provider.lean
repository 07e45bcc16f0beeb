import DeviceGateway.Wire.Payload
import DeviceGateway.Json.Parse
import DeviceGateway.Text.Blank

/-!
# Providers

A provider answers requests of a capability group that the gateway has no handler of its own for.
Requests and replies are JSON.
-/

namespace DeviceGateway

namespace JsonPayload

def ofValue (value : Json) : JsonPayload := ⟨value.text⟩

/-- The value that a payload holds; blanks alone hold nothing. -/
def value (p : JsonPayload) : Except GatewayError Json :=
  if (Text.trim p.json.toList).isEmpty then .ok .null
  else match Json.parse p.json with
    | .ok v => .ok v
    | .error text => .error (.encoding text)

end JsonPayload

/-! ## The host -/

/-- What the gateway can say about the machine that it runs on. -/
structure Host where
  os : String
  family : String
  arch : String
  cpus : Nat
  pid : Nat
  name : String
  deriving Inhabited

/-- **The provider of the host itself**: a few facts about the machine, and nothing else. -/
def Host.invoke (host : Host) (group method : String) : Except GatewayError Json :=
  match group, method with
  | "device", "info" => .ok (.ofMembers [("os", .str host.os), ("family", .str host.family),
      ("arch", .str host.arch), ("cpus", .int host.cpus)])
  | "device", "system" => .ok (.ofMembers [("gateway", .str "gdroid-gateway"),
      ("version", .str "0.1.0"), ("pid", .int host.pid)])
  | "network", "hostname" => .ok (.ofMembers [("hostname", .str host.name)])
  | _, _ => .error (.notFound s!"no provider for {group}.{method}")

end DeviceGateway
