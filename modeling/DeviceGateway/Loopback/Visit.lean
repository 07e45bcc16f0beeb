import DeviceGateway.Gateway.Lifecycle
import DeviceGateway.Loopback.ServerSession

/-!
# A visit to a gateway

A gateway is started, visited once by a caller and a viewer, and told to stop.
-/

namespace DeviceGateway

/-- What a visitor wants. -/
structure Errand where
  /-- A sign of life from the gateway. -/
  ping : Bool
  /-- The first message for viewers. -/
  view : Bool
  /-- The first frame for viewers. -/
  watch : Bool
  deriving DecidableEq, Repr, Inhabited

/-- What a visit shows. -/
structure Visit where
  ping : Option Bytes
  first : Option PushMessage
  frame : Option PushMessage
  served : Except GatewayError Unit

/-- Why there is no visit. -/
inductive VisitFault where
  | call (e : GatewayError)
  | viewer (fault : String)
  deriving DecidableEq, Repr, Inhabited

namespace Visit

/-- The last message of the answer to a sign of life. -/
def pingReply (g : Gateway) (d : Disk) : Option Bytes :=
  match Frame.call 1 ⟨"ping", "ping", []⟩ with
  | .error _ => none
  | .ok f =>
    match ((ServerSession.start g d).trace [.send (f.toBytes .standard), .await 1]).1 with
    | [_, .frames answer] => answer.messages.getLast?
    | _ => none

def messages (c : GatewayConfig) (now : Int) : List PushMessage :=
  match ScreenPush.ofConfig c now with
  | .error _ => []
  | .ok screen => screen.firstMessages now

/-- Why an errand cannot be done on a machine. The call comes before the view. -/
def fault? (n : Network) (e : Errand) : Option VisitFault :=
  match n.fault? with
  | none => none
  | some fault =>
    if e.ping then some (.call (.io fault))
    else if e.view || e.watch then some (.viewer fault) else none

/-- **A visit** on a machine to the gateway of a configuration, with viewers or without. -/
def pay (n : Network) (c : GatewayConfig) (g : Gateway) (d : Disk) (withViewers : Bool) (e : Errand)
    (now : Int) : Except VisitFault Visit :=
  match fault? n e with
  | some f => .error f
  | none =>
    let seen := messages c now
    .ok { ping := if e.ping then pingReply g d else none
          first := if e.view then seen[0]? else none
          frame := if e.watch then seen[1]? else none
          served := Lifecycle.serve c withViewers now }

end Visit

end DeviceGateway
