/-!
# Connections to the machine itself

A gateway is often used from the machine on which it runs. Some machines have listeners and yet
refuse every connection, because they have no network that leads back to them.
-/

namespace DeviceGateway

/-- What the system does with connections to the machine itself. -/
inductive Network where
  | reachable
  | unreachable
  deriving DecidableEq, Repr, Inhabited

namespace Network

/-- Why connections fail, in the words of the system, if they do. -/
def fault? : Network → Option String
  | reachable => none
  | unreachable => some "Network is unreachable (os error 101)"

end Network

end DeviceGateway
