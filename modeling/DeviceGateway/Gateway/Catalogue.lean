import DeviceGateway.Registry

/-!
# The services of the gateway

Every group of methods that the gateway answers, in the order in which the groups are registered.
A few methods take or give more than one message; all others are one request and one reply.
-/

namespace DeviceGateway

/-- The groups of methods. -/
inductive ServiceGroup where
  | ping
  | packageManager
  | filesystem
  | network
  | device
  | control
  | mediaStore
  | sms
  | contact
  | callLog
  | phone
  deriving DecidableEq, Repr, Inhabited

namespace ServiceGroup

/-- The name by which callers know a group. -/
def name : ServiceGroup → String
  | ping => "ping"
  | packageManager => "package-manager"
  | filesystem => "filesystem"
  | network => "network"
  | device => "device"
  | control => "control"
  | mediaStore => "media-store"
  | sms => "sms"
  | contact => "contact"
  | callLog => "call-log"
  | phone => "phone"

/-- All groups, in the order of registration. -/
def all : List ServiceGroup :=
  [ping, packageManager, filesystem, network, device, control, mediaStore, sms, contact, callLog,
    phone]

/-- Methods with one request and one reply. -/
def unaryMethods (names : List String) : List Method := names.map fun n => ⟨n, .unary⟩

/-- **The methods of a group.** -/
def methods : ServiceGroup → List Method
  | ping => unaryMethods ["ping"]
  | packageManager =>
    ⟨"install", .clientStreaming⟩ ::
      unaryMethods ["all-packages", "user-packages", "system-packages", "package", "application",
        "app-size", "permissions", "activities", "services", "receivers", "providers",
        "shared-libs", "get-icon", "uninstall"]
  | filesystem =>
    ⟨"upload", .clientStreaming⟩ :: ⟨"download", .serverStreaming⟩ ::
      unaryMethods ["list-dir", "create-file", "delete-file", "mkdir", "rmdir", "move", "rename",
        "copy", "read-text", "write-text", "append-text"]
  | network =>
    unaryMethods ["info", "wifi", "connectivity", "active", "public", "scan-wifi", "hostname"]
  | device =>
    unaryMethods ["info", "system", "battery", "location", "display", "memory", "storage", "gpu",
      "cpu"]
  | control =>
    unaryMethods ["get-brightness", "set-brightness", "get-brightness-mode", "set-brightness-mode",
      "get-clipboard", "set-clipboard", "get-volume", "set-volume", "increase-volume",
      "decrease-volume", "start-screen-capture", "stop-screen-capture"]
  | mediaStore => [⟨"list", .unary⟩, ⟨"download", .serverStreaming⟩, ⟨"delete", .unary⟩]
  | sms => unaryMethods ["all", "get", "send", "delete"]
  | contact => unaryMethods ["all", "get", "add", "delete"]
  | callLog => unaryMethods ["all", "get", "delete"]
  | phone => unaryMethods ["dial", "call"]

def service (g : ServiceGroup) : Service := ⟨g.methods⟩

def ofName? (name : String) : Option ServiceGroup := all.find? (·.name == name)

end ServiceGroup

/-- The registration of all groups: what went wrong, if anything, and what was registered. -/
def registration : Option GatewayError × Registry.Builder ServiceGroup :=
  Registry.Builder.new.registerAll ServiceGroup.service (ServiceGroup.all.map fun g => (g.name, g))

/-- **The registry of the gateway.** -/
def gatewayRegistry : Registry := registration.2.registry

end DeviceGateway
