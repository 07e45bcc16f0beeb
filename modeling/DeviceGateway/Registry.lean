import Std.Data.HashMap
import DeviceGateway.Error
import DeviceGateway.Text.Quoted

/-!
# The registry of services

Services are registered under names while the gateway starts; after that the set is fixed. The
first registration of a name stays, a second one is refused and its service is not even built.
Bindings keep the order of registration, and an index finds them by name.
-/

namespace DeviceGateway

/-- How many messages go each way in a call of a method. -/
inductive MethodKind where
  /-- One request, one reply. -/
  | unary
  /-- Many messages from the caller, one reply. -/
  | clientStreaming
  /-- One request, many messages back. -/
  | serverStreaming
  deriving DecidableEq, Repr, Inhabited

namespace MethodKind

def name : MethodKind → String
  | unary => "Unary"
  | clientStreaming => "ClientStreaming"
  | serverStreaming => "ServerStreaming"

end MethodKind

/-- A method that a service answers. -/
structure Method where
  name : String
  kind : MethodKind
  deriving DecidableEq, Repr, Inhabited

/-- A named group of methods. -/
structure Service where
  methods : List Method
  deriving DecidableEq, Repr, Inhabited

/-- The method of a service with a name. -/
def Service.method? (s : Service) (name : String) : Option Method :=
  s.methods.find? (·.name == name)

/-- A registered name and its service. -/
structure Binding where
  name : String
  service : Service
  deriving DecidableEq, Repr, Inhabited

def Binding.summary (b : Binding) : String :=
  "ServiceBinding \x7b name: " ++ Text.quote b.name ++ ", methods: [" ++
    ", ".intercalate (b.service.methods.map fun m => Text.quote m.name) ++ "] \x7d"

/-- **The registry**: the bindings in order, and where each name stands among them. -/
structure Registry where
  bindings : Array Binding
  index : Std.HashMap String Nat

namespace Registry

def empty : Registry := ⟨#[], ∅⟩

def size (r : Registry) : Nat := r.bindings.size

def push (r : Registry) (b : Binding) : Registry :=
  ⟨r.bindings.push b, r.index.insert b.name r.bindings.size⟩

/-- **The service registered under a name.** -/
def lookup (r : Registry) (name : String) : Except GatewayError Service :=
  match r.index[name]? with
  | none => .error (.notFound ("service " ++ name))
  | some i =>
    match r.bindings[i]? with
    | none => .error (.notFound ("service " ++ name))
    | some b => .ok b.service

/-! ## Building -/

/-- A registry under construction, and the factories that were run for it, last first. A factory
is named by a value of `ι`. -/
structure Builder (ι : Type) where
  registry : Registry
  ran : List ι

namespace Builder

variable {ι : Type}

def new : Builder ι := ⟨.empty, []⟩

/-- The factories that were run, in order. -/
def built (b : Builder ι) : List ι := b.ran.reverse

/-- **Registers the service of a factory under a name**, unless the name is taken. -/
def register (build : ι → Service) (b : Builder ι) (name : String) (factory : ι) :
    Except GatewayError (Builder ι) :=
  if b.registry.index.contains name then
    .error (.configuration ("duplicate service name " ++ Text.quote name))
  else .ok ⟨b.registry.push ⟨name, build factory⟩, factory :: b.ran⟩

/-- **Registers a table**, up to the first name that is taken: what went wrong there, if anything,
and the builder with what was registered before. -/
def registerAll (build : ι → Service) (b : Builder ι) :
    List (String × ι) → Option GatewayError × Builder ι
  | [] => (none, b)
  | (name, factory) :: rest =>
    match b.register build name factory with
    | .error e => (some e, b)
    | .ok b => registerAll build b rest

end Builder

end Registry

end DeviceGateway
