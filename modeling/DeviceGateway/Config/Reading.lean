import DeviceGateway.Config.Basic
import DeviceGateway.Toml.Document

/-!
# Reading a configuration

A section is a table with some of the names that the section knows; all other names are ignored, and
what is not said keeps its standard value. A section may also be written as a list of its values in
order, and a date stands for a section that says nothing. A value of the wrong type or out of its
range spoils the whole text.
-/

namespace DeviceGateway

open Toml

/-! ## Single values -/

namespace Toml.Value

def asText : Value → Option String
  | text s => some s
  | _ => none

def asBool : Value → Option Bool
  | boolean b => some b
  | _ => none

/-- A whole number from zero to below a limit. -/
def asBelow (limit : Nat) : Value → Option Nat
  | integer n => if 0 ≤ n && n < limit then some n.toNat else none
  | _ => none

def asWord16 (v : Value) : Option UInt16 := (v.asBelow UInt16.size).map UInt16.ofNat
def asWord32 (v : Value) : Option UInt32 := (v.asBelow UInt32.size).map UInt32.ofNat
def asWord64 (v : Value) : Option UInt64 := (v.asBelow UInt64.size).map UInt64.ofNat
def asOctet (v : Value) : Option UInt8 := (v.asBelow UInt8.size).map UInt8.ofNat

/-- The bits of a double; a whole number is rounded to the nearest one. -/
def asRealBits : Value → Option UInt64
  | real bits => some bits
  | integer n => some (Float.ofInt n).toBits
  | _ => none

end Toml.Value

/-! ## Sections -/

/-- The values of a section, by name or in order. -/
inductive SectionValues where
  | named (entries : Entries)
  | ordered (items : List Value)

namespace SectionValues

/-- The values of what stands for a section. -/
def ofValue? : Value → Option SectionValues
  | .table _ es => some (named es)
  | .list items => some (ordered items)
  | .rows tables => some (ordered (tables.map (.table .headed)))
  | .moment _ => some (named [])
  | _ => none

/-- The value of a field, known by its name and by its place. -/
def get? (s : SectionValues) (place : Nat) (name : String) : Option Value :=
  match s with
  | named es => es.get? name
  | ordered items => items[place]?

/-- A field of a section: its standard value if nothing is said. -/
def field {α : Type} (s : SectionValues) (place : Nat) (name : String) (read : Value → Option α)
    (standard : α) : Option α :=
  match s.get? place name with
  | none => some standard
  | some v => read v

end SectionValues

def NetworkConfig.ofValues (s : SectionValues) : Option NetworkConfig := do
  let standard : NetworkConfig := {}
  let bindAddress ← s.field 0 "bind_address" (·.asText) standard.bindAddress
  let rpcPort ← s.field 1 "rpc_port" (·.asWord16) standard.rpcPort
  let pushPort ← s.field 2 "push_port" (·.asWord16) standard.pushPort
  some { bindAddress, rpcPort, pushPort }

def ScreenConfig.ofValues (s : SectionValues) : Option ScreenConfig := do
  let standard : ScreenConfig := {}
  let enabled ← s.field 0 "enabled" (·.asBool) standard.enabled
  let source ← s.field 1 "source" (·.asText) standard.source
  let width ← s.field 2 "width" (·.asWord32) standard.width
  let height ← s.field 3 "height" (·.asWord32) standard.height
  let fps ← s.field 4 "fps" (·.asWord32) standard.fps
  let scaleBits ← s.field 5 "scale" (·.asRealBits) standard.scaleBits
  let quality ← s.field 6 "quality" (·.asOctet) standard.quality
  let clientQueueDepth ← s.field 7 "client_queue_depth" (·.asWord64) standard.clientQueueDepth
  some { enabled, source, width, height, fps, scaleBits, quality, clientQueueDepth }

def LimiterConfig.ofValues (s : SectionValues) : Option LimiterConfig := do
  let standard : LimiterConfig := {}
  let kind ← s.field 0 "kind" (·.asText) standard.kind
  let capacity ← s.field 1 "capacity" (·.asWord64) standard.capacity
  let refillPerSec ← s.field 2 "refill_per_sec" (·.asWord64) standard.refillPerSec
  let windowMs ← s.field 3 "window_ms" (·.asWord64) standard.windowMs
  some { kind, capacity, refillPerSec, windowMs }

def StorageConfig.ofValues (s : SectionValues) : Option StorageConfig := do
  let standard : StorageConfig := {}
  let mediaRoot ← s.field 0 "media_root" (·.asText) standard.mediaRoot
  let installDir ← s.field 1 "install_dir" (·.asText) standard.installDir
  let stagingDir ← s.field 2 "staging_dir" (·.asText) standard.stagingDir
  some { mediaRoot, installDir, stagingDir }

def ProvidersConfig.ofValues (s : SectionValues) : Option ProvidersConfig := do
  let standard : ProvidersConfig := {}
  let timeoutMs ← s.field 0 "timeout_ms" (·.asWord64) standard.timeoutMs
  some { timeoutMs }

def LoggingConfig.ofValues (s : SectionValues) : Option LoggingConfig := do
  let standard : LoggingConfig := {}
  let level ← s.field 0 "level" (·.asText) standard.level
  some { level }

namespace GatewayConfig

/-- A section of a configuration: its standard value if it is missing. -/
def readSection {α : Type} (es : Entries) (name : String) (read : SectionValues → Option α)
    (standard : α) : Option α :=
  match es.get? name with
  | none => some standard
  | some v => (SectionValues.ofValue? v).bind read

/-- The configuration that the tables of a text describe. -/
def ofEntries (es : Entries) : Option GatewayConfig := do
  let network ← readSection es "network" NetworkConfig.ofValues {}
  let screen ← readSection es "screen" ScreenConfig.ofValues {}
  let limiter ← readSection es "limiter" LimiterConfig.ofValues {}
  let storage ← readSection es "storage" StorageConfig.ofValues {}
  let providers ← readSection es "providers" ProvidersConfig.ofValues {}
  let logging ← readSection es "logging" LoggingConfig.ofValues {}
  some { network, screen, limiter, storage, providers, logging }

/-- **The configuration that a text describes**; nothing if it does not parse. -/
def parse (text : String) : Option GatewayConfig := (Toml.parse text).bind ofEntries

end GatewayConfig

end DeviceGateway
