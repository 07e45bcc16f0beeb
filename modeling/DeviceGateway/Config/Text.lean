import DeviceGateway.Config.Reading
import DeviceGateway.Decimal.Shortest
import DeviceGateway.FileSystem.Files
import DeviceGateway.Text.Utf8
import DeviceGateway.Text.Quoted

/-!
# Writing a configuration

A configuration as a text, and configurations in files. A file that cannot be read stands for the
standard configuration; one that can be read must be a configuration.
-/

namespace DeviceGateway

namespace Toml

def quote (s : String) : String :=
  let char (c : Char) : String :=
    match c with
    | '"' => "\\\""
    | '\\' => "\\\\"
    | '\n' => "\\n"
    | '\r' => "\\r"
    | '\t' => "\\t"
    | c =>
      if inComment c then c.toString
      else
        let digits := Nat.toDigits 16 c.toNat
        "\\u" ++ String.ofList (List.replicate (4 - digits.length) '0' ++ digits)
  "\"" ++ String.join (s.toList.map char) ++ "\""

def realStyle : Decimal.Style := ⟨-5, 17⟩

def realText (bits : UInt64) : String :=
  let sign := if bits &&& 0x8000000000000000 = 0 then "" else "-"
  let magnitude := bits &&& 0x7FFFFFFFFFFFFFFF
  if magnitude = 0x7FF0000000000000 then sign ++ "inf"
  else if 0x7FF0000000000000 < magnitude then sign ++ "nan"
  else Decimal.render realStyle bits

/-- A section with its fields, each on a line of its own. -/
def sectionText (name : String) (fields : List (String × String)) : String :=
  s!"[{name}]\n" ++ String.join (fields.map fun (k, v) => s!"{k} = {v}\n")

end Toml

namespace GatewayConfig

open Toml (quote realText sectionText)

/-- **A configuration as a text**: all its sections, with a line between them. -/
def text (c : GatewayConfig) : String :=
  "\n".intercalate
    [ sectionText "network"
        [("bind_address", quote c.network.bindAddress),
         ("rpc_port", toString c.network.rpcPort.toNat),
         ("push_port", toString c.network.pushPort.toNat)],
      sectionText "screen"
        [("enabled", toString c.screen.enabled),
         ("source", quote c.screen.source),
         ("width", toString c.screen.width.toNat),
         ("height", toString c.screen.height.toNat),
         ("fps", toString c.screen.fps.toNat),
         ("scale", realText c.screen.scaleBits),
         ("quality", toString c.screen.quality.toNat),
         ("client_queue_depth", toString c.screen.clientQueueDepth.toNat)],
      sectionText "limiter"
        [("kind", quote c.limiter.kind),
         ("capacity", toString c.limiter.capacity.toNat),
         ("refill_per_sec", toString c.limiter.refillPerSec.toNat),
         ("window_ms", toString c.limiter.windowMs.toNat)],
      sectionText "storage"
        [("media_root", quote c.storage.mediaRoot),
         ("install_dir", quote c.storage.installDir),
         ("staging_dir", quote c.storage.stagingDir)],
      sectionText "providers" [("timeout_ms", toString c.providers.timeoutMs.toNat)],
      sectionText "logging" [("level", quote c.logging.level)] ]

def standardText : String := standard.text

/-- **Writes the standard configuration to a file.** -/
def writeStandard (d : Disk) (path : String) : Except FileFault Disk :=
  d.storeData path (Text.Utf8.encode standardText)

/-- **The configuration that the data of a file describes**; nothing if it does not parse. -/
def ofData? (data : Bytes) : Option GatewayConfig :=
  match Text.Utf8.decode data with
  | .error _ => some standard
  | .ok text => parse text

/-- **The configuration in a file**; nothing if it does not parse. -/
def load (d : Disk) (path : String) : Option GatewayConfig :=
  match d.fileData path with
  | .error _ => some standard
  | .ok data => ofData? data

end GatewayConfig

end DeviceGateway
