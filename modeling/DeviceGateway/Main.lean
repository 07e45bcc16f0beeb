import DeviceGateway.CommandLine

/-!
# The program

The command line on a real machine. Files are read and written by the system; all else is decided by
`CommandLine`. The program has no listeners of its own, so a gateway that has started ends at once.
-/

namespace DeviceGateway.Program

open CommandLine

/-- The fault of the system behind a failure; a failure that has no number of its own counts as one
of input that makes no sense. -/
def faultOf (e : IO.Error) : FileFault :=
  match e with
  | .noFileOrDirectory _ code _ => (FileFault.ofCode? code.toNat).getD .missing
  | .inappropriateType _ code _ => (FileFault.ofCode? code.toNat).getD .isDirectory
  | .alreadyExists _ code _ => (FileFault.ofCode? code.toNat).getD .occupied
  | _ => .invalid

/-- Writes the standard configuration to a file. -/
def writeStandard (path : String) : IO Result := do
  try
    IO.FS.writeFile path GatewayConfig.standardText
    pure (wrote path)
  catch e => pure (.failure (describeFault (faultOf e)))

/-- The data of a file, if it can be read. -/
def dataOf? (path : String) : IO (Option Bytes) := do
  try
    pure (some (← IO.FS.readBinFile path).toList)
  catch _ => pure none

/-- Starts the gateway with the configuration in a file. -/
def run (path : String) : IO Result := do
  let config := match ← dataOf? path with
    | none => GatewayConfig.standard
    | some data => (GatewayConfig.ofData? data).getD .standard
  match Lifecycle.run config 0 with
  | .error e => pure (.failure (describeError e))
  | .ok () => pure (.failure s!"no listener on {config.rpcAddress}")

def execute : Command → IO Result
  | .print => pure printed
  | .write path => writeStandard path
  | .run path => run path

def resultOf (arguments : List String) : IO Result :=
  match parse arguments with
  | .error .help => pure (.success usageText)
  | .error .usage => pure ⟨Refusal.usage.exitCode, "", usageText⟩
  | .ok command => execute command

end DeviceGateway.Program

def main (arguments : List String) : IO UInt32 := do
  let result ← DeviceGateway.Program.resultOf arguments
  IO.print result.output
  IO.eprint result.errors
  pure (UInt32.ofNat result.exitCode)
