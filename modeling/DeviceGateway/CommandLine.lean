import DeviceGateway.Config.Text
import DeviceGateway.Gateway.Lifecycle

/-!
# The command line

The program is run with the path of a configuration, or is asked for the standard configuration. Its
arguments are read from left to right, and the first one that makes no sense ends the reading.
-/

namespace DeviceGateway.CommandLine

/-! ## Arguments -/

/-- Why the arguments are no command. -/
inductive Refusal where
  /-- Help was asked for. -/
  | help
  /-- The arguments are wrong. -/
  | usage
  deriving DecidableEq, Repr, Inhabited

/-- How the program ends after a refusal. -/
def Refusal.exitCode : Refusal → Nat
  | help => 0
  | usage => 2

/-- What has been read of the arguments. -/
structure Options where
  config : Option String
  genConfig : Bool
  writeConfig : Bool
  deriving DecidableEq, Repr, Inhabited

namespace Options

def none : Options := ⟨.none, false, false⟩

/-- Sets the path of the configuration, which must not be empty and can be set only once. -/
def setConfig (o : Options) (path : String) : Except Refusal Options :=
  if path = "" ∨ o.config.isSome then .error .usage else .ok { o with config := some path }

def setGenConfig (o : Options) : Except Refusal Options :=
  if o.genConfig then .error .usage else .ok { o with genConfig := true }

def setWriteConfig (o : Options) : Except Refusal Options :=
  if o.writeConfig then .error .usage else .ok { o with writeConfig := true }

end Options

/-- What an argument is, by its first characters. -/
inductive Argument where
  /-- A path follows in the next argument. -/
  | configNext
  | config (path : String)
  | genConfig
  | writeConfig
  | help
  /-- The end of the options. -/
  | endOfOptions
  /-- Anything else; the program takes nothing else. -/
  | unknown
  deriving DecidableEq, Repr, Inhabited

/-- The rest of a text behind its beginning. -/
def after? (beginning text : String) : Option String :=
  let b := beginning.toList
  let t := text.toList
  if b.isPrefixOf t then some (.ofList (t.drop b.length)) else none

/-- The path behind a short option; an equals sign in between is left out. -/
def attachedPath (rest : String) : String := (after? "=" rest).getD rest

def Argument.ofText (text : String) : Argument :=
  match text with
  | "--" => endOfOptions
  | "-c" | "--config" => configNext
  | "--gen-config" => genConfig
  | "--write-config" => writeConfig
  | "--help" => help
  | _ =>
    match after? "--config=" text, after? "-c" text, after? "-h" text with
    | some path, _, _ => config path
    | none, some rest, _ => config (attachedPath rest)
    | none, none, some _ => help
    | none, none, none => unknown

/-- Whether an argument can be the path that an option waits for. -/
def isValue (text : String) : Bool := text == "-" || text.toList.head? != some '-'

def readFrom (o : Options) : List String → Except Refusal Options
  | [] => .ok o
  | text :: rest =>
    match Argument.ofText text with
    | .configNext =>
      match rest with
      | [] => .error .usage
      | path :: rest =>
        if isValue path then
          match o.setConfig path with
          | .error e => .error e
          | .ok o => readFrom o rest
        else .error .usage
    | .config path =>
      match o.setConfig path with
      | .error e => .error e
      | .ok o => readFrom o rest
    | .genConfig =>
      match o.setGenConfig with
      | .error e => .error e
      | .ok o => readFrom o rest
    | .writeConfig =>
      match o.setWriteConfig with
      | .error e => .error e
      | .ok o => readFrom o rest
    | .help => .error .help
    | .endOfOptions => if rest.isEmpty then .ok o else .error .usage
    | .unknown => .error .usage

/-! ## Commands -/

/-- What the program is asked to do. -/
inductive Command where
  /-- To print the standard configuration. -/
  | print
  /-- To write the standard configuration to a file. -/
  | write (path : String)
  /-- To run with the configuration in a file. -/
  | run (path : String)
  deriving DecidableEq, Repr, Inhabited

/-- Where the configuration is when nothing is said. -/
def standardPath : String := "gdroid-gateway.toml"

/-- What options ask for. Printing comes before writing. -/
def Command.ofOptions (o : Options) : Command :=
  let path := o.config.getD standardPath
  if o.genConfig then print else if o.writeConfig then write path else run path

/-- **The command in the arguments.** -/
def parse (arguments : List String) : Except Refusal Command :=
  (readFrom .none arguments).map Command.ofOptions

def usageText : String :=
  "Usage: gdroid-gateway [OPTIONS]\n\nOptions:\n" ++
  "  -c, --config <CONFIG>  Path to configuration TOML file [default: gdroid-gateway.toml]\n" ++
  "      --gen-config       Print the default configuration to stdout and exit\n" ++
  "      --write-config     Write the default configuration to the --config path and exit\n" ++
  "  -h, --help             Print help\n"

/-! ## Results -/

/-- How the program ends. -/
structure Result where
  exitCode : Nat
  output : String
  errors : String
  deriving DecidableEq, Repr, Inhabited

namespace Result

def success (output : String) : Result := ⟨0, output, ""⟩

/-- A bad end, whose reason is shown. -/
def failure (reason : String) : Result := ⟨1, "", s!"Error: {reason}\n"⟩

end Result

/-- A fault of the system as the program shows it at its end. -/
def describeFault (f : FileFault) : String :=
  match f.code? with
  | some n => s!"Os \x7b code: {n}, kind: {f.kind}, message: {Text.quote f.description} \x7d"
  | none => s!"Error \x7b kind: {f.kind}, message: {Text.quote f.description} \x7d"

/-- An error as the program shows it at its end. -/
def describeError : GatewayError → String
  | .configuration text => s!"Configuration({Text.quote text})"
  | e => e.message

/-- The result of printing the standard configuration. -/
def printed : Result := .success (GatewayConfig.standardText ++ "\n")

/-- The result of writing it to a file. -/
def wrote (path : String) : Result := .success s!"wrote default configuration to {path}\n"

/-- The configuration that is run: the one in the file, or the standard one if that does not
parse. -/
def configAt (d : Disk) (path : String) : GatewayConfig :=
  (GatewayConfig.load d path).getD .standard

/-- **Carries out a command** on a disk. A gateway that runs is told to stop sooner or later. -/
def execute (d : Disk) (now : Int) : Command → Result × Disk
  | .print => (printed, d)
  | .write path =>
    match GatewayConfig.writeStandard d path with
    | .error e => (.failure (describeFault e), d)
    | .ok d => (wrote path, d)
  | .run path =>
    match Lifecycle.run (configAt d path) now with
    | .error e => (.failure (describeError e), d)
    | .ok () => (.success "", d)

/-- **The whole program**: its arguments and the disk. -/
def program (d : Disk) (now : Int) (arguments : List String) : Result × Disk :=
  match parse arguments with
  | .error e => (⟨e.exitCode, "", ""⟩, d)
  | .ok command => execute d now command

end DeviceGateway.CommandLine
