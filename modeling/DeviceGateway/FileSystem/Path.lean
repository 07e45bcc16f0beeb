import DeviceGateway.Error
import DeviceGateway.Text.Quoted

/-!
# Paths

A path is a text whose parts are separated by slashes. What a path names does not depend on empty
parts and on parts that are a single dot. The functions here look at the text alone and never ask
what is on the disk.
-/

namespace DeviceGateway.Path

/-- The parts of a path between its slashes, empty ones included. -/
def segments (p : String) : List String := (p.toList.splitOn '/').map String.ofList

/-- Whether a path starts at the root. -/
def isAbsolute (p : String) : Bool := p.toList.head? == some '/'

/-- Whether a path ends with a slash. -/
def endsInSlash (p : String) : Bool := p.toList.getLast? == some '/'

def isName (segment : String) : Bool := segment != "" && segment != "."

/-- The parts of a path that name something. -/
def names (p : String) : List String := (segments p).filter isName

/-- **The last name of a path**; the way up is no name. -/
def fileName? (p : String) : Option String :=
  match (names p).getLast? with
  | some ".." => none
  | last => last

/-- **The path of something in a directory.** A path that starts at the root stays as it is. -/
def join (dir path : String) : String :=
  if isAbsolute path then path
  else if dir = "" ∨ endsInSlash dir then dir ++ path
  else dir ++ "/" ++ path

/-! ## The way up -/

/-- The names of a path, behind a dot if the path starts with one. -/
def components (p : String) : List String :=
  match segments p with
  | "." :: rest => "." :: rest.filter isName
  | parts => parts.filter isName

/-- The paths of the directories above a path, nearest first, as far as the path spells them. -/
def above (p : String) : List String :=
  let parts := components p
  let root := isAbsolute p
  let lengths := (List.range parts.length).reverse.filter fun n => root || 0 < n
  lengths.map fun n => (if root then "/" else "") ++ "/".intercalate (parts.take n)

/-! ## Confinement -/

/-- **A requested path below a root.** The request is read as if the root were the root of all
paths; a request that goes up is refused. -/
def resolveUnder (root requested : String) : Except GatewayError String :=
  if (segments requested).contains ".." then
    .error (.protocol ("path " ++ Text.quote requested ++ " leaves the media root"))
  else .ok ((names requested).foldl join root)

end DeviceGateway.Path
