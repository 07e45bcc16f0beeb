import DeviceGateway.Bytes
import DeviceGateway.FileSystem.Path
import DeviceGateway.FileSystem.Fault

/-!
# The disk

A disk is a table of places. A place is a list of names, read from the root; what stands there is a
directory or the number of a file. The files themselves are kept apart under their numbers, because
an open file stays what it is when its name is taken away or given to another one. Numbers are
never used twice.

Paths are walked name by name, as the system does it: every step but the last must find a
directory, a name has at most 255 octets, and a path fewer than 4096. There are no links, so the
directory above a place is the place without its last name.
-/

namespace DeviceGateway

/-- Where something stands: the names from the root on. -/
abbrev Place := List String

/-- What stands at a place. -/
inductive Node where
  | directory (modified : Int)
  | file (number : Nat)
  deriving DecidableEq, Repr, Inhabited

/-- What a file holds, and when it was written last, in nanoseconds since the epoch. -/
structure FileBody where
  data : Bytes
  modified : Int
  deriving DecidableEq, Repr, Inhabited

/-- **A disk**, as it is seen from a working directory. -/
structure Disk where
  nodes : List (Place × Node)
  /-- The files ever made, each at its number. -/
  bodies : List FileBody
  here : Place
  /-- The time, in nanoseconds since the epoch. -/
  clock : Int
  deriving DecidableEq, Repr, Inhabited

namespace Disk

/-- What stands at a place. The root is always there. -/
def node? (d : Disk) (place : Place) : Option Node :=
  if place = [] then some (.directory d.clock) else d.nodes.lookup place

/-- What the file with a number holds. -/
def body (d : Disk) (number : Nat) : FileBody := d.bodies.getD number ⟨[], 0⟩

/-- What the file at a place holds. -/
def content? (d : Disk) (place : Place) : Option Bytes :=
  match d.node? place with
  | some (.file n) => some (d.body n).data
  | _ => none

/-! ## Walking a path -/

/-- The most octets of a name. -/
def maxName : Nat := 255

/-- Every path has fewer octets. -/
def maxPath : Nat := 4096

/-- What stands under a name in a directory. -/
def child (d : Disk) (dir : Place) (name : String) : Except FileFault (Place × Option Node) :=
  if maxName < name.utf8ByteSize then .error .nameTooLong
  else .ok (dir ++ [name], d.node? (dir ++ [name]))

/-- **Walks from a directory along names**, each of which must lead to a directory. -/
def walk (d : Disk) : Place → List String → Except FileFault Place
  | dir, [] => .ok dir
  | dir, "." :: rest => walk d dir rest
  | dir, ".." :: rest => walk d dir.dropLast rest
  | dir, name :: rest =>
    match d.child dir name with
    | .error e => .error e
    | .ok (_, none) => .error .missing
    | .ok (_, some (.file _)) => .error .notDirectory
    | .ok (place, some (.directory _)) => walk d place rest

/-- The last part of a path. -/
inductive LastPart where
  /-- The path is the root. -/
  | root
  | same
  | up
  | name (name : String)
  deriving DecidableEq, Repr, Inhabited

namespace LastPart

def ofSegment? : Option String → LastPart
  | none => root
  | some "." => same
  | some ".." => up
  | some n => name n

end LastPart

/-- Where a path leads: a directory, and what the last part says there. -/
structure Target where
  dir : Place
  last : LastPart
  /-- Whether a slash follows the last part. -/
  slash : Bool
  deriving DecidableEq, Repr, Inhabited

/-- **Walks a path up to its last part.** -/
def locate (d : Disk) (path : String) : Except FileFault Target :=
  if path.toList.contains '\x00' then .error .nulInPath
  else if path = "" then .error .missing
  else if maxPath ≤ path.utf8ByteSize then .error .nameTooLong
  else
    let parts := (Path.segments path).filter (· != "")
    match d.walk (if Path.isAbsolute path then [] else d.here) parts.dropLast with
    | .error e => .error e
    | .ok dir =>
      match d.node? dir with
      | some (.directory _) => .ok ⟨dir, .ofSegment? parts.getLast?, Path.endsInSlash path⟩
      | _ => .error .missing

def look (d : Disk) (t : Target) : Except FileFault (Place × Option Node) :=
  match t.last with
  | .name n => d.child t.dir n
  | .same => .ok (t.dir, d.node? t.dir)
  | .up => .ok (t.dir.dropLast, d.node? t.dir.dropLast)
  | .root => .ok ([], d.node? [])

/-- **What a path names.** A slash at the end asks for a directory. -/
def find (d : Disk) (path : String) : Except FileFault (Place × Node) :=
  match d.locate path with
  | .error e => .error e
  | .ok t =>
    match d.look t with
    | .error e => .error e
    | .ok (_, none) => .error .missing
    | .ok (place, some (.file n)) => if t.slash then .error .notDirectory else .ok (place, .file n)
    | .ok (place, some (.directory m)) => .ok (place, .directory m)

def pathExists (d : Disk) (path : String) : Bool := (d.find path).toOption.isSome

def isDirectory (d : Disk) (path : String) : Bool :=
  match d.find path with
  | .ok (_, .directory _) => true
  | _ => false

/-! ## Changing places -/

def put (d : Disk) (place : Place) (node : Node) : Disk :=
  { d with nodes := d.nodes.filter (·.1 != place) ++ [(place, node)] }

/-- Takes away what is at a place. -/
def erase (d : Disk) (place : Place) : Disk := { d with nodes := d.nodes.filter (·.1 != place) }

def modifyBody (d : Disk) (number : Nat) (f : FileBody → FileBody) : Disk :=
  { d with bodies := d.bodies.modify number f }

/-- What stands in a directory, by name. -/
def childrenAt (d : Disk) (dir : Place) : List (String × Node) :=
  d.nodes.filterMap fun (place, node) =>
    match place.getLast? with
    | some name => if place.dropLast = dir then some (name, node) else none
    | none => none

end Disk

end DeviceGateway
