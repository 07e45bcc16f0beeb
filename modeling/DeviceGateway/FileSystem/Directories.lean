import DeviceGateway.FileSystem.Files

/-!
# Directories on the disk

Making, removing, renaming and listing. Making a chain of directories and removing a tree are done
in steps, and a step that is refused does not undo the ones before it; all other operations leave
the disk as it was when they are refused.
-/

namespace DeviceGateway.Disk

/-! ## Making -/

/-- **Makes one directory.** -/
def makeDirectory (d : Disk) (path : String) : Except FileFault Disk :=
  match d.locate path with
  | .error e => .error e
  | .ok t =>
    match t.last with
    | .name _ =>
      match d.look t with
      | .error e => .error e
      | .ok (_, some _) => .error .occupied
      | .ok (place, none) => .ok (d.put place (.directory d.clock))
    | _ => .error .occupied

/-- The paths that have to be made, nearest to the root first, and the disk on which a directory
above them is there. -/
def missingDirectories (d : Disk) :
    List String → List String → Except FileFault (List String × Disk)
  | found, [] => .ok (found, d)
  | found, path :: above =>
    match d.makeDirectory path with
    | .ok d => .ok (found, d)
    | .error .missing => missingDirectories d (path :: found) above
    | .error .occupied => if d.isDirectory path then .ok (found, d) else .error .occupied
    | .error e => .error e

/-- Makes directories one after the other, up to the first that is refused. -/
def makeInOrder (d : Disk) : List String → Option FileFault × Disk
  | [] => (none, d)
  | path :: rest =>
    match d.makeDirectory path with
    | .ok d => makeInOrder d rest
    | .error e =>
      if e = .occupied ∧ d.isDirectory path then makeInOrder d rest else (some e, d)

/-- **Makes a directory and all that are missing above it.** -/
def makeDirectories (d : Disk) (path : String) : Option FileFault × Disk :=
  if path = "" then (none, d)
  else match d.missingDirectories [] (path :: Path.above path) with
    | .error e => (some e, d)
    | .ok (paths, d) => d.makeInOrder paths

/-! ## Removing -/

/-- Takes away all that stands below a place. -/
def clear (d : Disk) (place : Place) : Disk :=
  { d with nodes := d.nodes.filter fun (p, _) => !(place.isPrefixOf p && p != place) }

/-- Removes a directory that must be empty. -/
def removeEmpty (d : Disk) (path : String) : Except FileFault Disk :=
  match d.locate path with
  | .error e => .error e
  | .ok t =>
    match t.last with
    | .root => .error .busy
    | .same => .error .invalid
    | .up => .error .notEmpty
    | .name _ =>
      match d.look t with
      | .error e => .error e
      | .ok (_, none) => .error .missing
      | .ok (_, some (.file _)) => .error .notDirectory
      | .ok (place, some (.directory _)) =>
        if (d.childrenAt place).isEmpty then .ok (d.erase place) else .error .notEmpty

/-- **Removes a directory with all that is in it**: first the contents, then the directory. -/
def removeTree (d : Disk) (path : String) : Option FileFault × Disk :=
  match d.find path with
  | .error e => (some e, d)
  | .ok (_, .file _) => (some .notDirectory, d)
  | .ok (place, .directory _) =>
    let cleared := d.clear place
    match cleared.removeEmpty path with
    | .ok d => (none, d)
    | .error .missing => (none, cleared)
    | .error e => (some e, cleared)

/-! ## Renaming -/

/-- The place of something below or at a place after that place has moved. -/
def relocate (source target place : Place) : Place :=
  if source.isPrefixOf place then target ++ place.drop source.length else place

/-- Moves what stands at a place, and all below it. -/
def moveTree (d : Disk) (source target : Place) : Disk :=
  let freed := d.nodes.filter (·.1 != target)
  { d with nodes := freed.map fun (p, n) => (relocate source target p, n)
           here := relocate source target d.here }

/-- Whether a node may take the place of another one. -/
def mayReplace (d : Disk) (place : Place) : Node → Option Node → Option FileFault
  | _, none => none
  | .directory _, some (.file _) => some .notDirectory
  | .file _, some (.directory _) => some .isDirectory
  | .directory _, some (.directory _) =>
    if (d.childrenAt place).isEmpty then none else some .notEmpty
  | .file _, some (.file _) => none

/-- **Renames a file or directory.** A file or an empty directory in the way is replaced. -/
def rename (d : Disk) (source target : String) : Except FileFault Disk :=
  match d.locate source, d.locate target with
  | .error e, _ | .ok _, .error e => .error e
  | .ok s, .ok t =>
    match s.last, t.last with
    | .name _, .name _ =>
      match d.look s, d.look t with
      | .error e, _ | .ok (_, some _), .error e => .error e
      | .ok (_, none), _ => .error .missing
      | .ok (old, some node), .ok (new, there) =>
        let isFile := match node with
          | .file _ => true
          | .directory _ => false
        if isFile && (s.slash || t.slash) then .error .notDirectory
        else if old.isPrefixOf t.dir then .error .invalid
        else if new.isPrefixOf s.dir then .error .notEmpty
        else if old = new then .ok d
        else match d.mayReplace new node there with
          | some e => .error e
          | none => .ok (d.moveTree old new)
    | _, _ => .error .busy

/-! ## Listing -/

/-- What a directory listing says of one entry. -/
structure EntryInfo where
  name : String
  size : Nat
  isDirectory : Bool
  modified : Int
  deriving DecidableEq, Repr, Inhabited

/-- What is known of a node under a name. -/
def info (d : Disk) (name : String) : Node → EntryInfo
  | .directory m => ⟨name, 0, true, m⟩
  | .file n => ⟨name, (d.body n).data.length, false, (d.body n).modified⟩

/-- **The entries of the directory that a path names**, in no particular order. -/
def readDirectory (d : Disk) (path : String) : Except FileFault (List EntryInfo) :=
  match d.find path with
  | .error e => .error e
  | .ok (_, .file _) => .error .notDirectory
  | .ok (place, .directory _) => .ok ((d.childrenAt place).map fun (name, node) => d.info name node)

/-- **All that stands below a place**, each by its path from there, sorted by path: the data of
a file, and nothing for a directory. -/
def treeAt (d : Disk) (place : Place) : List (String × Option Bytes) :=
  let below := d.nodes.filterMap fun (p, n) =>
    if place.isPrefixOf p && p != place then
      some ("/".intercalate (p.drop place.length), match n with
        | .directory _ => none
        | .file k => some (d.body k).data)
    else none
  below.mergeSort fun a b => a.1 ≤ b.1

/-- **The working directory**, and all below it. -/
def tree (d : Disk) : List (String × Option Bytes) := d.treeAt d.here

/-- A disk with nothing but a working directory, at a time in seconds since the epoch. -/
def ofClock (seconds : Int) : Disk :=
  { nodes := [(["work"], .directory (seconds * 1000000000))], bodies := [], here := ["work"]
    clock := seconds * 1000000000 }

end DeviceGateway.Disk
