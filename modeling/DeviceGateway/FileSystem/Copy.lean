import DeviceGateway.FileSystem.Directories

/-!
# Copying a directory

A copy lists the source first and then makes what it has listed below the target, directories
before files. A file that is there already is never overwritten.
-/

namespace DeviceGateway.Disk

/-- What a listing of a tree holds: directories before what is in them, and files. -/
structure TreeListing where
  directories : List String
  files : List String
  deriving DecidableEq, Repr, Inhabited

/-- All that stands below a place, each behind the path by which the place is known. -/
def listTree (d : Disk) (path : String) (place : Place) : TreeListing :=
  let below := d.nodes.filterMap fun (p, n) =>
    if place.isPrefixOf p && p != place then some ((p.drop place.length), n) else none
  let sorted := below.mergeSort fun a b => "/".intercalate a.1 ≤ "/".intercalate b.1
  let path' (p : Place) : String := p.foldl Path.join path
  { directories := path :: sorted.filterMap fun (p, n) => match n with
      | .directory _ => some (path' p)
      | .file _ => none
    files := sorted.filterMap fun (p, n) => match n with
      | .directory _ => none
      | .file _ => some (path' p) }

abbrev CopyFault := String

/-- The path below the target that stands for one below the source. -/
def counterpart (source target path : String) : String :=
  Path.join target ("/".intercalate ((Path.components path).drop (Path.components source).length))

/-- Makes the directories of a copy that are not there. -/
def copyDirectories (d : Disk) (source target : String) : List String → Option CopyFault × Disk
  | [] => (none, d)
  | path :: rest =>
    let made := counterpart source target path
    if d.pathExists made then copyDirectories d source target rest
    else match d.makeDirectory made with
      | .ok d => copyDirectories d source target rest
      | .error e => (some e.message, d)

def copyFiles (d : Disk) (source target : String) : List String → Option CopyFault × Disk
  | [] => (none, d)
  | path :: rest =>
    let made := counterpart source target path
    if !d.pathExists path then
      (some s!"Path \"{path}\" does not exist or you don't have access!", d)
    else if d.isDirectory path then (some s!"Path \"{path}\" is not a file!", d)
    else if d.pathExists made then (some s!"Path \"{made}\" exists", d)
    else match d.copyFile path made with
      | .ok d => copyFiles d source target rest
      | .error e => (some e.message, d)

/-- **Copies what is in a directory into another one**, which must be there. -/
def copyContents (d : Disk) (source target : String) : Option CopyFault × Disk :=
  match d.find source with
  | .error _ => (some s!"Path \"{source}\" does not exist or you don't have access!", d)
  | .ok (_, .file _) => (some s!"Path \"{source}\" is not a directory!", d)
  | .ok (place, .directory _) =>
    let listing := d.listTree source place
    match d.copyDirectories source target listing.directories with
    | (some e, d) => (some e, d)
    | (none, d) => d.copyFiles source target listing.files

/-- **Copies a directory tree**, the target made first. -/
def copyTree (d : Disk) (source target : String) : Option GatewayError × Disk :=
  match d.makeDirectories target with
  | (some e, d) => (some e.toError, d)
  | (none, d) =>
    match d.copyContents source target with
    | (some e, d) => (some (.other s!"copy {source} failed: {e}"), d)
    | (none, d) => (none, d)

end DeviceGateway.Disk
