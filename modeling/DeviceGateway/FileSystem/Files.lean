import DeviceGateway.FileSystem.Disk
import DeviceGateway.Text.Utf8

/-!
# Files on the disk

Opening, reading, writing and removing files. An operation that is refused leaves the disk as it
was. An open file is known by its number, so writing through it does not look at any path.
-/

namespace DeviceGateway.Disk

/-- What is asked of a path that is opened for writing. -/
inductive OpenMode where
  /-- There must be nothing yet. -/
  | new
  /-- The file is made if it is missing, and kept as it is otherwise. -/
  | keep
  /-- The file is made if it is missing, and emptied otherwise. -/
  | empty
  deriving DecidableEq, Repr, Inhabited

/-- Makes an empty file at a place. -/
def makeFile (d : Disk) (place : Place) : Nat × Disk :=
  (d.bodies.length,
    { d.put place (.file d.bodies.length) with bodies := d.bodies ++ [⟨[], d.clock⟩] })

/-- **Opens a path for writing**: the number of the file. -/
def openForWriting (d : Disk) (mode : OpenMode) (path : String) : Except FileFault (Nat × Disk) :=
  match d.locate path with
  | .error e => .error e
  | .ok t =>
    if t.slash then .error .isDirectory
    else match d.look t with
      | .error e => .error e
      | .ok (place, none) => .ok (d.makeFile place)
      | .ok (_, some node) =>
        match mode, node with
        | .new, _ => .error .occupied
        | _, .directory _ => .error .isDirectory
        | .keep, .file n => .ok (n, d)
        | .empty, .file n => .ok (n, d.modifyBody n fun _ => ⟨[], d.clock⟩)

/-- Data behind, over and in front of what was there; a gap is filled with zeros. -/
def splice (old : Bytes) (offset : Nat) (data : Bytes) : Bytes :=
  old.take offset ++ List.replicate (offset - old.length) 0 ++ data ++
    old.drop (offset + data.length)

/-- **Writes into an open file** from an offset on. -/
def writeAt (d : Disk) (number offset : Nat) (data : Bytes) : Disk :=
  d.modifyBody number fun b => ⟨splice b.data offset data, d.clock⟩

/-- Writes behind the end of an open file. -/
def append (d : Disk) (number : Nat) (data : Bytes) : Disk :=
  d.modifyBody number fun b => ⟨b.data ++ data, d.clock⟩

/-- **What the file that a path names holds.** -/
def fileData (d : Disk) (path : String) : Except FileFault Bytes :=
  match d.find path with
  | .error e => .error e
  | .ok (_, .directory _) => .error .isDirectory
  | .ok (_, .file n) => .ok (d.body n).data

/-- **Makes a file hold some data**, the file made if it is missing. -/
def storeData (d : Disk) (path : String) (data : Bytes) : Except FileFault Disk :=
  match d.openForWriting .empty path with
  | .error e => .error e
  | .ok (n, d) => .ok (d.writeAt n 0 data)

/-- **Removes the name of a file.** -/
def removeFile (d : Disk) (path : String) : Except FileFault Disk :=
  match d.locate path with
  | .error e => .error e
  | .ok t =>
    match t.last with
    | .name _ =>
      match d.look t with
      | .error e => .error e
      | .ok (_, none) => .error .missing
      | .ok (_, some (.directory _)) => .error .isDirectory
      | .ok (place, some (.file _)) => if t.slash then .error .notDirectory else .ok (d.erase place)
    | _ => .error .isDirectory

/-- Removes the name of a file if there is one, as a guard does that nobody listens to. -/
def discard (d : Disk) (path : String) : Disk := (d.removeFile path).toOption.getD d

/-- **Copies a file**, the copy made if it is missing and overwritten otherwise. -/
def copyFile (d : Disk) (source target : String) : Except FileFault Disk :=
  match d.fileData source with
  | .error e => .error e
  | .ok data => d.storeData target data

/-- Sets when the file at a path was written last, to the second. -/
def setModified (d : Disk) (path : String) (seconds : Int) : Disk :=
  match d.find path with
  | .ok (_, .file n) => d.modifyBody n fun b => { b with modified := seconds * 1000000000 }
  | _ => d

end DeviceGateway.Disk
