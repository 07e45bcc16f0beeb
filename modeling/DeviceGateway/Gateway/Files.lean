import DeviceGateway.Install.Installer
import DeviceGateway.Transfer.Framer
import DeviceGateway.Wire.Payload

/-!
# The file methods

What the gateway does on the disk for its callers. Every access to the disk is handed to the system
and blocks the call meanwhile. A path that is not there is reported as such where the method is
about something that should exist; every other refusal is reported in the words of the system.
-/

namespace DeviceGateway.Files

variable {ι α : Type}

abbrev Work (ι α : Type) := Job (Workspace ι) α

abbrev Answer (α : Type) := Except GatewayError α

def look (question : Disk → α) : Work ι α := Job.ask fun w => (question w.disk, w)

/-- A change of the disk that is done wholly or not at all. -/
def change (step : Disk → Except FileFault Disk) : Work ι (Except FileFault Unit) :=
  Job.ask (Workspace.onDisk fun d => (step d).map ((), ·))

def done (text : String) : Answer OperationStatus := .ok ⟨true, text⟩

/-! ## Making and removing -/

/-- **Makes an empty file** unless there is one. -/
def createFile (path : String) : Work ι (Answer OperationStatus) := do
  match ← Job.ask (Workspace.onDisk (·.openForWriting .keep path)) with
  | .error e => pure (.error e.toError)
  | .ok _ => pure (done s!"created {path}")

/-- **Removes a file.** -/
def deleteFile (path : String) : Work ι (Answer OperationStatus) := do
  match ← change (·.removeFile path) with
  | .error e => pure (.error (e.toErrorAt path))
  | .ok () => pure (done s!"deleted {path}")

/-- **Makes a directory** and all that are missing above it. -/
def createDirectory (path : String) : Work ι (Answer OperationStatus) := do
  match ← Job.ask (Workspace.onDiskPartly (·.makeDirectories path)) with
  | some e => pure (.error e.toError)
  | none => pure (done s!"created directory {path}")

/-- **Removes a directory** with all that is in it. -/
def removeDirectory (path : String) : Work ι (Answer OperationStatus) := do
  match ← Job.ask (Workspace.onDiskPartly (·.removeTree path)) with
  | some e => pure (.error (e.toErrorAt path))
  | none => pure (done s!"removed directory {path}")

/-! ## Moving and copying -/

/-- **Moves a file or directory.** A file in the way is replaced. -/
def move (pair : PathPair) : Work ι (Answer OperationStatus) := do
  if ← look (·.pathExists pair.source) then
    match ← change (·.rename pair.source pair.target) with
    | .error e => pure (.error e.toError)
    | .ok () => pure (done s!"{pair.source} -> {pair.target}")
  else pure (.error (.notFound pair.source))

/-- Copies what is known to be there to where nothing is. -/
def copyNode (pair : PathPair) : Node → Work ι (Answer OperationStatus)
  | .directory _ => do
    match ← Job.ask (Workspace.onDiskPartly (·.copyTree pair.source pair.target)) with
    | some e => pure (.error e)
    | none => pure (done s!"copied {pair.source} -> {pair.target}")
  | .file _ => do
    match ← change (·.copyFile pair.source pair.target) with
    | .error e => pure (.error e.toError)
    | .ok () => pure (done s!"copied {pair.source} -> {pair.target}")

/-- **Copies a file or a directory tree.** What exists at the target is left alone. -/
def copy (pair : PathPair) : Work ι (Answer OperationStatus) := do
  match ← look (·.find pair.source) with
  | .error e => pure (.error (e.toErrorAt pair.source))
  | .ok (_, node) =>
    if ← look (·.pathExists pair.target) then pure (done s!"{pair.target} already exists")
    else copyNode pair node

/-! ## Texts -/

/-- Where a text goes in a file. -/
inductive TextMode where
  /-- It takes the place of what was there. -/
  | replace
  /-- It goes behind what was there. -/
  | append
  deriving DecidableEq, Repr, Inhabited

namespace TextMode

def openMode : TextMode → Disk.OpenMode
  | replace => .empty
  | append => .keep

/-- What is done, as the acknowledgement says it. -/
def verb : TextMode → String
  | replace => "wrote"
  | append => "appended"

/-- Puts data into an open file; no data leaves it as it is. -/
def put (mode : TextMode) (d : Disk) (file : Nat) (data : Bytes) : Disk :=
  if data.isEmpty then d
  else match mode with
    | replace => d.writeAt file 0 data
    | append => d.append file data

end TextMode

/-- **Writes a text to a file**, the file made if it is missing. -/
def writeText (mode : TextMode) (r : TextRequest) : Work ι (Answer OperationStatus) := do
  let data := Text.Utf8.encode r.text
  match ← Job.ask (Workspace.onDisk (·.openForWriting mode.openMode r.path)) with
  | .error e => pure (.error e.toError)
  | .ok file =>
    Job.ask fun w => ((), { w with disk := mode.put w.disk file data })
    pure (done s!"{mode.verb} {data.length} bytes to {r.path}")

/-- A file whose text is asked for has fewer octets. -/
def textLimit : Nat := 1048576

/-- The octets of a node as the system counts them; a directory counts as small. -/
def nodeSize (d : Disk) : Node → Nat
  | .directory _ => 0
  | .file n => (d.body n).data.length

/-- **Reads a file as text.** What is not text in it is replaced. -/
def readText (path : String) : Work ι (Answer TextReply) := do
  match ← look fun d => (d.find path).map fun (_, node) => nodeSize d node with
  | .error e => pure (.error (e.toErrorAt path))
  | .ok size =>
    if textLimit ≤ size then pure (.error (.other s!"file too large: {path} ({size} bytes)"))
    else match ← look (·.fileData path) with
      | .error e => pure (.error e.toError)
      | .ok data => pure (.ok ⟨Text.Utf8.decodeLossy data⟩)

/-! ## Directories -/

/-- Whether an entry is left out unless it is asked for. -/
def isHidden (name : String) : Bool := name.toList.head? == some '.'

/-- An entry of a directory, as a reply shows it. Times are cut to whole seconds. -/
def entryOf (dir : String) (i : Disk.EntryInfo) : DirEntry :=
  { name := i.name, path := Path.join dir i.name, size := UInt64.ofNat i.size
    isDirectory := i.isDirectory, modified := UInt64.ofNat (i.modified.toNat / 1000000000) }

/-- The entries of a directory, as a reply shows them: in the order of their names. -/
def listing (dir : String) (includeHidden : Bool) (entries : List Disk.EntryInfo) : DirListing :=
  let shown := entries.filter fun i => includeHidden || !isHidden i.name
  ⟨(shown.map (entryOf dir)).mergeSort fun a b => a.name ≤ b.name⟩

/-- **Lists a directory.** -/
def listDirectory (path : String) (includeHidden : Bool) : Work ι (Answer DirListing) := do
  match ← look (·.readDirectory path) with
  | .error e => pure (.error (e.toErrorAt path))
  | .ok entries => pure (.ok (listing path includeHidden entries))

/-! ## Downloads -/

/-- A file that is open for reading. -/
structure OpenFile where
  number : Nat
  /-- Where the next read starts. -/
  offset : Nat
  deriving DecidableEq, Repr, Inhabited

namespace OpenFile

def read (d : Disk) (limit : Nat) (f : OpenFile) : Bytes × OpenFile :=
  let data := ((d.body f.number).data.drop f.offset).take limit
  (data, { f with offset := f.offset + data.length })

end OpenFile

/-- A file on its way to a caller. -/
abbrev Download := Transfer.Framer OpenFile

/-- **Opens a file for a download** that declares its length. -/
def openDownload (path : String) : Work ι (Answer Download) := do
  match ← look (·.find path) with
  | .error e => pure (.error (e.toErrorAt path))
  | .ok (_, .directory _) => pure (.error (.other s!"not a regular file: {path}"))
  | .ok (_, .file n) =>
    let size ← look fun d => (d.body n).data.length
    pure (.ok (.new (some (UInt64.ofNat size)) ⟨n, 0⟩))

/-- **The next message of a download**, or its end. -/
def nextMessage (f : Download) : Work ι (Answer (Option Bytes) × Download) :=
  look fun d => f.step fun file =>
    let (data, file) := file.read d Transfer.chunkSize
    (.ok data, file)

end DeviceGateway.Files
