import DeviceGateway.Install.Installer

/-!
# Packages on the disk

A package is written to a file of its own in a staging directory and moved into the install
directory when it is committed. The staged file carries the name of the package, the number of the
process and a number that is never used twice, so transactions do not meet before they commit.
-/

namespace DeviceGateway

/-- Where packages are staged and installed. -/
structure StagingDirectories where
  staging : String
  install : String
  /-- The number of the process, as it appears in the names of staged files. -/
  process : String
  deriving DecidableEq, Repr, Inhabited

/-- The number of the next transaction. -/
structure StagingCounter where
  next : UInt64
  deriving DecidableEq, Repr, Inhabited

namespace StagingCounter

def new : StagingCounter := ⟨1⟩

def take (c : StagingCounter) : UInt64 × StagingCounter := (c.next, ⟨c.next + 1⟩)

end StagingCounter

/-- A package that is being written. -/
structure StagedPackage where
  staged : String
  target : String
  /-- The number of the open file. -/
  file : Nat
  written : Nat
  deriving DecidableEq, Repr, Inhabited

/-- **The name under which a package is installed**: the last name of what the sender calls it, or
one made up from the number of the transaction. -/
def packageName (label : Option String) (number : UInt64) : String :=
  (label.bind Path.fileName?).getD s!"package-{number.toNat}.apk"

namespace StagingDirectories

def stagedPath (d : StagingDirectories) (name : String) (number : UInt64) : String :=
  Path.join d.staging s!"{name}.{d.process}.{number.toNat}.part"

def targetPath (d : StagingDirectories) (name : String) : String := Path.join d.install name

abbrev Work (α : Type) := Job (Workspace StagingCounter) α

/-- Makes a directory and all above it. -/
def ensure (path : String) : Work (Option FileFault) :=
  Job.ask (Workspace.onDiskPartly (·.makeDirectories path))

/-- Opens the staged file of a package. -/
def stage (d : StagingDirectories) (label : Option String) :
    Work (Except GatewayError StagedPackage) := do
  let number ← Job.atOnce fun w =>
    let (number, counter) := w.installs.take
    (number, { w with installs := counter })
  let name := packageName label number
  let staged := d.stagedPath name number
  match ← Job.ask (Workspace.onDisk (·.openForWriting .empty staged)) with
  | .error e => pure (.error e.toError)
  | .ok file => pure (.ok ⟨staged, d.targetPath name, file, 0⟩)

/-- Begins a transaction: the directories are made first. -/
def begin (d : StagingDirectories) (label : Option String) :
    Work (Except GatewayError StagedPackage) := do
  match ← ensure d.staging with
  | some e => pure (.error e.toError)
  | none =>
    match ← ensure d.install with
    | some e => pure (.error e.toError)
    | none => d.stage label

def write (p : StagedPackage) (data : Bytes) : Work (Except GatewayError StagedPackage) :=
  Job.ask fun w =>
    (.ok { p with written := p.written + data.length },
     { w with disk := w.disk.writeAt p.file p.written data })

def release (p : StagedPackage) (w : Workspace StagingCounter) : Workspace StagingCounter :=
  w.discard p.staged

/-- Waits until the data is on the disk and moves the file to where it belongs. -/
def commit (p : StagedPackage) : Work (Except GatewayError Unit) :=
  Job.guarded (release p) do
    Job.ask fun w => ((), w)
    match ← Job.ask (Workspace.onDisk fun d => (d.rename p.staged p.target).map ((), ·)) with
    | .ok () => pure (.ok ())
    | .error e =>
      Job.change (release p)
      pure (.error e.toError)

/-- **The installer that stages packages on the disk.** -/
def installer (d : StagingDirectories) : Installer StagingCounter StagedPackage where
  begin := d.begin
  write := write
  commit := commit
  release := release

end StagingDirectories

end DeviceGateway
