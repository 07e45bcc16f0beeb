import DeviceGateway.FileSystem.Copy
import DeviceGateway.Job

/-!
# Installers

An installer takes packages in transactions: a transaction is begun, data is written to it, and it
is committed. A transaction that is given up before that is released, and then nothing of it stays.
Installers work on the disk and on what they remember themselves.
-/

namespace DeviceGateway

/-- The disk, and what an installer remembers. -/
structure Workspace (ι : Type) where
  disk : Disk
  installs : ι
  deriving DecidableEq, Repr, Inhabited

namespace Workspace

variable {ι α : Type}

/-- A step on the disk that changes nothing when it is refused. -/
def onDisk (step : Disk → Except FileFault (α × Disk)) (w : Workspace ι) :
    Except FileFault α × Workspace ι :=
  match step w.disk with
  | .ok (answer, disk) => (.ok answer, { w with disk })
  | .error e => (.error e, w)

/-- A step on the disk that may have done some of its work when it fails. -/
def onDiskPartly (step : Disk → α × Disk) (w : Workspace ι) : α × Workspace ι :=
  let (answer, disk) := step w.disk
  (answer, { w with disk })

/-- Removes the name of a file if there is one. -/
def discard (path : String) (w : Workspace ι) : Workspace ι :=
  { w with disk := w.disk.discard path }

end Workspace

/-- **An installer** whose transactions are values of `τ`. -/
structure Installer (ι τ : Type) where
  /-- Begins a transaction, with what the sender calls the package. -/
  begin (label : Option String) : Job (Workspace ι) (Except GatewayError τ)
  write (transaction : τ) (data : Bytes) : Job (Workspace ι) (Except GatewayError τ)
  /-- Commits a transaction, or gives it up. -/
  commit (transaction : τ) : Job (Workspace ι) (Except GatewayError Unit)
  release (transaction : τ) (w : Workspace ι) : Workspace ι

end DeviceGateway
