import DeviceGateway.Install.Installer
import DeviceGateway.Wire.Payload

/-!
# Upload sessions

A session takes the chunks of one upload. The first chunk opens the place that the data goes to: a
new file at the path that the chunk names, or a transaction of an installer. The data of every
chunk is appended there. Finishing keeps the file or commits the transaction; every failure gives up
what was opened, and so does letting a session go before it has finished.
-/

namespace DeviceGateway.Upload

/-- What becomes of the data. -/
inductive Mode where
  /-- It is saved to the path that the first chunk names. -/
  | save
  /-- It is installed as a package. -/
  | install
  deriving DecidableEq, Repr, Inhabited

/-- How far a session has got. -/
inductive State where
  | idle
  | receiving
  | succeeded
  | failed (message : String)
  deriving DecidableEq, Repr, Inhabited

/-- Where the data goes. -/
inductive Sink (τ : Type) where
  /-- An open file, known by the path that it was made at and by its number. -/
  | file (path : String) (number written : Nat)
  | package (transaction : τ)
  deriving DecidableEq, Repr

/-- A finished upload. -/
structure Outcome where
  mode : Mode
  destination : Option String
  bytesWritten : Nat
  chunks : Nat
  deriving DecidableEq, Repr, Inhabited

/-- **A session.** -/
structure Session (τ : Type) where
  mode : Mode
  destination : Option String
  sink : Option (Sink τ)
  state : State
  bytesWritten : Nat
  chunks : Nat
  deriving DecidableEq, Repr

variable {ι τ : Type}

/-- Work on the disk and an installer. -/
abbrev Work (ι α : Type) := Job (Workspace ι) α

/-! ## Sinks -/

/-- The error of a step that opens a file. -/
def fileError (action path : String) (e : FileFault) : GatewayError :=
  .io s!"{action} failed for {path}: {e.message}"

namespace Sink

/-- Makes an empty file in place of whatever is at a path. -/
def replaceFile (path : String) : Work ι (Except GatewayError (Sink τ)) := do
  let removed ← if ← Job.ask fun w => (w.disk.pathExists path, w) then
      Job.ask (Workspace.onDisk fun d => (d.removeFile path).map ((), ·))
    else pure (.ok ())
  match removed with
  | .error e => pure (.error (fileError "delete previous file" path e))
  | .ok () =>
    match ← Job.ask (Workspace.onDisk (·.openForWriting .new path)) with
    | .error e => pure (.error (fileError "create new file" path e))
    | .ok number => pure (.ok (.file path number 0))

def release (i : Installer ι τ) : Sink τ → Workspace ι → Workspace ι
  | .file path _ _, w => w.discard path
  | .package t, w => i.release t w

def write (i : Installer ι τ) (s : Sink τ) (data : Bytes) :
    Work ι (Except GatewayError (Sink τ)) :=
  match s with
  | .file path number written => Job.ask fun w =>
    (.ok (.file path number (written + data.length)),
     { w with disk := w.disk.writeAt number written data })
  | .package t => do
    match ← i.write t data with
    | .ok t => pure (.ok (.package t))
    | .error e => pure (.error e)

/-- Keeps the file, once it is on the disk, or commits the transaction. -/
def close (i : Installer ι τ) : Sink τ → Work ι (Except GatewayError Unit)
  | .file path _ _ => Job.guarded (·.discard path) do
    Job.ask fun w => ((), w)
    pure (.ok ())
  | .package t => i.commit t

end Sink

/-! ## Sessions -/

namespace Session

def new (mode : Mode) : Session τ := ⟨mode, none, none, .idle, 0, 0⟩

/-- Gives up what the session has opened. -/
def release (i : Installer ι τ) (s : Session τ) (w : Workspace ι) : Workspace ι :=
  match s.sink with
  | some sink => sink.release i w
  | none => w

/-- The session fails, and gives up what it has opened. -/
def fail (i : Installer ι τ) (s : Session τ) (e : GatewayError) :
    Work ι (Except GatewayError Unit × Session τ) := do
  Job.change (s.release i)
  pure (.error e, { s with state := .failed e.message, sink := none })

/-- Opens the place that the data goes to, and says what it is called. -/
def openSink (i : Installer ι τ) (mode : Mode) (path : Option String) :
    Work ι (Except GatewayError (Option String × Sink τ)) :=
  match mode, path with
  | .save, none => pure (.error (.protocol "first upload chunk carries no destination path"))
  | .save, some path =>
    if path = "" then pure (.error (.protocol "upload path is empty"))
    else do
      match ← Sink.replaceFile path with
      | .error e => pure (.error e)
      | .ok sink => pure (.ok (some path, sink))
  | .install, path => do
    let label := path.filter (· ≠ "")
    match ← i.begin label with
    | .error e => pure (.error e)
    | .ok t => pure (.ok (label, .package t))

def take (i : Installer ι τ) (s : Session τ) (data : Bytes) :
    Work ι (Except GatewayError Unit × Session τ) :=
  if data.isEmpty then pure (.ok (), { s with chunks := s.chunks + 1 })
  else match s.sink with
    | none => s.fail i (.protocol "upload sink is not open")
    | some sink => do
      match ← (sink.write i data).guarded (sink.release i) with
      | .error e => s.fail i e
      | .ok sink =>
        pure (.ok (), { s with sink := some sink, bytesWritten := s.bytesWritten + data.length
                               chunks := s.chunks + 1 })

/-- **One chunk.** -/
def accept (i : Installer ι τ) (s : Session τ) (c : UploadChunk) :
    Work ι (Except GatewayError Unit × Session τ) :=
  match s.state with
  | .idle => do
    match ← openSink i s.mode c.path with
    | .error e => s.fail i e
    | .ok (destination, sink) =>
      let opened := { s with state := .receiving, destination, sink := some sink }
      opened.take i c.data
  | .receiving => s.take i c.data
  | .succeeded | .failed _ =>
    pure (.error (.protocol "upload session is no longer receiving"), s)

/-- **The end of the chunks.** The session is used up. -/
def finish (i : Installer ι τ) (s : Session τ) : Work ι (Except GatewayError Outcome) :=
  match s.state with
  | .idle => pure (.error (.protocol "upload stream ended before any chunk arrived"))
  | .failed message => pure (.error (.other message))
  | .succeeded => pure (.error (.protocol "upload session already finished"))
  | .receiving =>
    match s.sink with
    | none => pure (.error (.protocol "upload sink is not open"))
    | some sink => do
      match ← sink.close i with
      | .error e => pure (.error e)
      | .ok () => pure (.ok ⟨s.mode, s.destination, s.bytesWritten, s.chunks⟩)

/-- One message of the caller: a chunk in its wire form. -/
def acceptMessage (i : Installer ι τ) (s : Session τ) (m : Bytes) :
    Work ι (Except GatewayError Unit × Session τ) :=
  match (Payload.ofBytes m : Except GatewayError UploadChunk) with
  | .error e => pure (.error e, s)
  | .ok c => s.accept i c

/-- **A whole upload** from the messages of the caller. The session is used up. -/
def consume (i : Installer ι τ) (s : Session τ) : List Bytes → Work ι (Except GatewayError Outcome)
  | [] => s.finish i
  | m :: rest => do
    match ← s.acceptMessage i m with
    | (.ok (), s) => s.consume i rest
    | (.error e, s) =>
      Job.change (s.release i)
      pure (.error e)

end Session

end DeviceGateway.Upload
