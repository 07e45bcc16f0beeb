import DeviceGateway.Call.Context
import DeviceGateway.Call.Task
import DeviceGateway.Config.Basic
import DeviceGateway.Gateway.Catalogue
import DeviceGateway.Gateway.Files
import DeviceGateway.Install.Staging
import DeviceGateway.Provider
import DeviceGateway.Upload.Session

/-!
# The handlers of the gateway

What the gateway does with a call, group by group. Uploads and installations read the messages of
their caller; downloads send many messages; every other method does its work and sends one reply.
The groups that the gateway cannot answer itself are forwarded to the provider.

All of them together are one machine, `Gateway.handler`. A call whose service or method does not
exist never reaches it.
-/

namespace DeviceGateway

/-- What the handlers work on: the disk, and the number of the next installation. -/
abbrev GatewayWorld := Workspace StagingCounter

/-- **A provider**: what it answers to a group, a method and parameters. Without an answer it never
comes back. -/
abbrev Provider := String → String → Json → Option (Except GatewayError Json)

/-- **A gateway**, as far as its handlers know it. -/
structure Gateway where
  mediaRoot : String
  staging : StagingDirectories
  provider : Provider
  /-- How long the provider may take. -/
  providerTimeout : Duration

/-- Where the handler of a call stands. -/
inductive HandlerState where
  /-- A reply waits to be sent. -/
  | replying (reply : Bytes)
  | uploading (session : Upload.Session StagedPackage)
  /-- A message of a download waits to be sent. -/
  | downloading (download : Files.Download) (message : Bytes)
  /-- The provider has been asked. -/
  | asking (group method : String) (params : Json)
  | ending (result : Except GatewayError Unit)

namespace Gateway

abbrev Work (α : Type) := Job GatewayWorld α

/-! ## Requests and replies -/

/-- Goes on with the request, if it decodes. -/
def withRequest {α : Type} [Payload α] (request : Bytes) (next : α → Work HandlerState) :
    Work HandlerState :=
  match (Payload.ofBytes request : Except GatewayError α) with
  | .error e => pure (.ending (.error e))
  | .ok r => next r

def reply {α : Type} [Payload α] (work : Work (Except GatewayError α)) : Work HandlerState := do
  match ← work with
  | .error e => pure (.ending (.error e))
  | .ok answer => pure (.replying (Payload.toBytes answer))

/-! ## Uploads and downloads -/

def receipt (o : Upload.Outcome) : UploadReceipt := ⟨o.destination, UInt64.ofNat o.bytesWritten⟩

/-- A message of an upload, or the end of the messages. -/
def takeChunk (g : Gateway) (s : Upload.Session StagedPackage) :
    Option Bytes → Work HandlerState
  | some m => do
    match ← s.acceptMessage g.staging.installer m with
    | (.ok (), s) => pure (.uploading s)
    | (.error e, s) =>
      Job.change (s.release g.staging.installer)
      pure (.ending (.error e))
  | none => do
    match ← s.finish g.staging.installer with
    | .error e => pure (.ending (.error e))
    | .ok outcome => pure (.replying (Payload.toBytes (receipt outcome)))

def continueDownload (f : Files.Download) : Work HandlerState := do
  match ← Files.nextMessage f with
  | (.error e, _) => pure (.ending (.error e))
  | (.ok none, _) => pure (.ending (.ok ()))
  | (.ok (some m), f) => pure (.downloading f m)

def download (path : String) : Work HandlerState := do
  match ← Files.openDownload path with
  | .error e => pure (.ending (.error e))
  | .ok f => continueDownload f

/-! ## The groups -/

/-- The reply to a sign of life. -/
def pong : Bytes := Text.Utf8.encode "pong"

/-- **The methods on files**, at any path. -/
def fileMethod (method : String) (request : Bytes) : Work HandlerState :=
  match method with
  | "upload" => pure (.uploading (.new .save))
  | "download" => withRequest request fun (r : PathRequest) => download r.path
  | "list-dir" => withRequest request fun (r : ListDirRequest) =>
      reply (Files.listDirectory r.path r.includeHidden)
  | "read-text" => withRequest request fun (r : PathRequest) => reply (Files.readText r.path)
  | "create-file" => withRequest request fun (r : PathRequest) => reply (Files.createFile r.path)
  | "delete-file" => withRequest request fun (r : PathRequest) => reply (Files.deleteFile r.path)
  | "mkdir" => withRequest request fun (r : PathRequest) => reply (Files.createDirectory r.path)
  | "rmdir" => withRequest request fun (r : PathRequest) => reply (Files.removeDirectory r.path)
  | "move" | "rename" => withRequest request fun (r : PathPair) => reply (Files.move r)
  | "copy" => withRequest request fun (r : PathPair) => reply (Files.copy r)
  | "write-text" => withRequest request fun (r : TextRequest) => reply (Files.writeText .replace r)
  | "append-text" => withRequest request fun (r : TextRequest) => reply (Files.writeText .append r)
  | other => pure (.ending (.error (CallContext.unknownMethod "filesystem" other)))

/-- Goes on with a path below the media root. -/
def underRoot (g : Gateway) (path : String) (next : String → Work HandlerState) :
    Work HandlerState :=
  match Path.resolveUnder g.mediaRoot path with
  | .error e => pure (.ending (.error e))
  | .ok resolved => next resolved

/-- Removes a file of the media store; the reply names the path as it was requested. -/
def deleteMedia (requested path : String) : Work (Except GatewayError OperationStatus) := do
  match ← Files.change (·.removeFile path) with
  | .error e => pure (.error (e.toErrorAt path))
  | .ok () => pure (Files.done s!"deleted {requested}")

/-- **The methods on media**, below the media root. -/
def mediaMethod (g : Gateway) (method : String) (request : Bytes) : Work HandlerState :=
  match method with
  | "list" => withRequest request fun (r : ListDirRequest) =>
      underRoot g r.path fun path => reply (Files.listDirectory path r.includeHidden)
  | "download" => withRequest request fun (r : PathRequest) => underRoot g r.path download
  | "delete" => withRequest request fun (r : PathRequest) =>
      underRoot g r.path fun path => reply (deleteMedia r.path path)
  | other => pure (.ending (.error (CallContext.unknownMethod "media-store" other)))

/-- **A method that the provider answers.** Without a request there are no parameters. -/
def forward (group method : String) (request : Bytes) : Work HandlerState :=
  if request.isEmpty then pure (.asking group method .null)
  else withRequest request fun (p : JsonPayload) =>
    match p.value with
    | .error e => pure (.ending (.error e))
    | .ok params => pure (.asking group method params)

/-- **What the handler of a call starts with.** -/
def begin (g : Gateway) (group : ServiceGroup) (method : String) (request : Bytes) :
    Work HandlerState :=
  match group with
  | .ping => pure (.replying pong)
  | .packageManager =>
    if method = "install" then pure (.uploading (.new .install))
    else forward group.name method request
  | .filesystem => fileMethod method request
  | .mediaStore => g.mediaMethod method request
  | _ => forward group.name method request

/-! ## The machine -/

/-- **The handlers as one machine.** -/
def handler (g : Gateway) : Handler GatewayWorld HandlerState where
  await
    | .replying m => .send m fun sent => pure (.ending sent)
    | .uploading s => .receive (g.takeChunk s)
    | .downloading f m => .send m fun
      | .error e => pure (.ending (.error e))
      | .ok () => continueDownload f
    | .asking group method params =>
      .provider (g.provider group method params) g.providerTimeout fun
        | .error e => pure (.ending (.error e))
        | .ok v => pure (.replying (Payload.toBytes (JsonPayload.ofValue v)))
    | .ending result => .finish result
  release
    | .uploading s, w => s.release g.staging.installer w
    | _, w => w

/-- **How a call starts**: a service and a method that the registry knows get a handler. -/
def accept (g : Gateway) (r : CallRequest) : Except GatewayError (Work HandlerState) :=
  match gatewayRegistry.lookup r.service, ServiceGroup.ofName? r.service with
  | .error e, _ => .error e
  | .ok _, none => .error (.notFound s!"service {r.service}")
  | .ok s, some group =>
    if (s.method? r.method).isSome then .ok (g.begin group r.method r.request)
    else .error (CallContext.unknownMethod r.service r.method)

/-! ## Gateways -/

/-- The host itself as a provider. It always answers. -/
def hostProvider (host : Host) : Provider := fun group method _ => some (host.invoke group method)

/-- The gateway that a configuration describes, on a host and with a number of its process. -/
def ofConfig (c : GatewayConfig) (provider : Provider) (process : String) : Gateway where
  mediaRoot := c.storage.mediaRoot
  staging := ⟨c.storage.stagingDir, c.storage.installDir, process⟩
  provider
  providerTimeout := c.providerTimeout

end Gateway

end DeviceGateway
