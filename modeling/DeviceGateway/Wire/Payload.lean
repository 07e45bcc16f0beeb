import DeviceGateway.Wire.Layout

/-!
# Payloads

What calls carry: the request that opens a call, the requests and replies of the services, and the
status that ends a call. Each is a record whose layout is its fields in order. A payload that is
read may be followed by octets, which are ignored.
-/

namespace DeviceGateway

open Wire Wire.Layout

/-- A type whose values travel as payloads. -/
class Payload (α : Type) where
  layout : Layout α

namespace Payload

variable {α : Type} [Payload α]

def toBytes (v : α) : Bytes := (layout (α := α)).write v

/-- **Reading a payload** from the front of a byte string. -/
def read (bs : Bytes) : Except Fault α :=
  match (layout (α := α)).read bs with
  | .ok (v, _) => .ok v
  | .error fault => .error fault

/-- Reading a payload, as the gateway reports it. -/
def ofBytes (bs : Bytes) : Except GatewayError α :=
  match read bs with
  | .ok v => .ok v
  | .error fault => .error (.encoding fault.message)

end Payload

/-! ## Opening a call -/

/-- Which method a call is for, and the body of its request. -/
structure CallRequest where
  service : String
  method : String
  request : Bytes
  deriving DecidableEq, Repr, Inhabited

instance : Payload CallRequest where
  layout := (text.pair (text.pair octets)).map
    (fun (service, method, request) => ⟨service, method, request⟩)
    (fun r => (r.service, r.method, r.request))

/-! ## Uploads -/

/-- One message of an upload: data, and on the first one the destination. -/
structure UploadChunk where
  path : Option String
  data : Bytes
  deriving DecidableEq, Repr, Inhabited

instance : Payload UploadChunk where
  layout := ((optional text).pair octets).map
    (fun (path, data) => ⟨path, data⟩) (fun c => (c.path, c.data))

/-- The reply to a completed upload. -/
structure UploadReceipt where
  path : Option String
  bytesWritten : UInt64
  deriving DecidableEq, Repr, Inhabited

instance : Payload UploadReceipt where
  layout := ((optional text).pair word64).map
    (fun (path, bytesWritten) => ⟨path, bytesWritten⟩) (fun r => (r.path, r.bytesWritten))

/-! ## File requests and replies -/

structure PathRequest where
  path : String
  deriving DecidableEq, Repr, Inhabited

instance : Payload PathRequest where
  layout := text.map (⟨·⟩) (·.path)

structure ListDirRequest where
  path : String
  includeHidden : Bool
  deriving DecidableEq, Repr, Inhabited

instance : Payload ListDirRequest where
  layout := (text.pair flag).map
    (fun (path, includeHidden) => ⟨path, includeHidden⟩) (fun r => (r.path, r.includeHidden))

/-- Source and destination. -/
structure PathPair where
  source : String
  target : String
  deriving DecidableEq, Repr, Inhabited

instance : Payload PathPair where
  layout := (text.pair text).map
    (fun (source, target) => ⟨source, target⟩) (fun r => (r.source, r.target))

structure TextRequest where
  path : String
  text : String
  deriving DecidableEq, Repr, Inhabited

instance : Payload TextRequest where
  layout := (text.pair text).map (fun (path, text) => ⟨path, text⟩) (fun r => (r.path, r.text))

structure TextReply where
  text : String
  deriving DecidableEq, Repr, Inhabited

instance : Payload TextReply where
  layout := text.map (⟨·⟩) (·.text)

/-- One entry of a directory. The time is in seconds since the epoch, zero before it. -/
structure DirEntry where
  name : String
  path : String
  size : UInt64
  isDirectory : Bool
  modified : UInt64
  deriving DecidableEq, Repr, Inhabited

structure DirListing where
  entries : List DirEntry
  deriving DecidableEq, Repr, Inhabited

/-- How one entry lies in a listing. -/
def DirEntry.layout : Layout DirEntry :=
  (text.pair (text.pair (word64.pair (flag.pair word64)))).map
    (fun (name, path, size, isDirectory, modified) => ⟨name, path, size, isDirectory, modified⟩)
    (fun e => (e.name, e.path, e.size, e.isDirectory, e.modified))

instance : Payload DirListing where
  layout := (listOf DirEntry.layout).map (⟨·⟩) (·.entries)

/-- The acknowledgement of an operation without other results. -/
structure OperationStatus where
  success : Bool
  message : String
  deriving DecidableEq, Repr, Inhabited

instance : Payload OperationStatus where
  layout := (flag.pair text).map
    (fun (success, message) => ⟨success, message⟩) (fun s => (s.success, s.message))

/-! ## Provider requests and replies -/

/-- JSON as text. -/
structure JsonPayload where
  json : String
  deriving DecidableEq, Repr, Inhabited

instance : Payload JsonPayload where
  layout := text.map (⟨·⟩) (·.json)

/-! ## Status -/

inductive StatusCode where
  | ok
  | internal
  deriving DecidableEq, Repr, Inhabited

/-- How a call ended. -/
structure Status where
  code : StatusCode
  message : String
  deriving DecidableEq, Repr, Inhabited

/-- A variant lies on the wire as its number. -/
def StatusCode.layout : Layout StatusCode where
  write
    | .ok => (number 4).write 0
    | .internal => (number 4).write 1
  read := (number 4).readThen fun n rest =>
    if n = 0 then .ok (.ok, rest) else if n = 1 then .ok (.internal, rest)
    else .error (.notVariant n 2)

instance : Payload Status where
  layout := (StatusCode.layout.pair text).map
    (fun (code, message) => ⟨code, message⟩) (fun s => (s.code, s.message))

namespace Status

/-- The status of a call that went well. -/
def success : Status := ⟨.ok, ""⟩

/-- The status of a call that ended with an error: its wording is all that the peer learns. -/
def ofError (e : GatewayError) : Status := ⟨.internal, e.message⟩

def ofResult {α : Type} : Except GatewayError α → Status
  | .ok _ => success
  | .error e => ofError e

def isOk (s : Status) : Bool := s.code == .ok

/-- What the peer makes of a status. -/
def toResult (s : Status) : Except GatewayError Unit :=
  match s.code with
  | .ok => .ok ()
  | .internal => .error (.other s.message)

end Status

end DeviceGateway
