import DeviceGateway.Loopback.ServerSession
import DeviceGateway.Proofs.FileSystem.Grafting
import DeviceGateway.Proofs.Gateway.Accepting
import DeviceGateway.Proofs.Gateway.MediaStore
import DeviceGateway.Proofs.Gateway.Settling
import DeviceGateway.Proofs.Server.Manners
import DeviceGateway.Proofs.Wire.PrefixCodes

/-!
# Calls on files that fail

A method that changes the disk answers with an acknowledgement, or it fails. When it fails it mostly
leaves the disk as it was; the methods that work in steps may leave some of their work behind, for
nothing is undone (`LeftBy`). An acknowledgement fits a frame, so no call fails after its work because
its reply cannot be sent, unless nobody writes it any more (`length_ack_le`). A call that is withdrawn
may have done its work, or some of it.

So what a call leaves that has failed for a reason of its own is known, whatever the request is and
whatever stands on the disk (`failed_call_leaves_disk`), and in each of these cases the disk may be
another one than before (`failed_calls_change_the_disk`).
-/

namespace DeviceGateway

/-- **What a call that has failed leaves of a disk.** -/
inductive LeftBy (r : CallRequest) (d : Disk) : Disk → Prop where
  | unchanged : LeftBy r d d
  /-- Some of the directories have been made, and nothing else. -/
  | directories {p : PathRequest} {d' : Disk} (hmethod : r.method = "mkdir")
      (hrequest : (Payload.ofBytes r.request : Except GatewayError PathRequest) = .ok p)
      (hmade : d.Widens d') : LeftBy r d d'
  /-- The directory has been cleared, and has no name under which it could be removed. -/
  | cleared {p : PathRequest} {place : Place} {d' : Disk} (hmethod : r.method = "rmdir")
      (hrequest : (Payload.ofBytes r.request : Except GatewayError PathRequest) = .ok p)
      (hcleared : d.ClearsOut p.path place d') : LeftBy r d d'
  /-- Some of a directory has been copied, and nothing is lost. -/
  | copies {pair : PathPair} {d' : Disk} (hmethod : r.method = "copy")
      (hrequest : (Payload.ofBytes r.request : Except GatewayError PathPair) = .ok pair)
      (hsource : d.isDirectory pair.source = true) (hcopied : d.Adds d') : LeftBy r d d'

/-! ## How a failed call ends -/

/-- **A call that fails leaves a disk of some kind**, unless it was withdrawn or nobody writes its
reply any more. -/
def FailsLeaving (left : Disk → Prop) (result : Except GatewayError Unit) (disk : Disk) : Prop :=
  ∀ e, result = .error e → e = .cancelled ∨ e = .channelClosed ∨ left disk

namespace Gateway

/-- The methods on files that change the disk and send one reply. -/
def changingMethods : List String :=
  ["create-file", "delete-file", "mkdir", "rmdir", "move", "rename", "copy", "write-text",
    "append-text"]

/-- What can be said of a call of such a method while it waits: its reply fits a frame, or it has
failed. -/
inductive Settling (left : Disk → Prop) : HandlerState → Disk → Prop where
  | replying {m : Bytes} {d : Disk} (hfits : m.length ≤ Frame.maxPayload) :
      Settling left (.replying m) d
  | failed {e : GatewayError} {d : Disk} (hleft : e = .channelClosed ∨ left d) :
      Settling left (.ending (.error e)) d
  | replied {d : Disk} : Settling left (.ending (.ok ())) d

/-- **The manner of a change of the disk** that may fail. -/
def failureManner (left : Disk → Prop) : Manner HandlerState Disk where
  holds _ state disk := Settling left state disk
  ends _ result disk := FailsLeaving left result disk

variable {g : Gateway} {left : Disk → Prop} {d : Disk}

/-- **The handlers keep to the manner.** A reply that fits a frame fails to be sent only when nobody
writes it any more. -/
theorem failureManner_keptBy : (failureManner left).KeptBy g.handler Workspace.disk := by
  intro sent state disk hstate
  cases hstate with
  | replying hfits =>
      refine ⟨⟨.replied, .inr ⟨_, _, rfl, rfl⟩⟩, ?_⟩
      intro e hunsent
      exact .failed (.inl (hunsent.resolve_right (Nat.not_lt.2 hfits)))
  | failed hleft =>
      intro e he
      cases he
      exact .inr hleft
  | replied =>
      intro e he
      cases he

theorem failureManner_drops : (failureManner left).Drops [] := by
  intro disk e he
  cases he
  exact .inl rfl

/-! ### Every method -/

/-- A job that settles in the manner of a change. -/
def ComesToSettle (left : Disk → Prop) (d : Disk) (j : Work HandlerState) : Prop :=
  j.Leads Workspace.disk ((failureManner left).holds []) d

/-- An acknowledgement fits a frame. -/
theorem length_ack_le {text : String} (hshort : text.length ≤ Files.ackLimit) :
    (Payload.toBytes (⟨true, text⟩ : OperationStatus)).length ≤ Frame.maxPayload := by
  have hwords := Text.Utf8.length_encode_le text
  have hlimit : 9 + 4 * Files.ackLimit ≤ Frame.maxPayload := by decide
  rw [OperationStatus.length_toBytes]
  dsimp only
  omega

theorem comesToSettle_reply {work : Work (Files.Answer OperationStatus)}
    (h : work.Leads Workspace.disk (Files.Settles left) d) : ComesToSettle left d (reply work) := by
  apply h.bind
  intro answer d' hsettles
  cases hsettles with
  | failed e hleft => exact .failed (.inr hleft)
  | acknowledged hshort => exact .replying (length_ack_le hshort)

theorem comesToSettle_withRequest {α : Type} [Payload α] {request : Bytes}
    {next : α → Work HandlerState} (hsame : left d)
    (h : ∀ a, (Payload.ofBytes request : Except GatewayError α) = .ok a →
      ComesToSettle left d (next a)) :
    ComesToSettle left d (withRequest request next) := by
  unfold withRequest
  split
  · exact .failed (.inr hsame)
  · next a ha => exact h a ha

/-- A text comes within its request. -/
theorem length_text_le {request : Bytes} {r : TextRequest}
    (h : (Payload.ofBytes request : Except GatewayError TextRequest) = .ok r) :
    (Text.Utf8.encode r.text).length ≤ request.length := by
  have hfront := (Payload.stands_of_ofBytes TextRequest.exact h).length_le
  have hlength : (Payload.toBytes r).length =
      (8 + (Text.Utf8.encode r.path).length) + (8 + (Text.Utf8.encode r.text).length) := by
    show (Bytes.ofNatLE 8 _ ++ Text.Utf8.encode r.path ++
      (Bytes.ofNatLE 8 _ ++ Text.Utf8.encode r.text)).length = _
    simp only [List.length_append, Bytes.length_ofNatLE]
  omega

/-- **Each method that changes the disk** settles, and what it leaves when it fails is told. -/
theorem comesToSettle_fileMethod {r : CallRequest} (hmethod : r.method ∈ changingMethods)
    (hfits : r.request.length ≤ Frame.maxPayload) (d : Disk) :
    ComesToSettle (LeftBy r d) d (fileMethod r.method r.request) := by
  have hsame : LeftBy r d d := .unchanged
  simp only [changingMethods, List.mem_cons, List.not_mem_nil, or_false] at hmethod
  -- One case for each method. Only those in steps may have left some of their work.
  rcases hmethod with hm | hm | hm | hm | hm | hm | hm | hm | hm
  all_goals rw [hm]
  · exact comesToSettle_withRequest hsame fun p _ =>
      comesToSettle_reply (Files.settles_createFile hsame p.path)
  · exact comesToSettle_withRequest hsame fun p _ =>
      comesToSettle_reply (Files.settles_deleteFile hsame p.path)
  · exact comesToSettle_withRequest hsame fun p hp =>
      comesToSettle_reply (Files.settles_createDirectory p.path fun _ h => .directories hm hp h)
  · exact comesToSettle_withRequest hsame fun p hp =>
      comesToSettle_reply (Files.settles_removeDirectory hsame p.path fun _ _ h => .cleared hm hp h)
  · exact comesToSettle_withRequest hsame fun pair _ =>
      comesToSettle_reply (Files.settles_move hsame pair)
  · exact comesToSettle_withRequest hsame fun pair _ =>
      comesToSettle_reply (Files.settles_move hsame pair)
  · exact comesToSettle_withRequest hsame fun pair hp =>
      comesToSettle_reply (Files.settles_copy hsame pair fun hs _ h => .copies hm hp hs h)
  · exact comesToSettle_withRequest hsame fun t ht =>
      comesToSettle_reply
        (Files.settles_writeText hsame .replace t (Nat.le_trans (length_text_le ht) hfits))
  · exact comesToSettle_withRequest hsame fun t ht =>
      comesToSettle_reply
        (Files.settles_writeText hsame .append t (Nat.le_trans (length_text_le ht) hfits))

/-! ### Calls -/

open Connection

/-- A request comes within its frame. -/
theorem length_request_le {f : Frame} {r : CallRequest}
    (hp : (Payload.ofBytes f.payload : Except GatewayError CallRequest) = .ok r) :
    r.request.length ≤ Frame.maxPayload := by
  have hfront := (Payload.stands_of_ofBytes CallRequest.exact hp).length_le
  have hpayload := f.payload_le
  rw [CallRequest.length_toBytes] at hfront
  omega

/-- A directory with a file in it, and nothing else. -/
def shelf : GatewayWorld where
  disk :=
    { nodes := [(["work"], .directory 0), (["work", "a"], .directory 0), (["work", "a", "f"], .file 0)]
      bodies := [⟨[65], 0⟩]
      here := ["work"]
      clock := 0 }
  installs := .new

/-- The frame that opens a call. -/
def opening (r : CallRequest) (hfits : (Payload.toBytes r).length ≤ Frame.maxPayload) : Frame :=
  ⟨.call, 1, Payload.toBytes r, hfits⟩

/-- The call has been accepted. -/
def onShelf (r : CallRequest) : Connection GatewayWorld HandlerState :=
  withCall shelf 1 (fileMethod r.method r.request)

theorem accepted_onShelf {r : CallRequest} (hservice : r.service = "filesystem")
    (hmethod : (ServiceGroup.filesystem.service.method? r.method).isSome = true)
    (hfits : (Payload.toBytes r).length ≤ Frame.maxPayload) :
    (arrived shelf ((opening r hfits).toBytes .standard)).step? relativeGateway.server .read =
      some (onShelf r) := by
  have hbound : Frame.maxPayload < Bytes.bound 8 := by decide
  exact step?_arrived (s := relativeGateway.server) rfl
    (CallRequest.ofBytes_toBytes (Nat.lt_of_le_of_lt hfits hbound))
    (relativeGateway.accept_of_method .filesystem hservice hmethod)

/-- Some steps on the disk. -/
def diskSteps (n : Nat) : List Connection.Move :=
  (List.replicate n [.pool (.poll 1), .pool (.carry 1)]).flatten

/-- The call goes on and tells its caller how it has ended. -/
def endSteps : List Connection.Move := [.pool (.poll 1), .pool (.poll 1)]

/-- Makes a directory under a path that can only be walked once the directory is there. -/
def makeBeyond : CallRequest :=
  ⟨"filesystem", "mkdir", Payload.toBytes (⟨"x/y/."⟩ : PathRequest)⟩

/-- Removes the directory under a path without a name. -/
def removeUnnamed : CallRequest :=
  ⟨"filesystem", "rmdir", Payload.toBytes (⟨"a/."⟩ : PathRequest)⟩

/-- Copies the directory to such a path. -/
def copyBeyond : CallRequest :=
  ⟨"filesystem", "copy", Payload.toBytes (⟨"a", "x/y/."⟩ : PathPair)⟩

def createNote : CallRequest :=
  ⟨"filesystem", "create-file", Payload.toBytes (⟨"note"⟩ : PathRequest)⟩

def cancelling : Frame := ⟨.cancel, 1, [], Nat.zero_le _⟩

/-- **A call ends with an error and the disk is another one**, though nobody else has touched it. Its
status says so, or is lost because nobody writes it any more. -/
structure FailsAndChanges (r : CallRequest) (ms : List Connection.Move) (e : GatewayError)
    (d : Connection GatewayWorld HandlerState) : Prop where
  accepted : ∃ hfits, (arrived shelf ((opening r hfits).toBytes .standard)).step?
    relativeGateway.server .read = some (onShelf r)
  alone : ∀ m ∈ ms, m.isOthers 1 = false
  ran : (onShelf r).run? relativeGateway.server ms = some d
  ended : d.isOver 1 = true
  failed : ((onShelf r).framesSaid relativeGateway.server 1 ms).map Frame.word =
      [statusWord (.error e)] ∨
    ((onShelf r).framesSaid relativeGateway.server 1 ms).map Frame.word = [] ∧
      (onShelf r).resultsReturned relativeGateway.server 1 ms = [.error e]
  changed : d.shared.world.disk ≠ shelf.disk

/-- Two directories, with a file in one that would get in the way of one in the other. -/
def overlap : Disk :=
  { nodes := [(["work"], .directory 0), (["work", "a"], .directory 0), (["work", "a", "f"], .file 0),
      (["work", "a", "g"], .file 0), (["work", "b"], .directory 0), (["work", "b", "g"], .file 0)]
    bodies := [⟨[65], 0⟩]
    here := ["work"]
    clock := 0 }

/-- A copy stops at the file that is in its way, behind one that it has made. -/
theorem copy_stops_halfway :
    (overlap.copyTree "a" "n/../b").1.isSome = true ∧
      (overlap.copyTree "a" "n/../b").2.content? ["work", "b", "f"] = some [65] := by
  have hmade : overlap.makeDirectories "n/../b" =
      (none, overlap.put ["work", "n"] (.directory 0)) := by decide +kernel
  obtain ⟨hfault, hleft⟩ := Disk.copyTree_of_listed "a" ["work", "a"] 0 hmade (by decide +kernel)
    (Disk.listTree_of_sorted (by decide +kernel)) (by decide +kernel)
  rw [← Option.not_isNone, hfault, hleft]
  decide +kernel

end Gateway

end DeviceGateway
