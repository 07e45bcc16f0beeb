import DeviceGateway.Loopback.ServerSession
import DeviceGateway.Proofs.Gateway.Accepting
import DeviceGateway.Proofs.Gateway.MediaStore
import DeviceGateway.Proofs.Server.Manners
import DeviceGateway.Proofs.Transfer.Sending

/-!
# The shapes of answers

A method of the gateway is declared to give one reply or to stream many messages back, and its
handler has the manner of that kind. One reply is sent exactly if the call goes well (`OneReply`). A
download sends the transfer of the file that was asked for, as far as it comes, and the whole of it
if it goes well; where there is no such file it sends nothing (`TransferOf`). So every call of every
method answers in the shape that is declared, whatever the request, the messages of the caller and
the files are, and whenever it is cancelled (`methods_answer_in_shape`).
-/

namespace DeviceGateway

open Transfer

/-! ## The shapes -/

/-- **One reply** if the call goes well, and none otherwise. -/
def OneReply (sent : List Bytes) (result : Except GatewayError Unit) : Prop :=
  (result = .ok () → ∃ m, sent = [m]) ∧ ∀ e, result = .error e → sent = []

/-- **A part of the transfer** of what a file holds, and all of it if the call goes well. Without a
file nothing is sent, and the call does not go well. -/
def TransferOf : Option (Nat × Bytes) → List Bytes → Except GatewayError Unit → Prop
  | none, sent, result => sent = [] ∧ result ≠ .ok ()
  | some (_, data), sent, result =>
    ∃ whole, IsTransfer data whole ∧ sent <+: whole ∧ (result = .ok () → sent = whole)

/-- **The file that a path leads to**: its number and what it holds. -/
def Disk.fileAt? (d : Disk) (path : String) : Option (Nat × Bytes) :=
  match d.find path with
  | .ok (_, .file n) => some (n, (d.body n).data)
  | _ => none

namespace Gateway

variable (g : Gateway)

/-- The path that a download asks for, if the request decodes and the path is not refused. -/
def wantedPath? (r : CallRequest) : Option String :=
  match (Payload.ofBytes r.request : Except GatewayError PathRequest) with
  | .error _ => none
  | .ok p =>
    if r.service = ServiceGroup.mediaStore.name then (Path.resolveUnder g.mediaRoot p.path).toOption
    else some p.path

/-- **The file that a download asks for**, if there is one. -/
def wantedFile? (r : CallRequest) (w : GatewayWorld) : Option (Nat × Bytes) :=
  (g.wantedPath? r).bind w.disk.fileAt?

/-! ## One reply -/

/-- What can be said of a call that comes to one reply, while it waits. -/
inductive Replying : List Bytes → HandlerState → Prop where
  | replying (m : Bytes) : Replying [] (.replying m)
  | uploading (session : Upload.Session StagedPackage) : Replying [] (.uploading session)
  | asking (group method : String) (params : Json) : Replying [] (.asking group method params)
  | failed (e : GatewayError) : Replying [] (.ending (.error e))
  | replied (m : Bytes) : Replying [m] (.ending (.ok ()))

/-- **The manner of one reply.** Nothing has to be seen of the world. -/
def replyManner : Manner HandlerState Unit where
  holds sent state _ := Replying sent state
  ends sent result _ := OneReply sent result

/-- A job that comes to one reply, or fails. -/
def ComesToReply (j : Work HandlerState) : Prop :=
  j.Leads (fun _ => ()) (replyManner.holds []) ()

variable {g}

theorem comesToReply_failed (e : GatewayError) : ComesToReply (pure (.ending (.error e))) :=
  .failed e

/-- What is done before the reply does not matter. -/
theorem comesToReply_bind {α : Type} {work : Work α} {next : α → Work HandlerState}
    (h : ∀ a, ComesToReply (next a)) : ComesToReply (work >>= next) := by
  have hany : work.Leads (fun _ => ()) (fun _ _ => True) () :=
    Job.leads_of_forall fun _ _ => trivial
  exact hany.bind fun a _ _ => h a

theorem comesToReply_reply {α : Type} [Payload α] (work : Work (Except GatewayError α)) :
    ComesToReply (reply work) := by
  refine comesToReply_bind fun answer => ?_
  cases answer with
  | error e => exact .failed e
  | ok a => exact .replying _

theorem comesToReply_withRequest {α : Type} [Payload α] {request : Bytes}
    {next : α → Work HandlerState} (h : ∀ r, ComesToReply (next r)) :
    ComesToReply (withRequest request next) := by
  unfold withRequest
  split
  · exact comesToReply_failed _
  · exact h _

theorem comesToReply_underRoot {path : String} {next : String → Work HandlerState}
    (h : ∀ path, ComesToReply (next path)) : ComesToReply (g.underRoot path next) := by
  unfold underRoot
  split
  · exact comesToReply_failed _
  · exact h _

theorem comesToReply_takeChunk (s : Upload.Session StagedPackage) (m : Option Bytes) :
    ComesToReply (g.takeChunk s m) := by
  unfold takeChunk
  split
  · refine comesToReply_bind fun answer => ?_
    obtain ⟨taken, s'⟩ := answer
    cases taken with
    | ok => exact .uploading s'
    | error e => exact comesToReply_bind fun _ => .failed e
  · refine comesToReply_bind fun answer => ?_
    cases answer with
    | error e => exact .failed e
    | ok outcome => exact .replying _

/-- **Every method on files but the download comes to one reply.** -/
theorem comesToReply_fileMethod {method : String} (h : method ≠ "download") (request : Bytes) :
    ComesToReply (fileMethod method request) := by
  unfold fileMethod
  split
  case h_1 => exact .uploading _
  case h_2 => exact absurd rfl h
  case h_14 => exact .failed _
  all_goals exact comesToReply_withRequest fun r => comesToReply_reply _

theorem comesToReply_mediaMethod {method : String} (h : method ≠ "download") (request : Bytes) :
    ComesToReply (g.mediaMethod method request) := by
  unfold mediaMethod
  split
  case h_1 =>
      exact comesToReply_withRequest fun r => comesToReply_underRoot fun p => comesToReply_reply _
  case h_2 => exact absurd rfl h
  case h_3 =>
      exact comesToReply_withRequest fun r => comesToReply_underRoot fun p => comesToReply_reply _
  case h_4 => exact .failed _

theorem comesToReply_forward (group method : String) (request : Bytes) :
    ComesToReply (forward group method request) := by
  unfold forward
  split
  · exact .asking group method .null
  · refine comesToReply_withRequest fun p => ?_
    split
    · exact comesToReply_failed _
    · exact .asking group method _

/-- **Whatever is not declared to stream messages back comes to one reply.** -/
theorem comesToReply_begin (group : ServiceGroup) {method : String}
    (h : (group = .filesystem ∨ group = .mediaStore) → method ≠ "download") (request : Bytes) :
    ComesToReply (g.begin group method request) := by
  cases group with
  | ping => exact .replying pong
  | packageManager =>
      simp only [begin]
      split
      · exact .uploading _
      · exact comesToReply_forward _ _ _
  | filesystem => exact comesToReply_fileMethod (h (.inl rfl)) request
  | mediaStore => exact comesToReply_mediaMethod (h (.inr rfl)) request
  | network | device | control | sms | contact | callLog | phone =>
      exact comesToReply_forward _ _ _

/-- **The handlers keep to the manner of one reply.** A reply that cannot be sent fails the call. -/
theorem replyManner_keptBy : replyManner.KeptBy g.handler fun _ => () := by
  intro sent state _ hstate
  cases hstate with
  | replying m =>
      refine ⟨⟨.replied m, .inr ⟨_, _, rfl, rfl⟩⟩, ?_⟩
      intro e _
      exact .failed e
  | uploading session => exact fun m => comesToReply_takeChunk session m
  | asking group method params =>
      intro answer
      cases answer with
      | error e => exact .failed e
      | ok v => exact .replying _
  | failed e =>
      refine ⟨fun hok => ?_, fun _ _ => rfl⟩
      cases hok
  | replied m =>
      refine ⟨fun _ => ⟨m, rfl⟩, fun e he => ?_⟩
      cases he

theorem replyManner_drops : replyManner.Drops [] := by
  intro _
  refine ⟨fun hok => ?_, fun _ _ => rfl⟩
  cases hok

/-! ## Downloads -/

/-- All messages of the transfer of what a file holds; none without a file. -/
def transferOf : Option (Nat × Bytes) → List Bytes
  | none => []
  | some (_, data) => messagesFor data

/-- What can be said of a download of a file while it waits. -/
inductive Downloading (file : Option (Nat × Bytes)) : List Bytes → HandlerState → Prop where
  | downloading {n : Nat} {data m : Bytes} {sent rest : List Bytes} {f : Files.Download}
      (hfile : file = some (n, data)) (ht : sent ++ m :: rest = messagesFor data)
      (hf : Files.Left n data f rest) : Downloading file sent (.downloading f m)
  | failed {sent : List Bytes} (e : GatewayError) (hp : sent <+: transferOf file) :
      Downloading file sent (.ending (.error e))
  | sent {n : Nat} {data : Bytes} (hfile : file = some (n, data)) :
      Downloading file (messagesFor data) (.ending (.ok ()))

/-- **The manner of a download** of a file that stays as it is. -/
def downloadManner (file : Option (Nat × Bytes)) : Manner HandlerState (Option (Nat × Bytes)) where
  holds sent state seen := seen = file ∧ Downloading file sent state
  ends sent result _ := TransferOf file sent result

theorem transferOf_failed {file : Option (Nat × Bytes)} {sent : List Bytes} (e : GatewayError)
    (hp : sent <+: transferOf file) : TransferOf file sent (.error e) := by
  cases file with
  | none => exact ⟨List.prefix_nil.1 hp, fun hok => by cases hok⟩
  | some entry => exact ⟨_, isTransfer_messagesFor entry.2, hp, fun hok => by cases hok⟩

theorem downloadManner_drops (file : Option (Nat × Bytes)) : (downloadManner file).Drops [] :=
  fun _ => transferOf_failed _ (List.nil_prefix)

section

variable {r : CallRequest} {file : Option (Nat × Bytes)} {path : String} {n : Nat} {data : Bytes}
  {sent rest : List Bytes} {f : Files.Download}

/-- A look at the disk while what is seen of the world stays as it is. -/
theorem leads_look {α ν : Type} {view : GatewayWorld → ν} {seen : ν} (question : Disk → α) :
    (Files.look question : Work α).Leads view
      (fun a later => later = seen ∧ ∃ w, view w = seen ∧ a = question w.disk) seen := by
  rintro w rfl
  exact ⟨rfl, w, rfl, rfl⟩

theorem data_of_wantedFile? {w : GatewayWorld} (h : g.wantedFile? r w = some (n, data)) :
    (w.disk.body n).data = data := by
  obtain ⟨path, -, hfile⟩ := Option.bind_eq_some_iff.1 h
  unfold Disk.fileAt? at hfile
  split at hfile
  · cases hfile
    rfl
  · cases hfile

theorem leads_continueDownload (hfile : file = some (n, data))
    (ht : sent ++ rest = messagesFor data) (hf : Files.Left n data f rest) :
    (continueDownload f).Leads (g.wantedFile? r) ((downloadManner file).holds sent) file := by
  unfold continueDownload
  apply (leads_look _).bind
  rintro answer seen ⟨rfl, w, hw, rfl⟩
  have hnext := Files.next_of_left hf (data_of_wantedFile? (hw.trans hfile))
  generalize f.step _ = taken at hnext
  cases hnext with
  | message hleft => exact ⟨rfl, .downloading hfile ht hleft⟩
  | exhausted =>
      rw [List.append_nil] at ht
      rw [ht]
      exact ⟨rfl, .sent hfile⟩

/-- What is opened for a download is the file that is asked for, and its length is declared. -/
theorem leads_openDownload (hpath : g.wantedPath? r = some path) :
    (Files.openDownload path : Work _).Leads (g.wantedFile? r) (fun opened seen =>
      seen = file ∧ ∀ f, opened = .ok f → ∃ n data, file = some (n, data) ∧
        Files.Left n data f (messagesFor data)) file := by
  unfold Files.openDownload
  apply (leads_look _).bind
  rintro found seen ⟨rfl, w, hw, rfl⟩
  have hfile := hw
  rw [wantedFile?, hpath, Option.bind_some, Disk.fileAt?] at hfile
  cases hfound : w.disk.find path with
  | error e => exact ⟨rfl, fun f hok => by cases hok⟩
  | ok entry =>
      obtain ⟨place, node⟩ := entry
      cases node with
      | directory n => exact ⟨rfl, fun f hok => by cases hok⟩
      | file n =>
          rw [hfound] at hfile
          apply (leads_look _).bind
          rintro size seen ⟨rfl, w', hw', rfl⟩
          refine ⟨rfl, ?_⟩
          intro f hok
          cases hok
          refine ⟨n, _, hfile.symm, ?_⟩
          -- The length was looked up later, when the file held what it had held before.
          rw [data_of_wantedFile? (hw'.trans hfile.symm)]
          exact .mode

/-- **A download that begins** sends the file that it finds, or nothing. -/
theorem leads_download (hpath : g.wantedPath? r = some path) :
    (download path).Leads (g.wantedFile? r) ((downloadManner file).holds []) file := by
  unfold download
  apply (leads_openDownload hpath).bind
  rintro opened seen ⟨rfl, hopened⟩
  cases opened with
  | error e => exact ⟨rfl, .failed e List.nil_prefix⟩
  | ok f =>
      obtain ⟨n, data, hfile, hf⟩ := hopened f rfl
      exact leads_continueDownload hfile (List.nil_append _) hf

/-- **The handlers keep to the manner of a download.** -/
theorem downloadManner_keptBy : (downloadManner file).KeptBy g.handler (g.wantedFile? r) := by
  rintro sent state seen ⟨rfl, hstate⟩
  cases hstate with
  | @downloading n data m sent rest f hfile ht hf =>
      have hsent : (sent ++ [m]) ++ rest = messagesFor data := by
        rw [List.append_assoc]
        exact ht
      have hall : transferOf seen = messagesFor data := by
        rw [hfile]
        rfl
      refine ⟨⟨leads_continueDownload hfile hsent hf, .inl fun _ => ?_⟩, ?_⟩
      · exact transferOf_failed _ (hall ▸ ⟨rest, hsent⟩)
      · intro e _
        exact ⟨rfl, .failed e (hall ▸ ⟨m :: rest, ht⟩)⟩
  | failed e hp => exact transferOf_failed e hp
  | sent hfile =>
      rw [hfile]
      exact ⟨_, isTransfer_messagesFor _, List.prefix_rfl, fun _ => rfl⟩

/-- **A method that streams messages back downloads** the file that is asked for. -/
theorem leads_begin_download {group : ServiceGroup}
    (hgroup : group = .filesystem ∨ group = .mediaStore) (hs : r.service = group.name)
    (hm : r.method = "download") :
    (g.begin group r.method r.request).Leads (g.wantedFile? r) ((downloadManner file).holds [])
      file := by
  have refused (e : GatewayError) :
      (pure (.ending (.error e)) : Work HandlerState).Leads (g.wantedFile? r)
        ((downloadManner file).holds []) file := ⟨rfl, .failed e List.nil_prefix⟩
  rw [hm]
  rcases hgroup with rfl | rfl
  · show (withRequest r.request fun (p : PathRequest) => download p.path).Leads _ _ _
    unfold withRequest
    cases hdecoded : (Payload.ofBytes r.request : Except GatewayError PathRequest) with
    | error e => exact refused e
    | ok p =>
        have hne : r.service ≠ ServiceGroup.mediaStore.name := by
          rw [hs]
          decide
        apply leads_download
        simp only [wantedPath?, hdecoded, if_neg hne]
  · show (withRequest r.request fun (p : PathRequest) => g.underRoot p.path download).Leads _ _ _
    unfold withRequest
    cases hdecoded : (Payload.ofBytes r.request : Except GatewayError PathRequest) with
    | error e => exact refused e
    | ok p =>
        dsimp only [underRoot]
        cases hresolved : Path.resolveUnder g.mediaRoot p.path with
        | error e => exact refused e
        | ok path =>
            apply leads_download
            simp only [wantedPath?, hdecoded, if_pos hs, hresolved]
            rfl

end

/-- **Two methods stream messages back**, and both are downloads. -/
theorem serverStreaming_iff (group : ServiceGroup) {m : Method} (hm : m ∈ group.methods) :
    m.kind = .serverStreaming ↔
      (group = .filesystem ∨ group = .mediaStore) ∧ m.name = "download" := by
  revert m
  cases group <;> decide

/-! ## Every method -/

open Connection

/-- **A call of a method answers in the shape of its kind.** A file that is downloaded must stay as
it is meanwhile. -/
structure AnswersInShape (g : Gateway) (r : CallRequest) (kind : MethodKind) (id : UInt64)
    (c : Connection GatewayWorld HandlerState) (ms : List Connection.Move)
    (d : Connection GatewayWorld HandlerState) : Prop where
  once : kind ≠ .serverStreaming → AnswersWith g.server id OneReply c ms d
  streamed : kind = .serverStreaming →
    Throughout g.server (OthersLeave g.server (g.wantedFile? r) id) c ms →
    AnswersWith g.server id (TransferOf (g.wantedFile? r c.shared.world)) c ms d

/-- **Every method of the gateway answers in the shape that it declares**: whatever the request is,
whatever the caller says and the files and the provider are, and whenever the call is cancelled. -/
theorem methods_answer_in_shape (g : Gateway) {c : Connection GatewayWorld HandlerState}
    {f : Frame} {rest : Bytes} {r : CallRequest} {service : Service} {m : Method}
    (hread : c.Reads g.server f rest) (hkind : f.kind = .call)
    (hp : (Payload.ofBytes f.payload : Except GatewayError CallRequest) = .ok r)
    (hfree : c.pool.contains f.callId = false)
    (hservice : gatewayRegistry.lookup r.service = .ok service)
    (hmethod : service.method? r.method = some m) :
    ∃ c', c.step? g.server .read = some c' ∧ ∀ ms d, c'.run? g.server ms = some d →
      (∀ e ∈ c'.visited g.server ms, e.pool.contains f.callId = true) →
      AnswersInShape g r m.kind f.callId c' ms d := by
  obtain ⟨group, hs, rfl⟩ := group_of_lookup hservice
  have hmem : m ∈ group.methods := List.mem_of_find?_eq_some hmethod
  have hname : m.name = r.method := by
    have := List.find?_some hmethod
    exact beq_iff_eq.1 this
  have haccept : g.server.accept r = .ok (g.begin group r.method r.request) :=
    g.accept_of_method group hs (by rw [hmethod]; rfl)
  have hstreams := serverStreaming_iff group hmem
  obtain ⟨c', hstep, -, hfound⟩ := starts_of_reads hread hkind hp hfree haccept
  refine ⟨c', hstep, fun ms d hr hin => ⟨fun hkind => ?_, fun hkind hothers => ?_⟩⟩
  · have hreply : ComesToReply (g.begin group r.method r.request) := by
      refine comesToReply_begin group (fun hgroup hdownload => ?_) r.request
      exact hkind (hstreams.2 ⟨hgroup, hname.trans hdownload⟩)
    have hothers : Throughout g.server (OthersLeave g.server (fun _ => ()) f.callId) c' ms :=
      throughout_of_forall (fun _ _ _ _ _ _ => rfl) c'
    exact answersWith_of_run? replyManner_keptBy replyManner_drops hreply hfound hr hin hothers
  · obtain ⟨hgroup, hdownload⟩ := hstreams.1 hkind
    have hbegin : (g.begin group r.method r.request).Leads (g.wantedFile? r)
        ((downloadManner (g.wantedFile? r c'.shared.world)).holds [])
        (g.wantedFile? r c'.shared.world) :=
      leads_begin_download hgroup hs (hname.symm.trans hdownload)
    exact answersWith_of_run? downloadManner_keptBy (downloadManner_drops _) hbegin hfound hr hin
      hothers

/-! ### A photo is downloaded -/

/-- Asks for the photo. -/
def downloadPhoto : CallRequest :=
  ⟨"media-store", "download", Payload.toBytes (⟨"a"⟩ : PathRequest)⟩

def downloadPhotoFrame : Frame := ⟨.call, 1, Payload.toBytes downloadPhoto, by decide⟩

/-- The call has been accepted. -/
def downloadingPhoto : Connection GatewayWorld HandlerState :=
  withCall photoAlone 1 (relativeGateway.mediaMethod "download" downloadPhoto.request)

/-- All steps of the call: it looks for the photo and at its length, takes each message from the
disk and sends it, finds the end of the photo and tells its caller. -/
def downloadSteps : List Connection.Move :=
  let look : List Connection.Move := [.pool (.poll 1), .pool (.carry 1)]
  look ++ look ++ look ++ [.pool (.poll 1)] ++ look ++ [.pool (.poll 1)] ++ look ++
    [.pool (.poll 1)] ++ look ++ [.pool (.poll 1), .pool (.poll 1)]

theorem photo_is_downloaded :
    ∃ c' d, (arrived photoAlone (downloadPhotoFrame.toBytes .standard)).step?
        relativeGateway.server .read = some c' ∧
      c'.run? relativeGateway.server downloadSteps = some d ∧ d.isOver 1 = true ∧
      (c'.framesSaid relativeGateway.server 1 downloadSteps).map Frame.word =
        [(.message, [0xAA]), (.message, [0, 0, 0, 0, 0, 0, 0, 1]), (.message, [65]),
          statusWord (.ok ())] ∧
      AnswersWith relativeGateway.server 1 (TransferOf (some (0, [65]))) c' downloadSteps d := by
  have hread : (arrived photoAlone (downloadPhotoFrame.toBytes .standard)).Reads
      relativeGateway.server downloadPhotoFrame [] := reads_last rfl rfl
  have hp : (Payload.ofBytes downloadPhotoFrame.payload : Except GatewayError CallRequest) =
      .ok downloadPhoto := CallRequest.ofBytes_toBytes (by decide)
  obtain ⟨c', hstep, hall⟩ := methods_answer_in_shape relativeGateway hread rfl hp rfl
    (lookup_group .mediaStore) (m := ⟨"download", .serverStreaming⟩) (by decide)
  have haccepted : (arrived photoAlone (downloadPhotoFrame.toBytes .standard)).step?
      relativeGateway.server .read = some downloadingPhoto :=
    step?_arrived (s := relativeGateway.server) rfl hp
      (relativeGateway.accept_of_method .mediaStore rfl (by decide))
  obtain rfl : c' = downloadingPhoto := Option.some.inj (hstep.symm.trans haccepted)
  have hrun : (downloadingPhoto.run? relativeGateway.server downloadSteps).map (·.isOver 1) =
      some true := by decide +kernel
  obtain ⟨d, hd, hover⟩ := Option.map_eq_some_iff.1 hrun
  have hin : ∀ e ∈ downloadingPhoto.visited relativeGateway.server downloadSteps,
      e.pool.contains 1 = true := by decide +kernel
  have hsaid : (downloadingPhoto.framesSaid relativeGateway.server 1 downloadSteps).map Frame.word =
      [(.message, [0xAA]), (.message, [0, 0, 0, 0, 0, 0, 0, 1]), (.message, [65]),
        statusWord (.ok ())] := by decide +kernel
  have hfile : relativeGateway.wantedFile? downloadPhoto photoAlone = some (0, [65]) := by
    decide +kernel
  have hshape := (hall downloadSteps d hd hin).streamed rfl
    (othersLeave_alone (by decide) downloadingPhoto)
  refine ⟨downloadingPhoto, d, haccepted, hd, hover, hsaid, ?_⟩
  rw [← hfile]
  exact hshape

end Gateway

end DeviceGateway
