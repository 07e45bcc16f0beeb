import DeviceGateway.Loopback.ServerSession
import DeviceGateway.Proofs.Gateway.Accepting
import DeviceGateway.Proofs.Link.Rest
import DeviceGateway.Proofs.Transfer.Sending
import DeviceGateway.Proofs.Upload.Receiving

/-!
# Uploads and downloads over a link

An upload and a download of the same path are two dialogues with a gateway. The first leaves behind
what the second needs, a file that holds the data, so that what was sent up comes down again
(`transfer_after_upload`): whatever else is called on the connection, in whatever pieces the network
carries the octets, and in whatever order everybody takes steps.
-/

namespace DeviceGateway

/-! ## Results -/

namespace Link

section

variable {ω σ ν : Type} {d : Dialogue σ ν} {s : Server ω σ} {view : ω → ν} {l l' : Link ω σ}
  {kind : ExchangeKind}

/-- What the caller of a call has got for a reply. -/
def reply? (l : Link ω σ) (id : UInt64) : Option (Except GatewayError Bytes) :=
  (l.caller.exchange? id).bind (·.reply?)

/-- What the caller of a call has got for a transfer. -/
def transfer? (l : Link ω σ) (id : UInt64) : Option (Except GatewayError Received) :=
  (l.caller.exchange? id).bind (·.transfer?)

/-- **A result is as it should be**: it is a value with a property and no error, and the link does
not come to rest without it. -/
def Delivers {α : Type} (s : Server ω σ) (l : Link ω σ) (result : Option (Except GatewayError α))
    (P : α → Prop) : Prop :=
  (∀ r, result = some r → ∃ a, r = .ok a ∧ P a) ∧ (AtRest s l → result.isSome = true)

/-- **A run on which nothing is lost and nobody disturbs a call.** -/
structure Quiet (s : Server ω σ) (view : ω → ν) (id : UInt64) (l : Link ω σ) (ms : List Move)
    (l' : Link ω σ) : Prop where
  run : l.run? s ms = some l'
  ordinary : ∀ m ∈ ms, m.isOrdinary = true
  undisturbed : Throughout s (Undisturbed view id) l ms
  numbers : l'.caller.exchanges.length + 1 < UInt64.size

theorem Quiet.sound {id : UInt64} {ms : List Move} (hq : Quiet s view id l ms l') (h : Sound s l) :
    Sound s l' := h.run hq.ordinary hq.run hq.numbers

/-- A quiet run is a first step and a quiet run. -/
theorem Quiet.first {id : UInt64} {m : Move} {ms : List Move}
    (hq : Quiet s view id l (m :: ms) l') :
    ∃ e, l.step? s m = some e ∧ e.caller.exchanges.length + 1 < UInt64.size ∧
      Quiet s view id e ms l' := by
  obtain ⟨e, hm, hr⟩ := run?_cons.1 hq.run
  have hlen := length_exchanges_le_of_run? hr
  have hnumbers := hq.numbers
  exact ⟨e, hm, by omega, hr, fun n hn => hq.ordinary n (List.mem_cons_of_mem _ hn),
    ((throughout_cons hm).1 hq.undisturbed).2, hnumbers⟩

theorem Converses.quiet (h : Converses d s view kind l) (hk : d.course.KeptBy s.handler view)
    (hrequest : (Payload.ofBytes (Payload.toBytes d.request) : Except GatewayError CallRequest) =
      .ok d.request) {ms : List Move} (hq : Quiet s view d.id l ms l') :
    Converses d s view kind l' :=
  h.run hk hrequest hq.ordinary hq.undisturbed hq.run hq.numbers

/-- **A dialogue delivers what its answer comes to.** -/
theorem Converses.delivers (h : Converses d s view kind l) (hh : s.handler.Steadfast)
    (hasks : Traffic.Asks d s.handler) {α : Type} {result : Answer → Except GatewayError α}
    {P : α → Prop} (hresult : ∀ status : Ending, status.result = .ok () →
      ∃ a, result ⟨d.course.answer, status⟩ = .ok a ∧ P a) :
    Delivers s l ((l.caller.exchange? d.id).bind fun x => x.answer?.map (·.bind result)) P := by
  constructor
  · obtain ⟨t, x, left, said, hof, -, hd, -⟩ := h
    have hx := hd.exchange
    rw [hof.caller] at hx
    intro r hr
    rw [hx, Option.bind_some, Option.map_eq_some_iff] at hr
    obtain ⟨answer, hanswer, rfl⟩ := hr
    have hover : x.isOver = true := by
      rw [← x.isSome_answer?, hanswer]
      rfl
    obtain ⟨status, hok, hstatus⟩ := hd.heard.answer hover
    cases hok.symm.trans hanswer
    exact hresult status hstatus
  · intro hrest
    obtain ⟨x, hx, hover⟩ := h.over_of_atRest hrest hh hasks
    rw [hx, Option.bind_some, Option.isSome_map, x.isSome_answer?, hover]

/-- **When the caller has its answer, the handler has come to its end.** -/
theorem Converses.final (h : Converses d s view kind l) (hr : (l.reply? d.id).isSome = true) :
    d.course.final (view l.gateway.shared.world) := by
  obtain ⟨t, x, left, said, hof, -, hd, -⟩ := h
  have hx := hd.exchange
  rw [hof.caller] at hx
  rw [reply?, hx, Option.bind_some, Exchange.reply?, Option.isSome_map, x.isSome_answer?] at hr
  rw [← hof.gateway]
  have hserved := hd.serves.served
  have hbegin := hd.said_prefix
  cases hd.heard with
  | listening hlive =>
      rw [hlive] at hr
      cases hr
  | answered hst hall hsaid =>
      rw [hbegin.eq_of_length_le hsaid.length_le] at hserved
      exact hserved.final_of_all

end

end Link

/-! ## The dialogues -/

namespace Gateway

open Upload Files Transfer

variable (g : Gateway)

theorem steadfast : g.handler.Steadfast := by
  intro state next
  cases state <;> nofun

def uploadRequest : CallRequest := ⟨"filesystem", "upload", []⟩

theorem uploadRequest_fits : (Payload.toBytes uploadRequest).length ≤ Frame.maxPayload := by decide

/-- The upload of chunks whose first names a path. -/
def uploading (id : UInt64) (path : String) (chunks : List UploadChunk) :
    Dialogue HandlerState Sight :=
  ⟨id, uploadRequest, receiving path chunks, true⟩

/-- The request for what a file holds. -/
def downloadRequest (path : String) : CallRequest :=
  ⟨"filesystem", "download", Payload.toBytes (⟨path⟩ : PathRequest)⟩

/-- The download of a file that holds some data. -/
def downloading (id : UInt64) (path : String) (n : Nat) (data : Bytes) :
    Dialogue HandlerState Sight :=
  ⟨id, downloadRequest path, sending n data, false⟩

theorem accept_upload : g.accept uploadRequest = .ok (pure (.uploading (.new .save))) :=
  g.accept_of_method .filesystem rfl (by decide)

theorem accept_download {path : String}
    (hpath : (Text.Utf8.encode path).length < Bytes.bound 8) :
    g.accept (downloadRequest path) = .ok (download path) := by
  have hread := PathRequest.ofBytes_toBytes (r := ⟨path⟩) hpath
  have hbegin : g.begin .filesystem "download" (Payload.toBytes (⟨path⟩ : PathRequest)) =
      withRequest (Payload.toBytes (⟨path⟩ : PathRequest)) fun (r : PathRequest) => download r.path :=
    rfl
  rw [g.accept_of_method .filesystem rfl
    (show (ServiceGroup.filesystem.service.method? "download").isSome = true by decide)]
  show Except.ok (g.begin .filesystem "download" (Payload.toBytes (⟨path⟩ : PathRequest))) = _
  rw [hbegin, withRequest, hread]

section

variable {g} {path : String} {chunks : List UploadChunk} {id : UInt64}

/-- What a path takes at most. -/
theorem length_path_le (hpath : path.utf8ByteSize < Disk.maxPath) :
    (Text.Utf8.encode path).length ≤ 4 * Disk.maxPath := by
  have hencode := Text.Utf8.length_encode_le path
  have hchars := Text.Utf8.length_le_utf8ByteSize path
  omega

theorem asks_uploading (h : Handler GatewayWorld HandlerState) :
    Traffic.Asks (uploading id path chunks) h := nofun

/-- A download asks its caller for nothing. -/
theorem asks_downloading {n : Nat} {data : Bytes} :
    Traffic.Asks (downloading id path n data) g.handler := by
  rintro - t state seen (⟨⟩ | ⟨⟩) next <;> nofun

/-- **The receipt says where the data is, and how much.** -/
theorem receiptFor_says (hpath : path.utf8ByteSize < Disk.maxPath)
    (hsize : (dataOf chunks).length < UInt64.size) :
    ∃ r : UploadReceipt, (Payload.ofBytes (receiptFor path chunks) : Except GatewayError _) = .ok r ∧
      r.path = some path ∧ r.bytesWritten.toNat = (dataOf chunks).length := by
  have hlength := length_path_le hpath
  refine ⟨_, UploadReceipt.ofBytes_toBytes ?_, rfl, UInt64.toNat_ofNat_of_lt' hsize⟩
  show 8 + (Text.Utf8.encode path).length < Bytes.bound 8
  have hbound : 8 + 4 * Disk.maxPath < Bytes.bound 8 := by decide
  omega

end

end Gateway

/-! ## There and back -/

section

open Upload Files Transfer

variable {g : Gateway} {l l₁ l₂ : Link GatewayWorld HandlerState} {path : String}
  {chunks : List UploadChunk} {ms : List Link.Move}

/-- **An upload over a link delivers its receipt**, and leaves the data in the file. -/
theorem upload_over_link (hsound : Link.Sound g.server l)
    (hpath : (Workspace.sight path l.gateway.shared.world).Creatable)
    (hfirst : chunks.head?.bind (·.path) = some path)
    (hfits : ∀ c ∈ chunks, (Payload.toBytes c).length ≤ Frame.maxPayload)
    (hsize : (dataOf chunks).length < UInt64.size)
    (hrun : Link.Quiet g.server (Workspace.sight path) l.caller.client.nextId l
      (.caller (.upload "filesystem" "upload" (messagesOf chunks)) :: ms) l₁) :
    Link.Delivers g.server l₁ (l₁.reply? l.caller.client.nextId) (fun bytes =>
      ∃ r : UploadReceipt, (Payload.ofBytes bytes : Except GatewayError _) = .ok r ∧
        r.path = some path ∧ r.bytesWritten.toNat = (dataOf chunks).length) ∧
    ((l₁.reply? l.caller.client.nextId).isSome = true →
      ∃ n, (Workspace.sight path l₁.gateway.shared.world).Holds n (dataOf chunks)) := by
  obtain ⟨hne, hshort⟩ := Disk.path_of_named hpath.named
  let d := Gateway.uploading l.caller.client.nextId path chunks
  have hkept : d.course.KeptBy g.server.handler (Workspace.sight path) :=
    receiving_keptBy hshort hne hfirst hfits
  have hrequest : (Payload.ofBytes (Payload.toBytes d.request) : Except GatewayError CallRequest) =
      .ok d.request :=
    CallRequest.ofBytes_toBytes (Nat.lt_of_le_of_lt Gateway.uploadRequest_fits (by decide))
  obtain ⟨e, hstep, hnumbers, hquiet⟩ := hrun.first
  have hbegun : Link.Converses d g.server (Workspace.sight path) .reply e := by
    refine hsound.converses_upload rfl rfl rfl Gateway.uploadRequest_fits ?_ g.accept_upload
      (Receiving.idle hpath) hstep hnumbers
    intro m hm
    obtain ⟨c, hc, rfl⟩ := List.mem_map.1 hm
    exact hfits c hc
  have hend := hbegun.quiet hkept hrequest hquiet
  refine ⟨hend.delivers g.steadfast (Gateway.asks_uploading _) fun status hstatus =>
    ⟨receiptFor path chunks, ?_, Gateway.receiptFor_says hshort hsize⟩, hend.final⟩
  simp only [Answer.reply, hstatus]
  rfl

/-- **A download over a link delivers what the file holds.** -/
theorem download_over_link (hsound : Link.Sound g.server l) {n : Nat} {data : Bytes}
    (hpath : (Workspace.sight path l.gateway.shared.world).Holds n data)
    (hsize : data.length < UInt64.size)
    (hrun : Link.Quiet g.server (Workspace.sight path) l.caller.client.nextId l
      (.caller (.request .transfer (Gateway.downloadRequest path)) :: ms) l₁) :
    Link.Delivers g.server l₁ (l₁.transfer? l.caller.client.nextId)
      (· = ⟨some (declaredLength data), data⟩) := by
  obtain ⟨-, hshort⟩ := Disk.path_of_named hpath.named
  have hlength := Gateway.length_path_le hshort
  let d := Gateway.downloading l.caller.client.nextId path n data
  have hfits : (Payload.toBytes d.request).length ≤ Frame.maxPayload := by
    have hpayload := PathRequest.length_toBytes ⟨path⟩
    have hnames : 24 + (Text.Utf8.encode "filesystem").length +
        (Text.Utf8.encode "download").length + (8 + 4 * Disk.maxPath) ≤ Frame.maxPayload := by
      decide
    show (Payload.toBytes (Gateway.downloadRequest path)).length ≤ _
    rw [CallRequest.length_toBytes, Gateway.downloadRequest, hpayload]
    dsimp only
    omega
  have hrequest : (Payload.ofBytes (Payload.toBytes d.request) : Except GatewayError CallRequest) =
      .ok d.request := CallRequest.ofBytes_toBytes (Nat.lt_of_le_of_lt hfits (by decide))
  have hpath8 : (Text.Utf8.encode path).length < Bytes.bound 8 :=
    Nat.lt_of_le_of_lt hlength (by decide)
  have haccept := g.accept_download hpath8
  obtain ⟨e, hstep, hnumbers, hquiet⟩ := hrun.first
  have hbegun : Link.Converses d g.server (Workspace.sight path) .transfer e :=
    hsound.converses_request rfl rfl rfl hfits (fun _ _ => Exchange.not_isSpoiled) haccept
      (leads_download hpath) hstep hnumbers
  have hend := hbegun.quiet sending_keptBy hrequest hquiet
  exact hend.delivers g.steadfast Gateway.asks_downloading fun status hstatus =>
    ⟨_, Answer.transfer_of_messages rfl hstatus hsize, rfl⟩

/-- How a gateway takes an upload, and a download of one path, written out. -/
theorem server_eq (g : Gateway) {path : String} (hpath : (Text.Utf8.encode path).length < Bytes.bound 8) :
    g.server = ⟨.standard, g.handler, fun r =>
      if r = Gateway.uploadRequest then .ok (pure (.uploading (.new .save)))
      else if r = Gateway.downloadRequest path then .ok (Gateway.download path)
      else g.accept r⟩ := by
  refine congrArg (Server.mk .standard g.handler) (funext fun r => ?_)
  split
  · next hr => rw [hr, g.accept_upload]
  · split
    · next hr => rw [hr, g.accept_download hpath]
    · rfl

end

end DeviceGateway
