import DeviceGateway.Proofs.Gateway.Settling
import DeviceGateway.Proofs.Gateway.Shapes
import DeviceGateway.Proofs.Server.ReadyAnswers

/-!
# Texts that are asked for

The text of a file is asked for with its path, and files of a certain size on are refused. A file that
is smaller is read lossily, and its text goes into one reply. But a frame is no larger than the files
that are refused, and the reply takes eight octets more than the text, and the text may be longer than
the file (`Files.length_textReply`). So some files that are small enough have a text that is too long,
and are refused after all, in other words (`texts_are_answered`).
Files that are text have no such text unless they are within eight octets of the limit
(`Files.textReply_fits_of_text`), and others unless they are longer than a third of it
(`Files.textReply_fits_of_short`).
-/

namespace DeviceGateway

namespace Files

variable {path : String} {n : Nat} {data : Bytes}

/-- The reply that holds the text of a file. -/
def textReply (data : Bytes) : Bytes :=
  Payload.toBytes (⟨Text.Utf8.decodeLossy data⟩ : TextReply)

/-- The refusal of a file that is too large. -/
def tooLarge (path : String) (size : Nat) : GatewayError :=
  .other s!"file too large: {path} ({size} bytes)"

/-- **What comes of a file whose text is asked for.** -/
def textAnswer (path : String) (data : Bytes) : Answer TextReply :=
  if textLimit ≤ data.length then .error (tooLarge path data.length)
  else .ok ⟨Text.Utf8.decodeLossy data⟩

/-! ## How long the reply is -/

theorem length_textReply (data : Bytes) :
    (textReply data).length = 8 + (Text.Utf8.encode (Text.Utf8.decodeLossy data)).length := by
  show (Bytes.ofNatLE 8 _ ++ Text.Utf8.encode _).length = _
  rw [List.length_append, Bytes.length_ofNatLE]

theorem length_textReply_of_text (text : String) :
    (textReply (Text.Utf8.encode text)).length = 8 + (Text.Utf8.encode text).length := by
  rw [length_textReply, Text.Utf8.decodeLossy_encode]

/-- **The reply to a file of text fits a frame** exactly up to eight octets below the limit. -/
theorem textReply_fits_of_text {text : String} (h : Text.Utf8.decode data = .ok text) :
    (textReply data).length ≤ Frame.maxPayload ↔ data.length + 8 ≤ textLimit := by
  obtain rfl := Text.Utf8.eq_encode_of_decode h
  rw [length_textReply_of_text, Nat.add_comm]
  exact Iff.rfl

/-- **The reply to a short file fits a frame**, whatever is in it. -/
theorem textReply_fits_of_short (h : 3 * data.length + 8 ≤ textLimit) :
    (textReply data).length ≤ Frame.maxPayload := by
  have hle := Text.Utf8.length_encode_decodeLossy_le data
  have hsame : textLimit = Frame.maxPayload := rfl
  rw [length_textReply]
  omega

/-! ## Statuses -/

theorem digits_le {size : Nat} (h : size < UInt64.size) : (toString size).length ≤ 20 :=
  (Nat.length_repr_le_iff (by decide)).2 (Nat.lt_of_lt_of_le h (by decide))

/-- The refusal of a file fits a frame. -/
theorem tooLarge_fits {size : Nat} (hshort : path.utf8ByteSize < Disk.maxPath)
    (hsize : size < UInt64.size) :
    (Status.ofResult (.error (tooLarge path size) : Except GatewayError Unit)).fits = true := by
  have hpath := length_le_of_short hshort
  have hdigits := digits_le hsize
  have hlength : (tooLarge path size).message.length = 25 + path.length + (toString size).length := by
    show ("file too large: " ++ path ++ " (" ++ toString size ++ " bytes)").length = _
    simp only [String.length_append]
    have h₁ : "file too large: ".length = 16 := by decide
    have h₂ : " (".length = 2 := by decide
    have h₃ : " bytes)".length = 7 := by decide
    omega
  have hlimit : Disk.maxPath = 4096 := rfl
  refine Status.fits_of_message_le ?_
  show 12 + 4 * (tooLarge path size).message.length ≤ 1048576
  omega

/-- The refusal of a reply fits a frame. -/
theorem payloadTooLarge_fits {size : Nat} (hsize : size < UInt64.size) :
    (Status.ofResult (.error (.payloadTooLarge size Frame.maxPayload) :
      Except GatewayError Unit)).fits = true := by
  have hdigits := digits_le hsize
  have hlength : (GatewayError.payloadTooLarge size Frame.maxPayload).message.length =
      39 + (toString size).length := by
    show ("payload too large: " ++ toString size ++ " bytes (max " ++ toString 1048576 ++ ")").length = _
    simp only [String.length_append]
    have h₁ : "payload too large: ".length = 19 := by decide
    have h₂ : " bytes (max ".length = 12 := by decide
    have h₃ : (toString 1048576).length = 7 := by decide
    have h₄ : ")".length = 1 := by decide
    omega
  refine Status.fits_of_message_le ?_
  show 12 + 4 * (GatewayError.payloadTooLarge size Frame.maxPayload).message.length ≤ 1048576
  omega

/-- **How a call ends that asks for a text** fits a frame. -/
theorem textAnswer_fits (hshort : path.utf8ByteSize < Disk.maxPath)
    (hsize : data.length < UInt64.size) :
    (Status.ofResult (delivered ((textAnswer path data).map Payload.toBytes)).2).fits = true := by
  unfold textAnswer
  split
  · exact tooLarge_fits hshort hsize
  · next hsmall =>
    show (Status.ofResult (delivered (.ok (textReply data))).2).fits = true
    unfold delivered
    dsimp only
    split
    · rfl
    · have hle := Text.Utf8.length_encode_decodeLossy_le data
      have hlimit : textLimit < 1048577 := by decide
      refine payloadTooLarge_fits (Nat.lt_of_le_of_lt (m := 8 + 3 * 1048576) ?_ (by decide))
      rw [length_textReply]
      omega

/-! ## What is said -/

open Connection

theorem words_of_fits (hsmall : data.length < textLimit)
    (hfits : (textReply data).length ≤ Frame.maxPayload) :
    answerWords ((textAnswer path data).map Payload.toBytes) =
      [(.message, textReply data), statusWord (.ok ())] := by
  rw [textAnswer, if_neg (Nat.not_le.2 hsmall)]
  show answerWords (.ok (textReply data)) = _
  rw [answerWords, delivered, if_pos hfits]
  rfl

theorem words_of_long (hsmall : data.length < textLimit)
    (hlong : Frame.maxPayload < (textReply data).length) :
    answerWords ((textAnswer path data).map Payload.toBytes) =
      [statusWord (.error (.payloadTooLarge (textReply data).length Frame.maxPayload))] := by
  rw [textAnswer, if_neg (Nat.not_le.2 hsmall)]
  show answerWords (.ok (textReply data)) = _
  rw [answerWords, delivered, if_neg (Nat.not_le.2 hlong)]
  rfl

theorem words_of_large (hlarge : textLimit ≤ data.length) :
    answerWords ((textAnswer path data).map Payload.toBytes) =
      [statusWord (.error (tooLarge path data.length))] := by
  rw [textAnswer, if_pos hlarge]
  rfl

end Files

namespace Gateway

variable {g : Gateway} {ν : Type} {path : String} {n : Nat} {data : Bytes}

/-! ## Handlers with one reply -/

/-- **A reply is ready** when the work for it has led to its answer. -/
theorem gives_reply {α : Type} [Payload α] {work : Work (Except GatewayError α)}
    {answer : Except GatewayError α} {view : GatewayWorld → ν} {seen : ν}
    (h : work.Leads view (fun a _ => a = answer) seen) :
    (reply work).Leads view
      (fun state _ => g.handler.Gives (answer.map Payload.toBytes) state) seen := by
  apply h.bind
  rintro a _ rfl
  cases a with
  | error e => exact .failed rfl
  | ok v => exact .message rfl fun sent => ⟨.ending sent, rfl, rfl⟩

theorem find_of_fileAt? {d : Disk} (h : d.fileAt? path = some (n, data)) :
    (∃ place, d.find path = .ok (place, .file n)) ∧ (d.body n).data = data := by
  unfold Disk.fileAt? at h
  split at h
  · next place m hfind =>
    cases h
    exact ⟨⟨place, hfind⟩, rfl⟩
  · cases h

/-- **The text of a file is read**, or the file is refused, as long as it stays as it is. -/
theorem leads_readText :
    (Files.readText path : Work _).Leads (fun w => w.disk.fileAt? path)
      (fun answer _ => answer = Files.textAnswer path data) (some (n, data)) := by
  unfold Files.readText
  apply (leads_look _).bind
  rintro size seen ⟨rfl, w, hw, rfl⟩
  obtain ⟨⟨place, hfind⟩, hdata⟩ := find_of_fileAt? hw
  simp only [hfind, Except.map, Files.nodeSize, hdata]
  split
  · next hlarge => exact (if_pos hlarge).symm
  · next hsmall =>
    apply (leads_look _).bind
    -- The file is looked for again, and is still the same.
    rintro found seen ⟨rfl, w', hw', rfl⟩
    obtain ⟨⟨place', hfind'⟩, hdata'⟩ := find_of_fileAt? hw'
    simp only [Disk.fileData, hfind', hdata']
    exact (if_neg hsmall).symm

/-! ## Calls -/

open Connection

/-- **A call that asks for the text of a file** comes to say what comes of it. -/
theorem comesToSay_of_readText (g : Gateway) (world : GatewayWorld) {before : List Connection.Move}
    {c : Connection GatewayWorld HandlerState} {f : Frame} {rest : Bytes} {r : CallRequest}
    (hreach : (start world).run? g.server before = some c) (hread : c.Reads g.server f rest)
    (hkind : f.kind = .call)
    (hp : (Payload.ofBytes f.payload : Except GatewayError CallRequest) = .ok r)
    (hfree : c.pool.contains f.callId = false) (hservice : r.service = "filesystem")
    (hmethod : r.method = "read-text")
    (hrequest : (Payload.ofBytes r.request : Except GatewayError PathRequest) = .ok ⟨path⟩)
    (hfile : c.shared.world.disk.fileAt? path = some (n, data)) :
    ∃ c', c.step? g.server .read = some c' ∧ ∀ ms d, c'.run? g.server ms = some d →
      (∀ e ∈ c'.visited g.server ms, e.pool.contains f.callId = true) →
      Throughout g.server (OthersLeave g.server (fun w => w.disk.fileAt? path) f.callId) c' ms →
      (∀ e ∈ c'.visited g.server ms, e.isCancelled f.callId = false) →
      d.shared.outbox.isOpen = true → data.length < UInt64.size →
      ComesToSay g.server f.callId
        (answerWords ((Files.textAnswer path data).map Payload.toBytes)) c' ms d := by
  have haccept : g.server.accept r = .ok (g.begin .filesystem r.method r.request) :=
    g.accept_of_method .filesystem hservice (by rw [hmethod]; decide)
  obtain ⟨c', hstep, hshared, hfound⟩ := starts_of_reads hread hkind hp hfree haccept
  refine ⟨c', hstep, fun ms d hr hin hothers hstays hopen hsize => ?_⟩
  obtain ⟨⟨place, hfind⟩, -⟩ := find_of_fileAt? hfile
  have hfits := Files.textAnswer_fits (Disk.short_of_find hfind) hsize
  have hroom : c'.shared.outbox.capacity = outboxCapacity := by
    rw [hshared]
    exact capacity_of_run? rfl hreach
  have hjob : (g.begin .filesystem r.method r.request).Leads
      (fun w : GatewayWorld => w.disk.fileAt? path)
      (fun state _ => g.server.handler.Gives ((Files.textAnswer path data).map Payload.toBytes) state)
      (c'.shared.world.disk.fileAt? path) := by
    rw [hshared, hfile, hmethod]
    show (withRequest r.request fun (p : PathRequest) => reply (Files.readText p.path)).Leads _ _ _
    rw [withRequest, hrequest]
    exact gives_reply leads_readText
  exact comesToSay_of_leads hjob hfound hfits (hroom ▸ by decide) hr hin hothers hstays hopen

/-- **What a caller gets that asks for the text of a file.** A file of the limit or more is refused. A
smaller one is answered with its text and an ok, if the reply fits a frame; otherwise the call fails
with nothing sent. -/
theorem texts_are_answered (g : Gateway) (world : GatewayWorld) {before : List Connection.Move}
    {c : Connection GatewayWorld HandlerState} {f : Frame} {rest : Bytes} {r : CallRequest}
    (hreach : (start world).run? g.server before = some c) (hread : c.Reads g.server f rest)
    (hkind : f.kind = .call)
    (hp : (Payload.ofBytes f.payload : Except GatewayError CallRequest) = .ok r)
    (hfree : c.pool.contains f.callId = false) (hservice : r.service = "filesystem")
    (hmethod : r.method = "read-text")
    (hrequest : (Payload.ofBytes r.request : Except GatewayError PathRequest) = .ok ⟨path⟩)
    (hfile : c.shared.world.disk.fileAt? path = some (n, data)) :
    ∃ c', c.step? g.server .read = some c' ∧ ∀ ms d, c'.run? g.server ms = some d →
      (∀ e ∈ c'.visited g.server ms, e.pool.contains f.callId = true) →
      Throughout g.server (OthersLeave g.server (fun w => w.disk.fileAt? path) f.callId) c' ms →
      (∀ e ∈ c'.visited g.server ms, e.isCancelled f.callId = false) →
      d.shared.outbox.isOpen = true →
      (data.length < Files.textLimit → (Files.textReply data).length ≤ Frame.maxPayload →
        ComesToSay g.server f.callId [(.message, Files.textReply data), statusWord (.ok ())] c' ms
          d) ∧
      (data.length < Files.textLimit → Frame.maxPayload < (Files.textReply data).length →
        ComesToSay g.server f.callId
          [statusWord (.error (.payloadTooLarge (Files.textReply data).length Frame.maxPayload))] c'
          ms d) ∧
      (Files.textLimit ≤ data.length → data.length < UInt64.size →
        ComesToSay g.server f.callId [statusWord (.error (Files.tooLarge path data.length))] c' ms
          d) := by
  obtain ⟨c', hstep, hall⟩ :=
    comesToSay_of_readText g world hreach hread hkind hp hfree hservice hmethod hrequest hfile
  refine ⟨c', hstep, fun ms d hr hin hothers hstays hopen => ?_⟩
  have hanswer := hall ms d hr hin hothers hstays hopen
  have hlimit : Files.textLimit ≤ UInt64.size := by decide
  refine ⟨fun hsmall hfits => ?_, fun hsmall hlong => ?_, fun hlarge hsize => ?_⟩
  · have hwords := hanswer (Nat.lt_of_lt_of_le hsmall hlimit)
    rwa [Files.words_of_fits hsmall hfits] at hwords
  · have hwords := hanswer (Nat.lt_of_lt_of_le hsmall hlimit)
    rwa [Files.words_of_long hsmall hlong] at hwords
  · have hwords := hanswer hsize
    rwa [Files.words_of_large hlarge] at hwords

/-! ### A note is read -/

/-- A file, and nothing else. -/
def noteWith (data : Bytes) : GatewayWorld where
  disk :=
    { nodes := [(["work"], .directory 0), (["work", "a"], .file 0)]
      bodies := [⟨data, 0⟩]
      here := ["work"]
      clock := 0 }
  installs := .new

theorem fileAt?_noteWith (data : Bytes) : (noteWith data).disk.fileAt? "a" = some (0, data) := by
  rfl

/-- Asks for the text of the file. -/
def readNote : CallRequest :=
  ⟨"filesystem", "read-text", Payload.toBytes (⟨"a"⟩ : PathRequest)⟩

def readNoteFrame : Frame := ⟨.call, 1, Payload.toBytes readNote, by decide⟩

/-- The call has been accepted. -/
def readingNote (data : Bytes) : Connection GatewayWorld HandlerState :=
  withCall (noteWith data) 1 (relativeGateway.begin .filesystem "read-text" readNote.request)

theorem ofBytes_readNoteFrame :
    (Payload.ofBytes readNoteFrame.payload : Except GatewayError CallRequest) = .ok readNote :=
  CallRequest.ofBytes_toBytes (by decide)

theorem ofBytes_readNote :
    (Payload.ofBytes readNote.request : Except GatewayError PathRequest) = .ok ⟨"a"⟩ :=
  PathRequest.ofBytes_toBytes (by decide)

theorem reads_readNoteFrame (data : Bytes) :
    (arrived (noteWith data) (readNoteFrame.toBytes .standard)).Reads relativeGateway.server
      readNoteFrame [] := reads_last rfl rfl

theorem step?_readNote (data : Bytes) :
    (arrived (noteWith data) (readNoteFrame.toBytes .standard)).step? relativeGateway.server .read =
      some (readingNote data) :=
  step?_arrived (s := relativeGateway.server) rfl ofBytes_readNoteFrame
    (relativeGateway.accept_of_method .filesystem rfl (by decide))

/-- The call is under way and has not been cancelled. -/
theorem waits_readingNote (data : Bytes) :
    ∀ e ∈ (readingNote data).visited relativeGateway.server [],
      e.pool.contains 1 = true ∧ e.isCancelled 1 = false := by
  intro e he
  rw [visited, List.mem_singleton] at he
  subst he
  exact ⟨rfl, rfl⟩

/-- A file of one letter is read. -/
theorem a_short_text_is_answered :
    ∃ c' ms d, (arrived (noteWith [65]) (readNoteFrame.toBytes .standard)).step?
        relativeGateway.server .read = some c' ∧
      c'.run? relativeGateway.server ms = some d ∧ d.isOver 1 = true ∧
      (c'.framesSaid relativeGateway.server 1 ms).map Frame.word =
        [(.message, Payload.toBytes (⟨"A"⟩ : TextReply)), statusWord (.ok ())] := by
  obtain ⟨c', hstep, hall⟩ := texts_are_answered relativeGateway (noteWith [65])
    (run?_arrive _ _) (reads_readNoteFrame [65]) rfl ofBytes_readNoteFrame rfl rfl rfl
    ofBytes_readNote (fileAt?_noteWith [65])
  obtain rfl : c' = readingNote [65] := Option.some.inj (hstep.symm.trans (step?_readNote [65]))
  have hwaits := waits_readingNote [65]
  have hread : Files.textReply [65] = Payload.toBytes (⟨"A"⟩ : TextReply) :=
    congrArg (fun text => Payload.toBytes (⟨text⟩ : TextReply)) (Text.Utf8.decodeLossy_encode "A")
  obtain ⟨hanswer, -, -⟩ := hall [] _ rfl (fun e he => (hwaits e he).1) trivial
    (fun e he => (hwaits e he).2) rfl
  obtain ⟨more, d, hmore, -, hover, hsaid⟩ := (hanswer (by decide) (by rw [hread]; decide)).comes
  exact ⟨_, more, d, hstep, hmore, hover, hread ▸ hsaid⟩

/-- **A file of text within eight octets of the limit** is below it and is refused. -/
theorem long_text_is_refused {m : Nat} (hsmall : m < Files.textLimit)
    (hlong : Files.textLimit < m + 8) :
    ∃ c' ms d, (arrived (noteWith (List.replicate m 97)) (readNoteFrame.toBytes .standard)).step?
        relativeGateway.server .read = some c' ∧
      c'.run? relativeGateway.server ms = some d ∧ d.isOver 1 = true ∧
      (c'.framesSaid relativeGateway.server 1 ms).map Frame.word =
        [statusWord (.error (.payloadTooLarge (8 + m) Frame.maxPayload))] := by
  have htext : Text.Utf8.encode (String.ofList (List.replicate m 'a')) = List.replicate m 97 := by
    have hchar : Text.Utf8.encodeChar 'a' = [97] := rfl
    rw [Text.Utf8.encode, String.toList_ofList, List.flatMap_replicate, hchar,
      List.flatten_replicate_singleton]
  have hlength : (Files.textReply (List.replicate m 97)).length = 8 + m := by
    rw [← htext, Files.length_textReply_of_text, htext, List.length_replicate]
  obtain ⟨c', hstep, hall⟩ := comesToSay_of_readText relativeGateway (noteWith (List.replicate m 97))
    (run?_arrive _ _) (reads_readNoteFrame _) rfl ofBytes_readNoteFrame rfl rfl rfl
    ofBytes_readNote (fileAt?_noteWith _)
  obtain rfl : c' = readingNote (List.replicate m 97) :=
    Option.some.inj (hstep.symm.trans (step?_readNote _))
  have hwaits := waits_readingNote (List.replicate m 97)
  have hlimit : Files.textLimit ≤ UInt64.size := by decide
  have hsmall' : (List.replicate m (97 : UInt8)).length < Files.textLimit := by
    rwa [List.length_replicate]
  have hlong' : Frame.maxPayload < (Files.textReply (List.replicate m 97)).length := by
    rw [hlength, Nat.add_comm]
    exact hlong
  have hanswer := hall [] _ rfl (fun e he => (hwaits e he).1) trivial (fun e he => (hwaits e he).2)
    rfl (Nat.lt_of_lt_of_le hsmall' hlimit)
  rw [Files.words_of_long hsmall' hlong', hlength] at hanswer
  obtain ⟨more, d, hmore, -, hover, hsaid⟩ := hanswer.comes
  exact ⟨_, more, d, hstep, hmore, hover, hsaid⟩

/-- A file that is one octet short of the limit is refused all the same. -/
theorem a_text_is_too_long_for_its_frame :
    (List.replicate 1048575 (97 : UInt8)).length < Files.textLimit ∧
    (noteWith (List.replicate 1048575 97)).disk.fileAt? "a" = some (0, List.replicate 1048575 97) ∧
    ∃ c' ms d, (arrived (noteWith (List.replicate 1048575 97))
        (readNoteFrame.toBytes .standard)).step? relativeGateway.server .read = some c' ∧
      c'.run? relativeGateway.server ms = some d ∧ d.isOver 1 = true ∧
      (c'.framesSaid relativeGateway.server 1 ms).map Frame.word =
        [statusWord (.error (.payloadTooLarge 1048583 Frame.maxPayload))] := by
  refine ⟨?_, fileAt?_noteWith _, long_text_is_refused (by decide) (by decide)⟩
  rw [List.length_replicate]
  decide

end Gateway

end DeviceGateway
