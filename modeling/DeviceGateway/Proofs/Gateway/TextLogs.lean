import DeviceGateway.Gateway.Handlers
import DeviceGateway.Proofs.FileSystem.Contents
import DeviceGateway.Proofs.Gateway.TextReplies

/-!
# Text files as logs

A file that is only created, written, appended to, deleted and read is a log: it holds the last text
that took the place of everything, or what was there at first, and behind it all that has been
appended since (`log`). One more request changes the log by one step (`log_snoc`), and it does so on
the disk (`Order.serves`), whatever is done under other paths. So the files are logs after any sequence of
requests (`text_files_are_logs`).
-/

namespace DeviceGateway.Files

open Text

/-! ## Logs -/

/-- **What is asked for** under the path of a file. -/
inductive Edit where
  | create
  | write (mode : TextMode) (text : String)
  | delete
  | read
  deriving DecidableEq, Repr

namespace Edit

/-- What was there before does not matter any more. -/
def restarts : Edit → Bool
  | write .replace _ | delete => true
  | _ => false

/-- What there is after a new start. -/
def start? : Edit → Option Bytes
  | write _ text => some (Utf8.encode text)
  | _ => none

/-- There is a file afterwards, whether there was one or not. -/
def makes : Edit → Bool
  | create | write .. => true
  | _ => false

def appended : Edit → Bytes
  | write .append text => Utf8.encode text
  | _ => []

/-- **What one edit makes of what a file holds.** -/
def next : Edit → Option Bytes → Option Bytes
  | create, held => some (held.getD [])
  | write .replace text, _ => some (Utf8.encode text)
  | write .append text, held => some (held.getD [] ++ Utf8.encode text)
  | delete, _ => none
  | read, held => held

/-- Whether an edit can be done to what a file holds. A file that is too large is not read. -/
def possible : Edit → Option Bytes → Bool
  | create, _ | write .., _ => true
  | delete, held => held.isSome
  | read, held => held.any fun data => data.length < textLimit

end Edit

open Edit

variable {initial : Option Bytes} {es : List Edit} {e : Edit}

/-- What a file held when it was last started anew, or else at first. -/
def base (initial : Option Bytes) (es : List Edit) : Option Bytes :=
  match es.reverse.find? restarts with
  | some e => e.start?
  | none => initial

/-- The edits since then. -/
def later (es : List Edit) : List Edit := (es.reverse.takeWhile fun e => !e.restarts).reverse

/-- **What a file holds after some edits**: what it held when it was last started anew, and behind it all
texts that have been appended since. Without a file to start with there is one when an edit has
made it. -/
def log (initial : Option Bytes) (es : List Edit) : Option Bytes :=
  if (base initial es).isSome || (later es).any makes then
    some ((base initial es).getD [] ++ (later es).flatMap appended)
  else none

theorem log_nil (initial : Option Bytes) : log initial [] = initial := by
  cases initial with
  | none => rfl
  | some data => exact congrArg some (List.append_nil data)

section

variable (he : e.restarts = true)
include he

theorem base_restart : base initial (es ++ [e]) = e.start? := by
  rw [base, List.reverse_concat, List.find?_cons_of_pos he]

theorem later_restart : later (es ++ [e]) = [] := by
  rw [later, List.reverse_concat, List.takeWhile_cons_of_neg (by rw [he]; decide)]
  rfl

end

section

variable (he : e.restarts = false)
include he

theorem base_concat : base initial (es ++ [e]) = base initial es := by
  rw [base, List.reverse_concat, List.find?_cons_of_neg (by rw [he]; decide), base]

theorem later_concat : later (es ++ [e]) = later es ++ [e] := by
  rw [later, List.reverse_concat, List.takeWhile_cons_of_pos (by rw [he]; decide),
    List.reverse_cons, later]

end

/-- Whether there is a file or not, what has been appended is what there is to read. -/
theorem getD_log (initial : Option Bytes) (es : List Edit) :
    (log initial es).getD [] = (base initial es).getD [] ++ (later es).flatMap appended := by
  unfold log
  split
  · rfl
  · next hno =>
    rw [Bool.not_eq_true, Bool.or_eq_false_iff, Option.isSome_eq_false_iff,
      Option.isNone_iff_eq_none, List.any_eq_false] at hno
    have hnothing : (later es).flatMap appended = [] := by
      refine List.flatMap_eq_nil_iff.2 fun e he => ?_
      have hmakes := hno.2 e he
      cases e with
      | write mode text => exact absurd rfl hmakes
      | _ => rfl
    rw [hno.1, hnothing]
    rfl

/-- An edit that makes a file and does not start it anew leaves it with what it appends. -/
theorem log_makes (he : e.restarts = false) (hm : e.makes = true) :
    log initial (es ++ [e]) = some ((log initial es).getD [] ++ e.appended) := by
  rw [getD_log, log, base_concat he, later_concat he, if_pos, List.flatMap_append,
    List.flatMap_singleton, List.append_assoc]
  rw [List.any_append, List.any_cons, hm, Bool.true_or, Bool.or_true, Bool.or_true]

/-- **One more edit** changes the log by one step. -/
theorem log_snoc (initial : Option Bytes) (es : List Edit) (e : Edit) :
    log initial (es ++ [e]) = e.next (log initial es) := by
  cases e with
  | create => exact (log_makes rfl rfl).trans (congrArg some (List.append_nil _))
  | write mode text =>
      cases mode with
      | replace =>
          rw [log, base_restart rfl, later_restart rfl]
          exact congrArg some (List.append_nil _)
      | append => exact log_makes rfl rfl
  | delete =>
      rw [log, base_restart rfl, later_restart rfl]
      rfl
  | read =>
      rw [log, base_concat rfl, later_concat rfl, List.any_append, List.flatMap_append]
      simp only [List.any_cons, List.any_nil, makes, List.flatMap_cons, List.flatMap_nil, appended,
        List.append_nil, Bool.or_false, next]
      rfl

theorem log_eq_foldl (initial : Option Bytes) (es : List Edit) :
    log initial es = es.foldl (fun held e => e.next held) initial := by
  induction es using List.reverseRecOn with
  | nil => exact log_nil initial
  | append_singleton es e ih => rw [log_snoc, ih, List.foldl_concat]

/-- **A log that is continued** after its first edit. -/
theorem log_cons (initial : Option Bytes) (e : Edit) (es : List Edit) :
    log initial (e :: es) = log (e.next initial) es := by
  rw [log_eq_foldl, log_eq_foldl, List.foldl_cons]

/-! ## Requests -/

/-- **An order**: an edit of the file under a path. -/
structure Order where
  path : String
  edit : Edit
  deriving DecidableEq, Repr

namespace Order

def method (o : Order) : String :=
  match o.edit with
  | .create => "create-file"
  | .write .replace _ => "write-text"
  | .write .append _ => "append-text"
  | .delete => "delete-file"
  | .read => "read-text"

/-- The request that is sent for an order. -/
def request (o : Order) : Bytes :=
  match o.edit with
  | .write _ text => Payload.toBytes (⟨o.path, text⟩ : TextRequest)
  | _ => Payload.toBytes (⟨o.path⟩ : PathRequest)

/-- What the gateway does for it. -/
def work (o : Order) : Gateway.Work HandlerState := Gateway.fileMethod o.method o.request

end Order

/-- The work came to a reply. -/
def answered : HandlerState → Bool
  | .replying _ => true
  | _ => false

/-- **Carries out orders one after the other**: those that were answered, and the world after all. -/
def carryOut (w : GatewayWorld) : List Order → List Order × GatewayWorld
  | [] => ([], w)
  | o :: rest =>
    let (done, w') := carryOut (o.work.run w).2 rest
    (if answered (o.work.run w).1 then o :: done else done, w')

/-- What was done to the file at a place. -/
def editsAt (d : Disk) (q : Place) (orders : List Order) : List Edit :=
  (orders.filter fun o => d.filePlace? o.path = some q).map (·.edit)

/-! ## One request -/

section

variable {d' : Disk} {place : Place} {path text : String} {n : Nat} {w w' : GatewayWorld}

/-- What goes into an open file stands behind what it holds. If it is to take the place of that, the
file has been emptied. -/
theorem TextMode.sets_put {d : Disk} (mode : TextMode) (ht : d.Tidy)
    (hn : d.node? place = some (.file n)) (hempty : mode = .replace → (d.body n).data = [])
    (data : Bytes) : d.Sets place (some ((d.body n).data ++ data)) (mode.put d n data) := by
  unfold TextMode.put
  split
  · next hnil =>
    have hsame := ht.sets_refl place
    rw [List.isEmpty_iff.1 hnil, List.append_nil, ← Disk.content?_of_file hn]
    exact hsame
  · cases mode with
    | replace =>
        have hsets := ht.sets_modifyBody hn fun b => ⟨Disk.splice b.data 0 data, d.clock⟩
        have hold := hempty rfl
        dsimp only at hsets
        rw [hold] at hsets ⊢
        rwa [show Disk.splice [] 0 data = [] ++ data from Disk.splice_at_end [] data] at hsets
    | append => exact ht.sets_modifyBody hn fun b => ⟨b.data ++ data, d.clock⟩

/-- What is opened and then written to holds what was left of it, and behind it the data. -/
theorem TextMode.sets_write {d d₁ : Disk} (mode : TextMode)
    (hsets : d.Sets place (some (mode.openMode.leaves (d.content? place))) d₁)
    (hn : d₁.node? place = some (.file n)) (text : String) :
    d.Sets place ((Edit.write mode text).next (d.content? place))
      (mode.put d₁ n (Utf8.encode text)) := by
  have hleft := hsets.content
  rw [Disk.content?_of_file hn, Option.some.injEq] at hleft
  have hput := mode.sets_put hsets.tidy hn (fun hmode => by rw [hleft, hmode]; rfl) (Utf8.encode text)
  rw [hleft] at hput
  have hall := hsets.trans hput
  cases mode with
  | replace => exact hall
  | append => exact hall

/-! ### The work -/

theorem run_createFile {ι : Type} {w : Workspace ι}
    (h : w.disk.openForWriting .keep path = .ok (n, d')) :
    (createFile path).run w = (done s!"created {path}", { w with disk := d' }) := by
  simp only [createFile, Job.run_bind, Job.run_ask, Workspace.onDisk, h, Job.run_pure]

theorem run_writeText {ι : Type} {w : Workspace ι} (mode : TextMode)
    (h : w.disk.openForWriting mode.openMode path = .ok (n, d')) :
    (writeText mode ⟨path, text⟩).run w =
      (done s!"{mode.verb} {(Utf8.encode text).length} bytes to {path}",
        { w with disk := mode.put d' n (Utf8.encode text) }) := by
  simp only [writeText, Job.run_bind, Job.run_ask, Workspace.onDisk, h, Job.run_pure]

theorem run_deleteFile {ι : Type} {w : Workspace ι} (h : w.disk.removeFile path = .ok d') :
    (deleteFile path).run w = (done s!"deleted {path}", { w with disk := d' }) := by
  simp only [deleteFile, change, Job.run_bind, Job.run_ask, Workspace.onDisk, h, Except.map,
    Job.run_pure]

theorem run_deleteFile_of_fault {ι : Type} {w : Workspace ι} {fault : FileFault}
    (h : w.disk.removeFile path = .error fault) :
    (deleteFile path).run w = (.error (fault.toErrorAt path), w) := by
  simp only [deleteFile, change, Job.run_bind, Job.run_ask, Workspace.onDisk, h, Except.map,
    Job.run_pure]

theorem run_readText {ι : Type} {w : Workspace ι} (hp : w.disk.filePlace? path = some place)
    (hn : w.disk.node? place = some (.file n)) :
    (readText path).run w = (textAnswer path (w.disk.body n).data, w) := by
  have hfind : w.disk.find path = .ok (place, .file n) := by
    rw [Disk.find_of_filePlace? hp, hn]
  have hdata := Disk.fileData_of_file hp hn
  simp only [readText, look, Job.run_bind, Job.run_ask, hfind, Except.map, nodeSize, textAnswer]
  split
  · rfl
  · simp only [Job.run_bind, Job.run_ask, hdata, Job.run_pure]

theorem run_readText_of_nothing {ι : Type} {w : Workspace ι}
    (hp : w.disk.filePlace? path = some place) (hn : w.disk.node? place = none) :
    (readText path).run w = (.error (FileFault.missing.toErrorAt path), w) := by
  have hfind : w.disk.find path = .error .missing := by
    rw [Disk.find_of_filePlace? hp, hn]
  simp only [readText, look, Job.run_bind, Job.run_ask, hfind, Except.map, Job.run_pure]

/-! ### The call -/

/-- **The requests of an order** are about the path of a file, whether there is one or not, and go
into a frame. -/
structure Order.IsFor (o : Order) (d : Disk) (place : Place) : Prop where
  fits : o.request.length ≤ Frame.maxPayload
  named : d.filePlace? o.path = some place
  free : ∀ m, d.node? place ≠ some (.directory m)

theorem Order.IsFor.of_nothing {d : Disk} {o : Order} (h : o.request.length ≤ Frame.maxPayload ∧
    d.filePlace? o.path = some place ∧ d.node? place = none) : o.IsFor d place := by
  refine ⟨h.1, h.2.1, fun m hm => ?_⟩
  cases h.2.2.symm.trans hm

theorem Order.IsFor.kept {d : Disk} {o : Order} (h : o.IsFor d place)
    (hsame : d.SameDirectories d') : o.IsFor d' place where
  fits := h.fits
  named := (Disk.filePlace?_of_same hsame o.path).trans h.named
  free m hm := h.free m ((hsame.directory place m).1 hm)

/-- Where a call stands when its work has an answer. -/
def settled {α : Type} [Payload α] : Answer α → HandlerState
  | .error e => .ending (.error e)
  | .ok a => .replying (Payload.toBytes a)

theorem run_reply {α : Type} [Payload α] {work : Gateway.Work (Answer α)} {answer : Answer α}
    (h : work.run w = (answer, w')) : (Gateway.reply work).run w = (settled answer, w') := by
  simp only [Gateway.reply, Job.run_bind, h]
  cases answer <;> rfl

/-- **How an order comes out.** It is answered if it is possible, and then the file at its place
holds what the edit makes of it. Nothing differs elsewhere, and nothing at all if the order is
refused, if a file is read, or if one is to be created that is there. A text is read as it is, if the
reply goes into a frame. -/
structure Order.Serves (o : Order) (place : Place) (w : GatewayWorld) (state : HandlerState)
    (w' : GatewayWorld) : Prop where
  accepted : answered state = o.edit.possible (w.disk.content? place)
  sets : w.disk.Sets place (o.edit.next (w.disk.content? place)) w'.disk
  installs : w'.installs = w.installs
  refused : answered state = false → w' = w
  created : o.edit = .create → (w.disk.content? place).isSome = true → w' = w
  read : o.edit = .read → w' = w
  text : o.edit = .read → ∀ data text, w.disk.content? place = some data →
    Utf8.decode data = .ok text →
    (Payload.toBytes (⟨text⟩ : TextReply)).length ≤ Frame.maxPayload →
    state = .replying (Payload.toBytes (⟨text⟩ : TextReply))

section

variable {edit : Edit} {state : HandlerState}

/-- Requests for a path are read back. -/
theorem withRequest_path {next : PathRequest → Gateway.Work HandlerState}
    (h : (Payload.toBytes (⟨path⟩ : PathRequest)).length ≤ Frame.maxPayload) :
    Gateway.withRequest (Payload.toBytes (⟨path⟩ : PathRequest)) next = next ⟨path⟩ := by
  have hbound : Frame.maxPayload < Bytes.bound 8 := by decide
  rw [PathRequest.length_toBytes] at h
  rw [Gateway.withRequest, PathRequest.ofBytes_toBytes]
  exact Nat.lt_of_le_of_lt (Nat.le_trans (Nat.le_add_left _ _) h) hbound

theorem withRequest_text {next : TextRequest → Gateway.Work HandlerState}
    (h : (Payload.toBytes (⟨path, text⟩ : TextRequest)).length ≤ Frame.maxPayload) :
    Gateway.withRequest (Payload.toBytes (⟨path, text⟩ : TextRequest)) next = next ⟨path, text⟩ := by
  have hbound : Frame.maxPayload < Bytes.bound 8 := by decide
  rw [Gateway.withRequest,
    TextRequest.ofBytes_toBytes (r := ⟨path, text⟩) (Nat.lt_of_le_of_lt h hbound)]

/-- An order that changes the file and was carried out. -/
theorem Order.Serves.of_done {a : OperationStatus}
    (hpossible : edit.possible (w.disk.content? place) = true)
    (hsets : w.disk.Sets place (edit.next (w.disk.content? place)) d') (hread : edit ≠ .read)
    (hcreated : edit = .create → (w.disk.content? place).isSome = true → d' = w.disk) :
    (⟨path, edit⟩ : Order).Serves place w (settled (.ok a)) { w with disk := d' } where
  accepted := hpossible.symm
  sets := hsets
  installs := rfl
  refused h := by cases h
  created he hthere := by rw [hcreated he hthere]
  read he := absurd he hread
  text he := absurd he hread

/-- An order for a file that is not there. -/
theorem Order.Serves.of_nothing {e : GatewayError} (ht : w.disk.Tidy)
    (hno : w.disk.content? place = none) (hpossible : edit.possible none = false)
    (hnext : edit.next none = none) :
    (⟨path, edit⟩ : Order).Serves place w (.ending (.error e)) w where
  accepted := by
    rw [hno]
    exact hpossible.symm
  sets := by
    have hsame := ht.sets_refl place
    rw [hno] at hsame ⊢
    rwa [show (⟨path, edit⟩ : Order).edit.next none = none from hnext]
  installs := rfl
  refused _ := rfl
  created _ _ := rfl
  read _ := rfl
  text _ data text hdata := by cases hno.symm.trans hdata

end

section

variable (ht : w.disk.Tidy)
include ht

theorem serves_create (ho : (⟨path, .create⟩ : Order).IsFor w.disk place) :
    (⟨path, .create⟩ : Order).Serves place w ((⟨path, .create⟩ : Order).work.run w).1
      ((⟨path, .create⟩ : Order).work.run w).2 := by
  obtain ⟨n, d', hopen, hsets, -⟩ := ht.opens ho.named ho.free .keep (by decide)
  have hwork : (⟨path, .create⟩ : Order).work = Gateway.reply (createFile path) :=
    withRequest_path ho.fits
  rw [hwork, run_reply (run_createFile hopen)]
  refine .of_done rfl hsets (fun h => by cases h) fun _ hthere => ?_
  -- If there is a file, it is opened and nothing else is done.
  cases hn : w.disk.node? place with
  | none =>
      rw [Disk.content?_of_nothing hn] at hthere
      cases hthere
  | some node =>
      cases node with
      | directory m => exact absurd hn (ho.free m)
      | file k =>
          rw [(Disk.openForWriting_of_file ho.named hn).1] at hopen
          cases hopen
          rfl

theorem serves_write (mode : TextMode)
    (ho : (⟨path, .write mode text⟩ : Order).IsFor w.disk place) :
    (⟨path, .write mode text⟩ : Order).Serves place w
      ((⟨path, .write mode text⟩ : Order).work.run w).1
      ((⟨path, .write mode text⟩ : Order).work.run w).2 := by
  obtain ⟨n, d', hopen, hsets, hn⟩ :=
    ht.opens ho.named ho.free mode.openMode (by cases mode <;> decide)
  have hwork : (⟨path, .write mode text⟩ : Order).work =
      Gateway.reply (writeText mode ⟨path, text⟩) := by
    cases mode with
    | replace => exact withRequest_text ho.fits
    | append => exact withRequest_text ho.fits
  rw [hwork, run_reply (run_writeText mode hopen)]
  exact .of_done rfl (mode.sets_write hsets hn text) (fun h => by cases h) fun h => by cases h

theorem serves_delete (ho : (⟨path, .delete⟩ : Order).IsFor w.disk place) :
    (⟨path, .delete⟩ : Order).Serves place w ((⟨path, .delete⟩ : Order).work.run w).1
      ((⟨path, .delete⟩ : Order).work.run w).2 := by
  have hwork : (⟨path, .delete⟩ : Order).work = Gateway.reply (deleteFile path) :=
    withRequest_path ho.fits
  have hremoved := Disk.removeFile_of_filePlace? ho.named
  cases hn : w.disk.node? place with
  | none =>
      rw [hn] at hremoved
      rw [hwork, run_reply (run_deleteFile_of_fault hremoved)]
      exact .of_nothing ht (Disk.content?_of_nothing hn) rfl rfl
  | some node =>
      cases node with
      | directory m => exact absurd hn (ho.free m)
      | file n =>
          rw [hn] at hremoved
          rw [hwork, run_reply (run_deleteFile hremoved)]
          refine .of_done ?_ (ht.sets_erase hn (Disk.ne_root_of_filePlace? ho.named))
            (fun h => by cases h) fun h => by cases h
          rw [Disk.content?_of_file hn]
          rfl

theorem serves_read (ho : (⟨path, .read⟩ : Order).IsFor w.disk place) :
    (⟨path, .read⟩ : Order).Serves place w ((⟨path, .read⟩ : Order).work.run w).1
      ((⟨path, .read⟩ : Order).work.run w).2 := by
  have hwork : (⟨path, .read⟩ : Order).work = Gateway.reply (readText path) :=
    withRequest_path ho.fits
  cases hn : w.disk.node? place with
  | none =>
      rw [hwork, run_reply (run_readText_of_nothing ho.named hn)]
      exact .of_nothing ht (Disk.content?_of_nothing hn) rfl rfl
  | some node =>
      cases node with
      | directory m => exact absurd hn (ho.free m)
      | file n =>
          have hheld := Disk.content?_of_file hn
          rw [hwork, run_reply (run_readText ho.named hn)]
          refine ⟨?_, ht.sets_refl place, rfl, fun _ => rfl, fun _ _ => rfl, fun _ => rfl, ?_⟩
          · rw [hheld, textAnswer]
            split
            · next hlarge => exact (decide_eq_false (Nat.not_lt.2 hlarge)).symm
            · next hsmall => exact (decide_eq_true (Nat.lt_of_not_le hsmall)).symm
          · -- A reply that goes into a frame holds no text that is too large to be read.
            intro _ data text hdata htext hfits
            cases hheld.symm.trans hdata
            have hread := Utf8.decodeLossy_encode text
            rw [← Utf8.eq_encode_of_decode htext] at hread
            have hreply : textReply (w.disk.body n).data = Payload.toBytes (⟨text⟩ : TextReply) := by
              rw [textReply, hread]
            rw [← hreply, textReply_fits_of_text htext] at hfits
            have hsmall : ¬ textLimit ≤ (w.disk.body n).data.length := by omega
            rw [textAnswer, if_neg hsmall, ← hreply]
            rfl

/-- **Every order is served**, whatever it asks for. -/
theorem Order.serves (o : Order) (ho : o.IsFor w.disk place) :
    o.Serves place w (o.work.run w).1 (o.work.run w).2 := by
  obtain ⟨path, edit⟩ := o
  cases edit with
  | create => exact serves_create ht ho
  | write mode text => exact serves_write ht mode ho
  | delete => exact serves_delete ht ho
  | read => exact serves_read ht ho

end

/-! ## Orders one after the other -/

theorem editsAt_cons {d : Disk} {q : Place} {o : Order} {orders : List Order}
    (hp : d.filePlace? o.path = some place) :
    editsAt d q (o :: orders) =
      if q = place then o.edit :: editsAt d q orders else editsAt d q orders := by
  unfold editsAt
  rw [List.filter_cons, hp]
  by_cases hq : q = place
  · rw [hq, if_pos rfl, if_pos (decide_eq_true rfl), List.map_cons]
  · rw [if_neg hq, if_neg]
    intro h
    exact hq (Option.some.inj (of_decide_eq_true h)).symm

/-- As long as the directories stay, it is the same edits. -/
theorem editsAt_of_same {d : Disk} (h : d.SameDirectories d') (q : Place) (orders : List Order) :
    editsAt d' q orders = editsAt d q orders := by
  unfold editsAt
  simp only [Disk.filePlace?_of_same h]

theorem tidy_carryOut {orders : List Order} (ht : w.disk.Tidy)
    (h : ∀ o ∈ orders, ∃ place, o.IsFor w.disk place) :
    (carryOut w orders).2.disk.Tidy ∧ w.disk.SameDirectories (carryOut w orders).2.disk := by
  induction orders generalizing w with
  | nil => exact ⟨ht, .refl _⟩
  | cons o rest ih =>
      obtain ⟨place, ho⟩ := h o List.mem_cons_self
      have hsets := (o.serves ht ho).sets
      have hsame := hsets.same.directories
      obtain ⟨htidy, hrest⟩ := ih hsets.tidy fun o' ho' => by
        obtain ⟨place', hfor⟩ := h o' (List.mem_cons_of_mem _ ho')
        exact ⟨place', hfor.kept hsame⟩
      exact ⟨htidy, hsame.trans hrest⟩

/-- **Every file is the log of what was done to it.** -/
theorem content?_carryOut {orders : List Order} (ht : w.disk.Tidy)
    (h : ∀ o ∈ orders, ∃ place, o.IsFor w.disk place) (q : Place) :
    (carryOut w orders).2.disk.content? q =
      log (w.disk.content? q) (editsAt w.disk q (carryOut w orders).1) := by
  induction orders generalizing w with
  | nil => exact (log_nil _).symm
  | cons o rest ih =>
      obtain ⟨place, ho⟩ := h o List.mem_cons_self
      have hserves := o.serves ht ho
      have hsame := hserves.sets.same.directories
      have hrest := ih hserves.sets.tidy fun o' ho' => by
        obtain ⟨place', hfor⟩ := h o' (List.mem_cons_of_mem _ ho')
        exact ⟨place', hfor.kept hsame⟩
      rw [editsAt_of_same hsame] at hrest
      simp only [carryOut]
      rw [hrest]
      split
      · rw [editsAt_cons ho.named]
        split
        · next hq => rw [log_cons, hq, hserves.sets.content]
        · next hq => rw [hserves.sets.same.content? hq]
      · next hno => rw [hserves.refused (eq_false_of_ne_true hno)]

/-- **Text files are logs.** After any orders for paths of files, whether there are files or not, each
file holds the last text that was written to it, or what it held at first, and behind it all that
has been appended since. The next order is served in the same way. -/
theorem text_files_are_logs (w : GatewayWorld) (orders : List Order) (ht : w.disk.Tidy)
    (h : ∀ o ∈ orders, ∃ place, o.IsFor w.disk place) :
    (∀ q, (carryOut w orders).2.disk.content? q =
      log (w.disk.content? q) (editsAt w.disk q (carryOut w orders).1)) ∧
    ∀ (o : Order) (place : Place), o.IsFor w.disk place →
      o.Serves place (carryOut w orders).2 (o.work.run (carryOut w orders).2).1
        (o.work.run (carryOut w orders).2).2 := by
  obtain ⟨htidy, hsame⟩ := tidy_carryOut ht h
  exact ⟨content?_carryOut ht h, fun o place ho => o.serves htidy (ho.kept hsame)⟩

end

/-- A log under two spellings of its path, and a file that is deleted twice. -/
def notes : List Order :=
  [⟨"notes", .write .append "draft"⟩, ⟨"notes", .write .replace "one "⟩, ⟨"spare", .create⟩,
    ⟨"./notes", .write .append "two"⟩, ⟨"notes", .create⟩, ⟨"spare", .delete⟩, ⟨"spare", .delete⟩]

/-- Nothing but a working directory. -/
def blank : GatewayWorld := ⟨.ofClock 0, .new⟩

/-- The log is kept, the other file is gone, and the text is read. -/
theorem notes_are_kept :
    blank.disk.Tidy ∧ (∀ o ∈ notes, ∃ place, o.IsFor blank.disk place) ∧
    (carryOut blank notes).2.disk.content? ["work", "notes"] = some (Utf8.encode "one two") ∧
    (carryOut blank notes).2.disk.content? ["work", "spare"] = none ∧
    ((⟨"notes", .read⟩ : Order).work.run (carryOut blank notes).2).1 =
      .replying (Payload.toBytes (⟨"one two"⟩ : TextReply)) := by
  have htidy : blank.disk.Tidy := Disk.tidy_ofClock 0
  have hfor : ∀ o ∈ notes, ∃ place, o.IsFor blank.disk place := by
    have hplaces : ∀ o ∈ notes, ∃ place ∈ [["work", "notes"], ["work", "spare"]],
        o.request.length ≤ Frame.maxPayload ∧ blank.disk.filePlace? o.path = some place ∧
          blank.disk.node? place = none := by decide +kernel
    intro o ho
    obtain ⟨place, -, hplace⟩ := hplaces o ho
    exact ⟨place, .of_nothing hplace⟩
  have hread : (⟨"notes", .read⟩ : Order).IsFor blank.disk ["work", "notes"] :=
    .of_nothing (by decide +kernel)
  obtain ⟨hlog, hserves⟩ := text_files_are_logs blank notes htidy hfor
  have hnotes : (carryOut blank notes).2.disk.content? ["work", "notes"] =
      some (Utf8.encode "one two") := by
    rw [hlog]
    decide +kernel
  refine ⟨htidy, hfor, hnotes, ?_, ?_⟩
  · rw [hlog]
    decide +kernel
  · exact (hserves _ _ hread).text rfl _ "one two" hnotes (by decide +kernel) (by decide +kernel)

end DeviceGateway.Files
