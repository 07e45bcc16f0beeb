import DeviceGateway.Gateway.Handlers
import DeviceGateway.Proofs.Call.Course
import DeviceGateway.Proofs.FileSystem.Sight
import DeviceGateway.Proofs.Upload.Saving
import DeviceGateway.Proofs.Wire.Layouts

/-!
# Receiving an upload

A session that saves works on the file that its path names, and looks at nothing else. If a file can
be made there, each operation does what it is for, whatever else happens on the disk between its
steps (`leads_accept_first`, `leads_take`, `leads_finish`). So a call that takes the chunks of an
upload is on a course from an empty file to one that holds all their data (`receiving_keptBy`).
-/

namespace DeviceGateway.Upload

variable {ι τ : Type}

/-! ## Sessions, step by step -/

theorem leads_removeFile {path : String} {seen : Sight} (hs : seen.Creatable)
    (hthere : seen.node.isSome = true) :
    (Job.ask (Workspace.onDisk fun d => (d.removeFile path).map ((), ·)) : Work ι _).Leads
      (Workspace.sight path) (fun removed s => removed = .ok () ∧ s.Vacant) seen := by
  rintro w rfl
  obtain ⟨d, hr, hd⟩ := Disk.removeFile_of_creatable hs hthere
  simp only [Workspace.onDisk, hr, Except.map]
  exact ⟨rfl, hd⟩

theorem leads_openForWriting {path : String} {seen : Sight} (hs : seen.Vacant) :
    (Job.ask (Workspace.onDisk (·.openForWriting .new path)) : Work ι _).Leads (Workspace.sight path)
      (fun opened s => ∃ n, opened = .ok n ∧ s.Holds n []) seen := by
  rintro w rfl
  obtain ⟨n, d, ho, hd⟩ := Disk.openForWriting_of_vacant hs
  have hopen : w.onDisk (·.openForWriting .new path) = (.ok n, { w with disk := d }) := by
    simp only [Workspace.onDisk, ho]
  refine ⟨n, congrArg Prod.fst hopen, ?_⟩
  show ((w.onDisk (·.openForWriting .new path)).2.disk.sight path).Holds n []
  rw [hopen]
  exact hd

/-- **A file is made** in place of the one that is there. -/
theorem leads_replaceFile {path : String} {seen : Sight} (hs : seen.Creatable) :
    (Sink.replaceFile path : Work ι (Except GatewayError (Sink τ))).Leads (Workspace.sight path)
      (fun opened s => ∃ n, opened = .ok (.file path n 0) ∧ s.Holds n []) seen := by
  unfold Sink.replaceFile
  refine Job.Leads.bind (m := fun there s => s.Creatable ∧ there = s.node.isSome) ?_ ?_
  · rintro w rfl
    exact ⟨hs, Disk.pathExists_of_named hs.named⟩
  rintro there s ⟨hs, rfl⟩
  split
  · next hthere =>
    refine (leads_removeFile hs hthere).bind ?_
    rintro _ s ⟨rfl, hv⟩
    refine (leads_openForWriting hv).bind ?_
    rintro _ s ⟨n, rfl, hn⟩
    exact ⟨n, rfl, hn⟩
  · next hfree =>
    refine (leads_openForWriting (hs.vacant (eq_false_of_ne_true hfree))).bind ?_
    rintro _ s ⟨n, rfl, hn⟩
    exact ⟨n, rfl, hn⟩

section

variable (i : Installer ι τ) {path : String} {n count : Nat} {data : Bytes} {seen : Sight}

/-- **The data of a chunk** goes behind what the file holds. -/
theorem leads_take (hs : seen.Holds n data) (more : Bytes) :
    ((Session.saving path n data.length count).take i more).Leads (Workspace.sight path)
      (fun r s => r = (.ok (), .saving path n (data ++ more).length (count + 1)) ∧
        s.Holds n (data ++ more)) seen := by
  unfold Session.take
  split
  · next he =>
    rw [List.isEmpty_iff.1 he, List.append_nil]
    exact ⟨rfl, hs⟩
  · simp only [Session.saving]
    refine Job.Leads.bind (m := fun r s => r = .ok (.file path n (data.length + more.length)) ∧
      s.Holds n (data ++ more)) (Job.Leads.guarded ?_) ?_
    · rintro w rfl
      exact ⟨rfl, Disk.holds_writeAt hs more⟩
    · rintro _ s ⟨rfl, hs⟩
      refine ⟨?_, hs⟩
      rw [List.length_append]

/-- **The first chunk** opens the file that it names. -/
theorem leads_accept_first (hs : seen.Creatable) (hne : path ≠ "") (more : Bytes) :
    ((Session.new .save).accept i ⟨some path, more⟩).Leads (Workspace.sight path)
      (fun r s => ∃ n, r = (.ok (), .saving path n more.length 1) ∧ s.Holds n more) seen := by
  simp only [Session.accept, Session.new, Session.openSink, if_neg hne]
  refine Job.Leads.bind (m := fun opened s => ∃ n, opened = .ok (some path, .file path n 0) ∧
    s.Holds n []) ?_ ?_
  · refine (leads_replaceFile hs).bind ?_
    rintro _ s ⟨n, rfl, hn⟩
    exact ⟨n, rfl, hn⟩
  · rintro _ s ⟨n, rfl, hn⟩
    have htake : ((Session.saving path n 0 0).take i more).Leads (Workspace.sight path)
        (fun r s => r = (.ok (), .saving path n more.length 1) ∧ s.Holds n more) s :=
      leads_take i hn more
    refine htake.mono ?_
    rintro r s ⟨rfl, hs⟩
    exact ⟨n, rfl, hs⟩

/-- **The end of the chunks**: the file is kept. -/
theorem leads_finish (hs : seen.Holds n data) :
    ((Session.saving path n data.length count).finish i).Leads (Workspace.sight path)
      (fun r s => r = .ok ⟨.save, some path, data.length, count⟩ ∧ s.Holds n data) seen := by
  simp only [Session.finish, Session.saving, Sink.close]
  refine Job.Leads.bind (m := fun r s => r = .ok () ∧ s.Holds n data) (Job.Leads.guarded ?_) ?_
  · rintro w rfl
    exact ⟨rfl, hs⟩
  · rintro _ s ⟨rfl, hs⟩
    exact ⟨rfl, hs⟩

end

/-! ## The call -/

/-- The data of chunks, in order. -/
def dataOf (chunks : List UploadChunk) : Bytes := chunks.flatMap (·.data)

/-- Chunks in their wire form. -/
def messagesOf (chunks : List UploadChunk) : List Bytes := chunks.map Payload.toBytes

/-- The receipt for chunks that have been saved at a path, in its wire form. -/
def receiptFor (path : String) (chunks : List UploadChunk) : Bytes :=
  Payload.toBytes (⟨some path, UInt64.ofNat (dataOf chunks).length⟩ : UploadReceipt)

/-- **What can be said of a call that receives chunks**, at each point where it waits. -/
inductive Receiving (path : String) (chunks : List UploadChunk) : Talk → HandlerState → Sight → Prop
  | idle {seen : Sight} (hs : seen.Creatable) :
      Receiving path chunks .begin (.uploading (.new .save)) seen
  | saving {seen : Sight} {taken rest : List UploadChunk} {n : Nat} (hc : taken ++ rest = chunks)
      (hne : taken ≠ []) (hs : seen.Holds n (dataOf taken)) :
      Receiving path chunks ⟨messagesOf taken, false, []⟩
        (.uploading (.saving path n (dataOf taken).length taken.length)) seen
  | replying {seen : Sight} {n : Nat} (hs : seen.Holds n (dataOf chunks)) :
      Receiving path chunks ⟨messagesOf chunks, true, []⟩ (.replying (receiptFor path chunks)) seen
  | ending {seen : Sight} {n : Nat} (hs : seen.Holds n (dataOf chunks)) :
      Receiving path chunks ⟨messagesOf chunks, true, [receiptFor path chunks]⟩ (.ending (.ok ()))
        seen

/-- **The course of an upload**: from a path where a file can be made, to a file that holds the data
of all chunks, and a receipt for it. -/
def receiving (path : String) (chunks : List UploadChunk) : Course HandlerState Sight where
  script := messagesOf chunks
  answer := [receiptFor path chunks]
  holds := Receiving path chunks
  final seen := ∃ n, seen.Holds n (dataOf chunks)

section

variable {g : Gateway} {path : String} {chunks : List UploadChunk} {seen : Sight}

/-- The next message after chunks is the next chunk. -/
theorem next_of_begins {taken : List UploadChunk} {m : Bytes}
    (hm : messagesOf taken ++ [m] <+: messagesOf chunks) {rest : List UploadChunk}
    (hc : taken ++ rest = chunks) : ∃ c rest', rest = c :: rest' ∧ m = Payload.toBytes c := by
  obtain ⟨more, hmore⟩ := hm
  rw [← hc, messagesOf, messagesOf, List.map_append, List.append_assoc,
    List.append_cancel_left_eq] at hmore
  cases rest with
  | nil => cases hmore
  | cons c rest' =>
      rw [List.map_cons, List.cons_append, List.nil_append, List.cons.injEq] at hmore
      exact ⟨c, rest', rfl, hmore.1⟩

theorem leads_takeChunk_first (hs : seen.Creatable) (hne : path ≠ "") {c : UploadChunk}
    {rest : List UploadChunk} (hc : c :: rest = chunks) (hpath : c.path = some path)
    (hsize : (Payload.toBytes c).length ≤ Frame.maxPayload) :
    (g.takeChunk (.new .save) (some (Payload.toBytes c))).Leads (Workspace.sight path)
      (Receiving path chunks (Talk.begin.take (Payload.toBytes c))) seen := by
  have hread := UploadChunk.ofBytes_toBytes (Nat.lt_of_le_of_lt hsize (by decide))
  simp only [Gateway.takeChunk, Session.acceptMessage, hread]
  obtain ⟨_, data⟩ := c
  cases hpath
  refine (leads_accept_first g.staging.installer hs hne data).bind ?_
  rintro _ s ⟨n, rfl, hn⟩
  have hone : dataOf [⟨some path, data⟩] = data := List.append_nil data
  have hsaving : Receiving path chunks ⟨messagesOf [⟨some path, data⟩], false, []⟩ _ s :=
    .saving (n := n) hc (List.cons_ne_nil _ _) (by rwa [hone])
  rwa [hone] at hsaving

theorem leads_takeChunk {taken rest : List UploadChunk} {c : UploadChunk} {n : Nat}
    (hs : seen.Holds n (dataOf taken)) (hc : taken ++ c :: rest = chunks)
    (hsize : (Payload.toBytes c).length ≤ Frame.maxPayload) :
    (g.takeChunk (.saving path n (dataOf taken).length taken.length)
        (some (Payload.toBytes c))).Leads (Workspace.sight path)
      (Receiving path chunks (Talk.take ⟨messagesOf taken, false, []⟩ (Payload.toBytes c))) seen := by
  have hread := UploadChunk.ofBytes_toBytes (Nat.lt_of_le_of_lt hsize (by decide))
  simp only [Gateway.takeChunk, Session.acceptMessage, hread]
  refine (leads_take g.staging.installer hs c.data).bind ?_
  rintro _ s ⟨rfl, hn⟩
  have hdata : dataOf (taken ++ [c]) = dataOf taken ++ c.data := by
    rw [dataOf, List.flatMap_append, List.flatMap_singleton, dataOf]
  have hcount : (taken ++ [c]).length = taken.length + 1 := List.length_append
  have hsaving : Receiving path chunks ⟨messagesOf (taken ++ [c]), false, []⟩ _ s :=
    .saving (n := n) ((List.append_assoc taken [c] rest).trans hc)
      (List.append_ne_nil_of_right_ne_nil _ (List.cons_ne_nil _ _)) (by rwa [hdata])
  rwa [hdata, hcount, messagesOf, List.map_append] at hsaving

theorem leads_takeEnd {n : Nat} (hs : seen.Holds n (dataOf chunks)) :
    (g.takeChunk (.saving path n (dataOf chunks).length chunks.length) none).Leads (Workspace.sight path)
      (Receiving path chunks (Talk.finish ⟨messagesOf chunks, false, []⟩)) seen := by
  simp only [Gateway.takeChunk]
  refine (leads_finish g.staging.installer hs).bind ?_
  rintro _ s ⟨rfl, hn⟩
  exact .replying hn

/-- **A call that receives an upload keeps to its course.** -/
theorem receiving_keptBy (hshort : path.utf8ByteSize < Disk.maxPath) (hne : path ≠ "")
    (hfirst : chunks.head?.bind (·.path) = some path)
    (hsize : ∀ c ∈ chunks, (Payload.toBytes c).length ≤ Frame.maxPayload) :
    (receiving path chunks).KeptBy g.handler (Workspace.sight path) := by
  intro t state seen hholds
  cases hholds with
  | idle hs =>
      cases chunks with
      | nil => cases hfirst
      | cons c rest =>
          refine ⟨rfl, fun m hm => ?_, nofun⟩
          obtain ⟨_, _, heq, rfl⟩ := @next_of_begins _ [] _ hm _ (List.nil_append _)
          cases heq
          exact leads_takeChunk_first hs hne rfl hfirst (hsize c List.mem_cons_self)
  | @saving _ taken rest n hc hsome hs =>
      refine ⟨rfl, fun m hm => ?_, fun hall => ?_⟩
      · obtain ⟨c, rest', rfl, rfl⟩ := next_of_begins hm hc
        exact leads_takeChunk hs hc (hsize c (hc ▸ List.mem_append_right _ List.mem_cons_self))
      · -- as many chunks have been taken as there are
        have hlen := congrArg List.length hall
        rw [show (receiving path chunks).script = messagesOf chunks from rfl, messagesOf, messagesOf,
          List.length_map, List.length_map, ← hc, List.length_append] at hlen
        have hrest : rest = [] := List.length_eq_zero_iff.1 (by omega)
        rw [hrest, List.append_nil] at hc
        subst hc
        exact leads_takeEnd hs
  | replying hs =>
      refine ⟨List.prefix_rfl, ?_, .ending hs⟩
      have hlen : (receiptFor path chunks).length = 17 + (Text.Utf8.encode path).length := by
        rw [receiptFor, UploadReceipt.length_toBytes]
        show 9 + (8 + _) = _
        omega
      have henc := Text.Utf8.length_encode_le path
      have hchars := Text.Utf8.length_le_utf8ByteSize path
      rw [hlen]
      rw [Disk.maxPath] at hshort
      rw [Frame.maxPayload]
      omega
  | @ending _ n hs => exact ⟨rfl, rfl, n, hs⟩

end

end DeviceGateway.Upload
