import DeviceGateway.Proofs.Client.Routing
import DeviceGateway.Proofs.Wire.Layouts

/-!
# Calls that cannot be opened

The route of a call is registered before its first frame is made and queued, and both can fail: the
request may not fit a frame, and the outbox may be closed. Then nothing is queued that opens the
call, now or ever (`Unopened`), but its route is still there: in one go always
(`startCall?_eq_error_iff`, `routes_unlisten`), and with steps of others in between until the reader
reads a status with its number or leaves (`failed_openings_leave_their_routes`). So a client whose
calls fail keeps a route for each of them.
-/

namespace DeviceGateway

namespace Client

variable {c : Client} {id : UInt64} {ch : ReplyChannel} {r : CallRequest} {e : GatewayError}

/-! ## Routes -/

theorem routes_register (c : Client) : c.register.2.routes = c.routes ++ [c.nextId] := by
  simp [routes, register, List.filter_append]

/-- That nobody listens any more is nothing that the reader knows. -/
theorem routes_unlisten (c : Client) (id : UInt64) : (c.unlisten id).routes = c.routes := by
  simp only [routes, unlisten, modify, List.filter_map, List.map_map]
  have hrouted : ((·.routed) ∘ fun ch : ReplyChannel =>
      if ch.id = id then { ch with listening := false, queue := [] } else ch) = (·.routed) := by
    funext ch
    rw [Function.comp_apply]
    split
    · rfl
    · rfl
  rw [hrouted]
  refine List.map_congr_left ?_
  intro ch _
  rw [Function.comp_apply]
  split
  · rfl
  · rfl

theorem mem_routes_iff (hids : c.ids.Nodup) (hc : c.channel? id = some ch) :
    id ∈ c.routes ↔ ch.routed = true := by
  constructor
  · intro h
    obtain ⟨ch', hmem, rfl⟩ := List.mem_map.1 h
    obtain ⟨hch', hrouted⟩ := List.mem_filter.1 hmem
    cases hc.symm.trans (channel?_of_mem hids hch')
    exact hrouted
  · intro h
    rw [← id_of_channel? hc]
    exact List.mem_map_of_mem (List.mem_filter.2 ⟨List.mem_of_find?_eq_some hc, h⟩)

theorem routes_subset_ids (c : Client) : c.routes ⊆ c.ids := by
  intro id h
  obtain ⟨ch, hmem, rfl⟩ := List.mem_map.1 h
  exact List.mem_map_of_mem (List.mem_filter.1 hmem).1

/-! ## Opening in one go -/

/-- **Why a call cannot be opened**: its request does not fit a frame, or nobody will write it. -/
def CannotOpen (c : Client) (r : CallRequest) (e : GatewayError) : Prop :=
  Frame.maxPayload < (Payload.toBytes r).length ∧
      e = .payloadTooLarge (Payload.toBytes r).length Frame.maxPayload ∨
    (Payload.toBytes r).length ≤ Frame.maxPayload ∧ c.outbox.isOpen = false ∧ e = .channelClosed

/-- **Why a frame cannot be queued**: it could not be made, or nobody will write it. -/
theorem queue?_eq_error_iff {made : Except FrameFault Frame} {c' : Client} :
    c.queue? made = some (.error e, c') ↔
      ((∃ fault, made = .error fault ∧ e = fault.toError) ∨
        (∃ f, made = .ok f) ∧ c.outbox.isOpen = false ∧ e = .channelClosed) ∧ c' = c := by
  constructor
  · intro h
    cases queues_of_queue? h with
    | spoiled => exact ⟨.inl ⟨_, rfl, rfl⟩, rfl⟩
    | closed hclosed => exact ⟨.inr ⟨⟨_, rfl⟩, hclosed, rfl⟩, rfl⟩
  · rintro ⟨⟨fault, rfl, rfl⟩ | ⟨⟨f, rfl⟩, hclosed, rfl⟩, rfl⟩
    · rfl
    · rw [queue?, Outbox.put?_eq_error_iff.2 ⟨hclosed, rfl⟩]

theorem queue?_call_eq_error_iff {c' : Client} :
    c.queue? (Frame.call id r) = some (.error e, c') ↔ c.CannotOpen r e ∧ c' = c := by
  rw [queue?_eq_error_iff, Frame.call]
  simp only [CannotOpen, Frame.make_eq_error_iff, Frame.exists_make_eq_ok_iff]
  constructor
  · rintro ⟨⟨fault, ⟨hlong, rfl⟩, rfl⟩ | hclosed, rfl⟩
    · exact ⟨.inl ⟨hlong, rfl⟩, rfl⟩
    · exact ⟨.inr hclosed, rfl⟩
  · rintro ⟨⟨hlong, rfl⟩ | hclosed, rfl⟩
    · exact ⟨.inl ⟨_, ⟨hlong, rfl⟩, rfl⟩, rfl⟩
    · exact ⟨.inr hclosed, rfl⟩

/-- **A call that cannot be opened** has taken a number, and a route to a channel that nobody
listens to. -/
theorem startCall?_eq_error_iff {c' : Client} :
    c.startCall? r = some (.error e, c') ↔
      c.CannotOpen r e ∧ c' = c.register.2.unlisten c.nextId := by
  have hregistered : c.register.2.CannotOpen r e ↔ c.CannotOpen r e := Iff.rfl
  rw [← hregistered]
  simp only [startCall?]
  constructor
  · intro h
    split at h
    · cases h
    · next hq =>
      obtain ⟨hcannot, rfl⟩ := queue?_call_eq_error_iff.1 hq
      cases h
      exact ⟨hcannot, rfl⟩
    · cases h
  · rintro ⟨hcannot, rfl⟩
    have hq : c.register.2.queue? (Frame.call c.register.1 r) = some (.error e, c.register.2) :=
      queue?_call_eq_error_iff.2 ⟨hcannot, rfl⟩
    rw [hq]
    rfl

end Client

namespace Callers

open DeviceGateway.Frame

variable {k : Checksum} {s t u v w : Callers} {m : Move} {ms before more : List Move} {id : UInt64}

/-! ## Opening in steps -/

/-- Whether the first frame of a call is still to be queued. -/
def IsOpening (s : Callers) (id : UInt64) : Prop := ∃ e ∈ s.opening, e.1 = id

/-- **Nothing was queued that opens a call.** -/
def Unopened (s : Callers) (id : UInt64) : Prop :=
  ∀ f ∈ s.client.outbox.queue ++ s.written, f.kind = .call → f.callId ≠ id

/-- **A call fails to open**: it is its turn, and its first frame cannot be queued. -/
def FailsToOpen (k : Checksum) (s : Callers) (id : UInt64) (t : Callers) : Prop :=
  ∃ r e, s.opening.find? (·.1 == id) = some (id, r) ∧ s.client.CannotOpen r e ∧
    s.step? k (.request id) = some t

/-- A call that fails to open is given up, and nothing else happens. -/
theorem request?_of_cannotOpen {r : CallRequest} {e : GatewayError}
    (hfind : s.opening.find? (·.1 == id) = some (id, r)) (hcannot : s.client.CannotOpen r e) :
    s.step? k (.request id) =
      some { s with client := s.client.unlisten id, opening := s.openingBut id } := by
  have hq : s.client.queue? (Frame.call id r) = some (.error e, s.client) :=
    Client.queue?_call_eq_error_iff.2 ⟨hcannot, rfl⟩
  simp only [step?, request?, hfind, hq]

theorem FailsToOpen.eq (h : s.FailsToOpen k id t) :
    t = { s with client := s.client.unlisten id, opening := s.openingBut id } := by
  obtain ⟨r, e, hfind, hcannot, hstep⟩ := h
  rw [request?_of_cannotOpen hfind hcannot] at hstep
  exact (Option.some.inj hstep).symm

theorem not_isOpening_openingBut (s : Callers) (client : Client) :
    ¬ IsOpening { s with client, opening := s.openingBut id } id := by
  rintro ⟨e, he, rfl⟩
  have hne := (List.mem_filter.1 he).2
  simp at hne

/-- **What is being opened was being opened before**, or it was started just now. -/
theorem Step.isOpening (h : Step k s m t) (hids : t.client.ids.Nodup) (hid : id ∈ s.client.ids)
    (ho : t.IsOpening id) : s.IsOpening id ∧ m ≠ .request id := by
  have hbut : ∀ (i : UInt64) (client : Client),
      IsOpening { s with client, opening := s.openingBut i } id → s.IsOpening id ∧ i ≠ id := by
    rintro i client ⟨e, he, rfl⟩
    obtain ⟨hmem, hne⟩ := List.mem_filter.1 he
    refine ⟨⟨e, hmem, rfl⟩, ?_⟩
    rintro rfl
    simp at hne
  cases h with
  | @start r =>
      refine ⟨?_, by simp⟩
      obtain ⟨e, he, rfl⟩ := ho
      rcases List.mem_append.1 he with he | he
      · exact ⟨e, he, rfl⟩
      · -- The number of the call that was started is new.
        rw [List.mem_singleton.1 he] at hid
        rw [ids_start] at hids
        exact absurd rfl ((List.nodup_append.1 hids).2.2 _ hid _ (List.mem_singleton_self _))
  | request | giveUp =>
      obtain ⟨hopening, hne⟩ := hbut _ _ ho
      exact ⟨hopening, by simpa using hne⟩
  | drop => exact ⟨(hbut _ _ ho).1, by simp⟩
  | _ => exact ⟨ho, by simp⟩

/-- A call is opened in no other step than its own. -/
theorem Step.unopened (h : Step k s m t) (hu : s.Unopened id)
    (hm : m = .request id → ¬ s.IsOpening id) : t.Unopened id := by
  have hput : ∀ {f : Frame} {outbox : Outbox} {opening : List (UInt64 × CallRequest)},
      s.client.outbox.put? f = some (.ok outbox) → (f.kind = .call → f.callId ≠ id) →
      Unopened { s with client := { s.client with outbox }, opening } id := by
    intro f outbox opening hput hf g hg
    obtain ⟨-, -, rfl⟩ := Outbox.put?_eq_ok_iff.1 hput
    simp only [List.append_assoc, List.mem_append, List.mem_singleton] at hg
    rcases hg with hg | rfl | hg
    · exact hu g (List.mem_append_left _ hg)
    · exact hf
    · exact hu g (List.mem_append_right _ hg)
  cases h with
  | @request i r f outbox ho hf hput' =>
      refine hput hput' ?_
      rintro - hid
      rw [(Frame.of_make hf).2.1] at hid
      subst hid
      exact hm rfl ⟨_, ho, rfl⟩
  | say hk hput' => exact hput hput' fun hc => absurd hc hk
  | hear =>
      intro f hf
      dsimp only at hf
      rw [(Client.route_leaves _ _).2.1] at hf
      exact hu f hf
  | write hq =>
      intro f hf
      refine hu f ?_
      rw [hq]
      simp only [List.mem_append, List.mem_cons, List.not_mem_nil, or_false] at hf ⊢
      tauto
  | failWriting =>
      intro f hf
      exact hu f (List.mem_append_right _ hf)
  | _ => exact hu

theorem Step.ids_subset (h : Step k s m t) : s.client.ids ⊆ t.client.ids := by
  rcases h.numbers with ⟨r, rfl⟩ | ⟨hids, -⟩
  · rw [ids_start]
    exact List.subset_append_left _ _
  · rw [hids]
    exact List.Subset.refl _

theorem run_ids_subset (hrun : s.run? k ms = some t) : s.client.ids ⊆ t.client.ids :=
  run?_induction (P := fun t => s.client.ids ⊆ t.client.ids)
    (fun h hstep => List.Subset.trans h hstep.ids_subset) (List.Subset.refl _) hrun

/-- **Nothing opens a call** in a run at whose end it is still to be opened, or at whose start it was
not. -/
theorem run_unopened (hs : s.Registered) (hrun : s.run? k ms = some t)
    (hfew : t.client.channels.length < UInt64.size) (hid : id ∈ s.client.ids) :
    (t.IsOpening id → s.IsOpening id) ∧
      (s.Unopened id → (s.IsOpening id → t.IsOpening id) → t.Unopened id) := by
  induction ms generalizing s with
  | nil =>
      cases hrun
      exact ⟨fun ho => ho, fun hu _ => hu⟩
  | cons m ms ih =>
      obtain ⟨u, hm, hrest⟩ := Option.bind_eq_some_iff.1 hrun
      have hstep := step_of_step? hm
      have hu := hs.step hstep
      have hids := hu.nodup (Nat.lt_of_le_of_lt (run_length_le hrest) hfew)
      obtain ⟨hback, hkeep⟩ := ih hu hrest (hstep.ids_subset hid)
      constructor
      · intro ho
        exact (hstep.isOpening hids hid (hback ho)).1
      · intro hunopened hopening
        refine hkeep (hstep.unopened hunopened ?_) ?_
        · rintro rfl ho
          exact (hstep.isOpening hids hid (hback (hopening ho))).2 rfl
        · intro ho
          exact hopening (hstep.isOpening hids hid ho).1

/-- **The route of a call**, some steps after its start, however the opening of the call has gone. -/
theorem mem_routes_of_start {r : CallRequest} (hs : s.Registered)
    (hrun : (s.start r).run? k ms = some t) (hfew : t.client.channels.length < UInt64.size) :
    s.client.nextId ∈ t.client.routes ↔
      answered s.client.nextId ((s.start r).framesRead k ms) = false ∧
        (t.client.reader = .gone → s.client.reader = .gone) := by
  have hids := ((hs.start r).run hrun).nodup hfew
  have hfresh := hs.next_not_mem r (Nat.lt_of_le_of_lt (run_length_le hrun) hfew)
  obtain ⟨taken, ends, ch, -, h⟩ := (Account.of_start hs hfresh r).run hrun
  rw [List.nil_append] at h
  exact (Client.mem_routes_iff hids h.channel).trans h.routed

/-- **A call that cannot be opened leaves its route behind.** In one go the route is new and all that
is new. In steps the route of a call that fails to open is there as long as no status with its number
is read and the reader stays, although nothing that opens the call is ever queued. -/
theorem failed_openings_leave_their_routes {r : CallRequest}
    (hbefore : Callers.new.run? k before = some s)
    (hfew : (s.start r).client.channels.length < UInt64.size) :
    (∀ e c, s.client.startCall? r = some (.error e, c) →
      s.client.CannotOpen r e ∧ c.outbox = s.client.outbox ∧
        s.client.nextId ∉ s.client.routes ∧ c.routes = s.client.routes ++ [s.client.nextId]) ∧
    ∀ ms u v more w, (s.start r).run? k ms = some u → u.FailsToOpen k s.client.nextId v →
      v.run? k more = some w → w.client.channels.length < UInt64.size →
      v.client.routes = u.client.routes ∧ w.Unopened s.client.nextId ∧
        (s.client.nextId ∈ w.client.routes ↔
          answered s.client.nextId
              ((s.start r).framesRead k (ms ++ .request s.client.nextId :: more)) = false ∧
            (w.client.reader = .gone → s.client.reader = .gone)) := by
  have hs := Registered.new.run hbefore
  have hfresh := hs.next_not_mem r hfew
  constructor
  · intro e c h
    obtain ⟨hcannot, rfl⟩ := Client.startCall?_eq_error_iff.1 h
    refine ⟨hcannot, rfl, ?_, ?_⟩
    · intro hmem
      exact hfresh (Client.routes_subset_ids _ hmem)
    · rw [Client.routes_unlisten, Client.routes_register]
  · intro ms u v more w hrun hfails hmore hfew'
    have hv := hfails.eq
    obtain ⟨r', e, hfind, -, hstep⟩ := hfails
    have hstarted := hs.start r
    have hu := hstarted.run hrun
    have hfewv := Nat.lt_of_le_of_lt (run_length_le hmore) hfew'
    have hfewu := Nat.lt_of_le_of_lt (step_of_step? hstep).length_le hfewv
    have hknown : s.client.nextId ∈ (s.start r).client.ids := by
      rw [ids_start]
      exact List.mem_append_right _ (List.mem_singleton_self _)
    have hknownv := (step_of_step? hstep).ids_subset (run_ids_subset hrun hknown)
    have hopening : u.IsOpening s.client.nextId := ⟨_, List.mem_of_find?_eq_some hfind, rfl⟩
    have hnone : ¬ v.IsOpening s.client.nextId := by
      rw [hv]
      exact not_isOpening_openingBut u _
    -- Nothing can have opened the call before its number was taken.
    have hfirst : (s.start r).Unopened s.client.nextId := by
      intro f hf hk hid
      exact hfresh (hid ▸ hs.sent f hf hk)
    have hunopened := (run_unopened hstarted hrun hfewu hknown).2 hfirst fun _ => hopening
    have hunopenedv : v.Unopened s.client.nextId := by
      rw [hv]
      exact hunopened
    refine ⟨?_, ?_, ?_⟩
    · rw [hv]
      exact Client.routes_unlisten _ _
    · exact (run_unopened (hu.step (step_of_step? hstep)) hmore hfew' hknownv).2 hunopenedv
        fun ho => absurd ho hnone
    · refine mem_routes_of_start hs ?_ hfew'
      rw [run?_append hrun, run?_cons hstep]
      exact hmore

/-- Two calls are started when the writer finds the server gone: one in one go, and one whose first
frame is queued later. Both leave their routes. -/
theorem two_calls_without_a_writer :
    ∃ s c u v, Callers.new.run? ⟨fun _ => 0, rfl⟩ [.failWriting] = some s ∧
      s.client.startCall? ⟨"device", "ping", []⟩ = some (.error .channelClosed, c) ∧
      s.client.routes = [] ∧ c.routes = s.client.routes ++ [1] ∧
      (s.start ⟨"device", "ping", []⟩).run? ⟨fun _ => 0, rfl⟩ [] = some u ∧
      u.FailsToOpen ⟨fun _ => 0, rfl⟩ 1 v ∧ v.Unopened 1 ∧ 1 ∈ v.client.routes := by
  let k : Checksum := ⟨fun _ => 0, rfl⟩
  let r : CallRequest := ⟨"device", "ping", []⟩
  let s : Callers := { Callers.new with client := { Client.new with outbox := ⟨[], 64, false⟩ } }
  have hbefore : Callers.new.run? k [.failWriting] = some s := rfl
  have hcannot : (s.start r).client.CannotOpen r .channelClosed := .inr ⟨by decide, rfl, rfl⟩
  have hfails : (s.start r).FailsToOpen k s.client.nextId _ :=
    ⟨r, .channelClosed, rfl, hcannot, request?_of_cannotOpen rfl hcannot⟩
  obtain ⟨hnow, hsteps⟩ := failed_openings_leave_their_routes (r := r) hbefore (by decide)
  have hcall : s.client.startCall? r =
      some (.error .channelClosed, s.client.register.2.unlisten 1) :=
    Client.startCall?_eq_error_iff.2 ⟨hcannot, rfl⟩
  obtain ⟨-, hunopened, hroute⟩ := hsteps [] _ _ [] _ rfl hfails rfl (by decide)
  refine ⟨s, _, _, _, hbefore, hcall, rfl, (hnow _ _ hcall).2.2.2, rfl, hfails, hunopened, ?_⟩
  exact hroute.2 ⟨by decide, fun h => by cases h⟩

/-- A request that is too large for a frame leaves a route in a new client, which had none. -/
theorem a_request_too_large_leaves_its_route :
    ∃ c, Client.new.startCall? ⟨"device", "ping", List.replicate Frame.maxPayload 0⟩ =
        some (.error (.payloadTooLarge 1048610 Frame.maxPayload), c) ∧
      c.outbox.queue = [] ∧ Client.new.routes = [] ∧ c.routes = [1] := by
  let r : CallRequest := ⟨"device", "ping", List.replicate Frame.maxPayload 0⟩
  have hlen : (Payload.toBytes r).length = 1048610 := by
    have hservice : (Text.Utf8.encode r.service).length = 6 := by decide
    have hmethod : (Text.Utf8.encode r.method).length = 4 := by decide
    rw [CallRequest.length_toBytes, hservice, hmethod, List.length_replicate]
    rfl
  refine ⟨Client.new.register.2.unlisten 1, ?_, rfl, rfl, rfl⟩
  refine Client.startCall?_eq_error_iff.2 ⟨.inl ⟨?_, ?_⟩, rfl⟩
  · rw [hlen]
    decide
  · rw [hlen]

end Callers

end DeviceGateway
