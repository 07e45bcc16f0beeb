import DeviceGateway.Proofs.Client.Departure
import DeviceGateway.Proofs.Client.Listening

/-!
# Callers with their receivers

What one can do with a client: start a call and get the receiver of its frames, say more in a call,
take from a receiver, and drop it. Starting a call is done in two parts. First its route is
registered. Its first frame is queued after that, perhaps much later, for the outbox may be full.
The caller gets the receiver when both are done.

All callers, the reader and the writer take their steps in any order (`Callers.run?`). What the
reader has read in a run, and what a receiver has yielded, are lists along the run
(`Callers.framesRead`, `Callers.yielded`).
-/

namespace DeviceGateway

namespace Client

variable {c : Client} {id : UInt64} {ch : ReplyChannel}

theorem mem_ids_of_channel? (h : c.channel? id = some ch) : id ∈ c.ids := by
  rw [← id_of_channel? h]
  exact List.mem_map_of_mem (List.mem_of_find?_eq_some h)

/-- A frame is held only for a channel that is there. -/
theorem mem_ids_of_held (hr : c.reader = .reading) (f : Frame) :
    ∀ g ∈ (c.route f).held, g.callId ∈ c.ids := by
  intro g hg
  cases hc : c.channel? f.callId with
  | none =>
      have hsame : c.route f = c := by
        refine route_of_unrouted ?_
        intro ch hch
        cases hc.symm.trans hch
      rw [hsame, held_of_reading hr] at hg
      cases hg
  | some ch =>
      rcases reader_route c f with h | h
      · rw [held_of_reading (h.trans hr)] at hg
        cases hg
      · rw [held_of_delivering h, List.mem_singleton] at hg
        rw [hg]
        exact mem_ids_of_channel? hc

end Client

/-- **The callers of a client**, and the frames that its writer has written. -/
structure Callers where
  client : Client
  /-- The calls whose first frame is still to be queued. -/
  opening : List (UInt64 × CallRequest)
  written : List Frame

namespace Callers

def new : Callers := ⟨.new, [], []⟩

/-- Who takes a step, and which. -/
inductive Move where
  /-- A caller registers a call. -/
  | start (r : CallRequest)
  /-- It queues the first frame of the call. -/
  | request (id : UInt64)
  /-- It queues another frame: a message, the end of its messages, or that it cancels the call. -/
  | say (f : Frame)
  /-- It takes the next frame from its receiver, or learns that there are no more. -/
  | take (id : UInt64)
  /-- It drops its receiver, or does not wait any longer to start the call. -/
  | drop (id : UInt64)
  /-- The reader reads a frame. -/
  | read
  /-- The reader puts a frame into a channel. -/
  | deliver
  /-- The writer writes a frame. -/
  | write
  /-- The writer finds that the server is gone. -/
  | failWriting
  /-- Octets of the server arrive. -/
  | arrive (data : Bytes)
  /-- The server sends nothing more. -/
  | hangUp

/-- Registers a call. -/
def start (s : Callers) (r : CallRequest) : Callers :=
  { s with client := s.client.register.2, opening := s.opening ++ [(s.client.register.1, r)] }

/-- The calls that are still to be opened when one is not among them any more. -/
def openingBut (s : Callers) (id : UInt64) : List (UInt64 × CallRequest) :=
  s.opening.filter (·.1 != id)

/-- Queues the first frame of a call. If that fails, there is nobody to get the receiver. -/
def request? (s : Callers) (id : UInt64) : Option Callers :=
  match s.opening.find? (·.1 == id) with
  | none => none
  | some (_, r) =>
    match s.client.queue? (Frame.call id r) with
    | none => none
    | some (.ok (), client) => some { s with client, opening := s.openingBut id }
    | some (.error _, client) =>
      some { s with client := client.unlisten id, opening := s.openingBut id }

/-- **Whether somebody has the receiver of a call.** -/
def isOpen (s : Callers) (id : UInt64) : Bool :=
  s.opening.all (·.1 != id) && (s.client.channel? id).any (·.listening)

/-- **The state after a step**, if it is possible. -/
def step? (k : Checksum) (s : Callers) : Move → Option Callers
  | .start r => some (s.start r)
  | .request id => s.request? id
  | .say f =>
    if f.kind = .call then none
    else (s.client.queue? (.ok f)).map fun (_, client) => { s with client }
  | .take id =>
    if s.isOpen id then (s.client.receive? id).map fun (_, client) => { s with client } else none
  | .drop id => some { s with client := s.client.unlisten id, opening := s.openingBut id }
  | .read => (s.client.read? k).map fun client => { s with client }
  | .deliver => s.client.deliver?.map fun client => { s with client }
  | .write => s.client.write?.map fun (f, client) => { s with client, written := s.written ++ [f] }
  | .failWriting => some { s with client := { s.client with outbox := s.client.outbox.close } }
  | .arrive data => some { s with client := s.client.arrive data }
  | .hangUp => some { s with client := { s.client with hungUp := true } }

/-- The state after a run, if all its steps are possible. -/
def run? (k : Checksum) (s : Callers) : List Move → Option Callers
  | [] => some s
  | m :: ms => (s.step? k m).bind (run? k · ms)

/-! ## What happens along a run -/

/-- What is seen of each step of a run, one after the other. -/
def along {α : Type} (seen : Callers → Move → List α) (k : Checksum) (s : Callers) :
    List Move → List α
  | [] => []
  | m :: ms => seen s m ++ ((s.step? k m).map (along seen k · ms)).getD []

/-- The frame that is read in a step. -/
def reads (k : Checksum) (s : Callers) : Move → List Frame
  | .read =>
    match Frame.decode k s.client.unread with
    | .frame f _ => [f]
    | _ => []
  | _ => []

/-- What the receiver of a call yields in a step: a frame, or nothing for the end. -/
def yields (id : UInt64) (s : Callers) : Move → List (Option Frame)
  | .take i => if i = id then ((s.client.receive? id).map (·.1)).toList else []
  | _ => []

/-- **The frames that the reader reads** in a run. -/
def framesRead (k : Checksum) : Callers → List Move → List Frame := along (reads k) k

/-- **What the receiver of a call yields** in a run. -/
def yielded (k : Checksum) (id : UInt64) : Callers → List Move → List (Option Frame) :=
  along (yields id) k

variable {k : Checksum} {s t u : Callers} {m : Move} {ms more : List Move} {id : UInt64}

theorem run?_cons (hm : s.step? k m = some t) : s.run? k (m :: ms) = t.run? k ms := by
  rw [run?, hm]
  rfl

theorem run?_append (h : s.run? k ms = some t) : s.run? k (ms ++ more) = t.run? k more := by
  induction ms generalizing s with
  | nil =>
      cases h
      rfl
  | cons m ms ih =>
      obtain ⟨s', hm, hrest⟩ := Option.bind_eq_some_iff.1 h
      rw [List.cons_append, run?_cons hm]
      exact ih hrest

theorem along_cons {α : Type} (seen : Callers → Move → List α) (hm : s.step? k m = some t) :
    along seen k s (m :: ms) = seen s m ++ along seen k t ms := by
  rw [along, hm]
  rfl

theorem along_append {α : Type} (seen : Callers → Move → List α) (h : s.run? k ms = some t) :
    along seen k s (ms ++ more) = along seen k s ms ++ along seen k t more := by
  induction ms generalizing s with
  | nil =>
      cases h
      rfl
  | cons m ms ih =>
      obtain ⟨s', hm, hrest⟩ := Option.bind_eq_some_iff.1 h
      rw [List.cons_append, along_cons seen hm, along_cons seen hm, ih hrest, List.append_assoc]

/-- **A call that is started in one go**, because the outbox has room, is started in its two parts. -/
theorem run?_of_startCall? {r : CallRequest} {c : Client}
    (h : s.client.startCall? r = some (.ok id, c))
    (hnew : ∀ e ∈ s.opening, e.1 ≠ s.client.register.1) :
    s.run? k [.start r, .request id] = some { s with client := c } := by
  simp only [Client.startCall?] at h
  split at h
  · cases h
  · cases h
  · next hq =>
    cases h
    have hbefore : s.opening.find? (·.1 == s.client.register.1) = none := by
      refine List.find?_eq_none.2 ?_
      intro e he
      simpa using hnew e he
    have hfind : (s.start r).opening.find? (·.1 == s.client.register.1) =
        some (s.client.register.1, r) := by
      simp [start, List.find?_append, hbefore]
    have hbut : (s.start r).openingBut s.client.register.1 = s.opening := by
      have hkept : s.opening.filter (·.1 != s.client.register.1) = s.opening := by
        refine List.filter_eq_self.2 ?_
        intro e he
        simpa using hnew e he
      rw [openingBut, start, List.filter_append, hkept]
      simp
    have hrequest : (s.start r).request? s.client.register.1 = some { s with client := c } := by
      simp only [request?, hfind, show (s.start r).client.queue? _ = _ from hq, hbut]
      rfl
    have hstep : (s.start r).step? k (.request s.client.register.1) = some { s with client := c } :=
      hrequest
    rw [run?_cons (t := s.start r) rfl, run?_cons hstep]
    rfl

/-! ## What steps do -/

/-- **What a step of the callers does**: one case for each thing that can happen. -/
inductive Step (k : Checksum) (s : Callers) : Move → Callers → Prop
  | start {r : CallRequest} : Step k s (.start r) (s.start r)
  | request {id : UInt64} {r : CallRequest} {f : Frame} {outbox : Outbox} (ho : (id, r) ∈ s.opening)
      (hf : Frame.call id r = .ok f) (hput : s.client.outbox.put? f = some (.ok outbox)) :
      Step k s (.request id)
        { s with client := { s.client with outbox }, opening := s.openingBut id }
  | giveUp {id : UInt64} {r : CallRequest} (ho : (id, r) ∈ s.opening)
      (he : (∃ e, Frame.call id r = .error e) ∨ s.client.outbox.isOpen = false) :
      Step k s (.request id) { s with client := s.client.unlisten id, opening := s.openingBut id }
  | say {f : Frame} {outbox : Outbox} (hk : f.kind ≠ .call)
      (hput : s.client.outbox.put? f = some (.ok outbox)) :
      Step k s (.say f) { s with client := { s.client with outbox } }
  | unsaid {f : Frame} (hk : f.kind ≠ .call) (hclosed : s.client.outbox.isOpen = false) :
      Step k s (.say f) s
  | take {id : UInt64} {ch : ReplyChannel} {f : Frame} {rest : List Frame} (ho : s.isOpen id = true)
      (hc : s.client.channel? id = some ch) (hq : ch.queue = f :: rest) :
      Step k s (.take id) { s with client := s.client.modify id ({ · with queue := rest }) }
  | learn {id : UInt64} {ch : ReplyChannel} (ho : s.isOpen id = true)
      (hc : s.client.channel? id = some ch) (hq : ch.queue = []) (hr : ch.routed = false)
      (hd : s.client.isDelivering id = false) : Step k s (.take id) s
  | drop {id : UInt64} :
      Step k s (.drop id) { s with client := s.client.unlisten id, opening := s.openingBut id }
  | hear {f : Frame} {rest : Bytes} (hr : s.client.reader = .reading)
      (hd : Frame.decode k s.client.unread = .frame f rest) :
      Step k s .read { s with client := { s.client with unread := rest }.route f }
  | leave {rest : Bytes} (hr : s.client.reader = .reading)
      (hd : ∀ f rest, Frame.decode k s.client.unread ≠ .frame f rest) :
      Step k s .read { s with client := { s.client with unread := rest }.leave }
  | deliver {f : Frame} {ch : ReplyChannel} (hr : s.client.reader = .delivering f)
      (hc : s.client.channel? f.callId = some ch) (hl : ch.listening = true)
      (hroom : ch.queue.length < Client.capacity) :
      Step k s .deliver
        { s with client :=
          { s.client.modify f.callId fun ch => { ch with queue := ch.queue ++ [f] } with
            reader := .reading } }
  | discard {f : Frame} (hr : s.client.reader = .delivering f)
      (hno : ∀ ch, s.client.channel? f.callId = some ch → ch.listening = false) :
      Step k s .deliver { s with client := { s.client with reader := .reading } }
  | write {f : Frame} {rest : List Frame} (hq : s.client.outbox.queue = f :: rest) :
      Step k s .write
        { s with client := { s.client with outbox := { s.client.outbox with queue := rest } }
                 written := s.written ++ [f] }
  | failWriting :
      Step k s .failWriting { s with client := { s.client with outbox := s.client.outbox.close } }
  | arrive {data : Bytes} : Step k s (.arrive data) { s with client := s.client.arrive data }
  | hangUp : Step k s .hangUp { s with client := { s.client with hungUp := true } }

theorem step_of_request? (h : s.request? id = some t) : Step k s (.request id) t := by
  unfold request? at h
  cases hfind : s.opening.find? (·.1 == id) with
  | none =>
      rw [hfind] at h
      cases h
  | some e =>
      obtain ⟨i, r⟩ := e
      have hid : i = id := by simpa using List.find?_some hfind
      subst hid
      have ho := List.mem_of_find?_eq_some hfind
      rw [hfind] at h
      dsimp only at h
      -- The frame is abstracted: what queuing it comes to depends on how it was made.
      generalize hmade : Frame.call i r = made at h
      split at h
      · cases h
      · next hqueue =>
        cases h
        cases Client.queues_of_queue? hqueue with
        | queued hput => exact .request ho hmade hput
      · next hqueue =>
        cases h
        cases Client.queues_of_queue? hqueue with
        | spoiled => exact .giveUp ho (.inl ⟨_, hmade⟩)
        | closed hclosed => exact .giveUp ho (.inr hclosed)

theorem step_of_say {f : Frame} (h : s.step? k (.say f) = some t) : Step k s (.say f) t := by
  simp only [step?] at h
  split at h
  · cases h
  · next hk =>
    obtain ⟨⟨result, client⟩, hqueue, rfl⟩ := Option.map_eq_some_iff.1 h
    cases Client.queues_of_queue? hqueue with
    | closed hclosed => exact .unsaid hk hclosed
    | queued hput => exact .say hk hput

theorem exists_of_isOpen (h : s.isOpen id = true) :
    ∃ ch, s.client.channel? id = some ch ∧ ch.listening = true := by
  rw [isOpen, Bool.and_eq_true, Option.any_eq_true] at h
  exact h.2

theorem step_of_take (h : s.step? k (.take id) = some t) : Step k s (.take id) t := by
  simp only [step?] at h
  split at h
  · next ho =>
    obtain ⟨⟨f, client⟩, hreceive, rfl⟩ := Option.map_eq_some_iff.1 h
    cases Client.receives_of_receive? hreceive with
    | frame hc hq => exact .take ho hc hq
    | ending hno =>
        obtain ⟨ch, hc, -⟩ := exists_of_isOpen ho
        obtain ⟨hq, hr, hd⟩ := hno ch hc
        exact .learn ho hc hq hr hd
  · cases h

theorem step_of_read {client : Client} (h : s.client.read? k = some client) :
    Step k s .read { s with client } := by
  cases Client.reads_of_read? h with
  | hear hr hd => exact .hear hr hd
  | fault hr hd =>
      refine .leave hr ?_
      intro f rest hf
      cases hd.symm.trans hf
  | ending hr hd =>
      refine .leave hr ?_
      intro f rest hf
      cases hd.symm.trans hf

theorem step_of_deliver {client : Client} (h : s.client.deliver? = some client) :
    Step k s .deliver { s with client } := by
  cases Client.delivers_of_deliver? h with
  | put hr hc hl hroom => exact .deliver hr hc hl hroom
  | drop hr hno => exact .discard hr hno

theorem step_of_step? (h : s.step? k m = some t) : Step k s m t := by
  cases m with
  | start r =>
      cases h
      exact .start
  | request id => exact step_of_request? h
  | say f => exact step_of_say h
  | take id => exact step_of_take h
  | drop id =>
      cases h
      exact .drop
  | read =>
      obtain ⟨client, hr, rfl⟩ := Option.map_eq_some_iff.1 h
      exact step_of_read hr
  | deliver =>
      obtain ⟨client, hr, rfl⟩ := Option.map_eq_some_iff.1 h
      exact step_of_deliver hr
  | write =>
      obtain ⟨⟨f, client⟩, hw, rfl⟩ := Option.map_eq_some_iff.1 h
      obtain ⟨rest, hq, rfl⟩ := Client.write?_eq_some_iff.1 hw
      exact .write hq
  | failWriting =>
      cases h
      exact .failWriting
  | arrive data =>
      cases h
      exact .arrive
  | hangUp =>
      cases h
      exact .hangUp

/-- **What every step keeps, every run keeps.** -/
theorem run?_induction {P : Callers → Prop} (keeps : ∀ {s t m}, P s → Step k s m t → P t)
    (hs : P s) (hrun : s.run? k ms = some t) : P t := by
  induction ms generalizing s with
  | nil =>
      cases hrun
      exact hs
  | cons m ms ih =>
      obtain ⟨u, hm, hrest⟩ := Option.bind_eq_some_iff.1 hrun
      exact ih (keeps hs (step_of_step? hm)) hrest

/-! ## Numbers of calls -/

theorem ids_start (s : Callers) (r : CallRequest) :
    (s.start r).client.ids = s.client.ids ++ [s.client.nextId] := List.map_append

/-- **What is known of numbers**: channels are numbered in the order in which calls were started. Only
calls that were started are being opened or have been, and only for them the reader holds frames. -/
structure Registered (s : Callers) : Prop where
  next : s.client.nextId = UInt64.ofNat (s.client.channels.length + 1)
  ids : s.client.ids = Exchanges.numbers s.client.channels.length
  opening : ∀ e ∈ s.opening, e.1 ∈ s.client.ids
  sent : ∀ f ∈ s.client.outbox.queue ++ s.written, f.kind = .call → f.callId ∈ s.client.ids
  held : ∀ f ∈ s.client.held, f.callId ∈ s.client.ids

/-- A number is taken only when a call is started. -/
theorem Step.numbers (h : Step k s m t) :
    (∃ r, t = s.start r) ∨ t.client.ids = s.client.ids ∧ t.client.nextId = s.client.nextId := by
  cases h with
  | start => exact .inl ⟨_, rfl⟩
  | giveUp | drop => exact .inr ⟨Client.ids_unlisten _ _, rfl⟩
  | take => exact .inr ⟨Client.ids_modify _ _ (by exact fun _ => rfl), rfl⟩
  | hear => exact .inr ⟨Client.ids_route _ _, (Client.route_leaves _ _).1⟩
  | leave => exact .inr ⟨Client.ids_leave _, rfl⟩
  | @deliver f ch =>
      refine .inr ⟨?_, rfl⟩
      exact Client.ids_modify s.client f.callId
        (f := fun ch => { ch with queue := ch.queue ++ [f] }) fun _ => rfl
  | _ => exact .inr ⟨rfl, rfl⟩

namespace Registered

theorem new : Callers.new.Registered := by
  refine ⟨rfl, rfl, ?_, ?_, ?_⟩
  · intro e he
    cases he
  · intro f hf
    cases hf
  · intro f hf
    cases hf

/-- What takes no number and queues nothing that opens another call keeps this. -/
theorem of_same (h : s.Registered) (hids : t.client.ids = s.client.ids)
    (hnext : t.client.nextId = s.client.nextId) (ho : t.opening ⊆ s.opening)
    (hsent : ∀ f ∈ t.client.outbox.queue ++ t.written, f.kind = .call →
      f ∈ s.client.outbox.queue ++ s.written ∨ f.callId ∈ s.client.ids)
    (hheld : ∀ f ∈ t.client.held, f.callId ∈ s.client.ids) : t.Registered := by
  have hlen : t.client.channels.length = s.client.channels.length := by
    have := congrArg List.length hids
    simpa only [Client.ids, List.length_map] using this
  refine ⟨?_, ?_, ?_, ?_, ?_⟩
  · rw [hnext, hlen, h.next]
  · rw [hids, hlen, h.ids]
  · intro e he
    rw [hids]
    exact h.opening e (ho he)
  · intro f hf hk
    rw [hids]
    rcases hsent f hf hk with hold | hnew
    · exact h.sent f hold hk
    · exact hnew
  · rw [hids]
    exact hheld

theorem start (h : s.Registered) (r : CallRequest) : (s.start r).Registered := by
  have hlen : (s.start r).client.channels.length = s.client.channels.length + 1 :=
    List.length_append
  have hids := ids_start s r
  refine ⟨?_, ?_, ?_, ?_, ?_⟩
  · show s.client.nextId + 1 = _
    rw [h.next, hlen, ← UInt64.ofNat_one, ← UInt64.ofNat_add]
  · rw [hids, hlen, Exchanges.numbers_succ, ← h.next, ← h.ids]
  · intro e he
    rw [hids, List.mem_append]
    rcases List.mem_append.1 he with he | he
    · exact .inl (h.opening e he)
    · rw [List.mem_singleton.1 he]
      exact .inr (List.mem_singleton_self _)
  · intro f hf hk
    rw [hids, List.mem_append]
    exact .inl (h.sent f hf hk)
  · intro f hf
    rw [hids, List.mem_append]
    exact .inl (h.held f hf)

/-- What is queued behind the frames that are there. -/
theorem of_put {f : Frame} {outbox : Outbox} {opening : List (UInt64 × CallRequest)}
    (h : s.Registered) (hput : s.client.outbox.put? f = some (.ok outbox))
    (ho : opening ⊆ s.opening) (hf : f.kind = .call → f.callId ∈ s.client.ids) :
    Registered { s with client := { s.client with outbox }, opening } := by
  obtain ⟨-, -, rfl⟩ := Outbox.put?_eq_ok_iff.1 hput
  refine h.of_same rfl rfl ho ?_ h.held
  intro g hg hk
  rcases List.mem_append.1 hg with hg | hg
  · rcases List.mem_append.1 hg with hg | hg
    · exact .inl (List.mem_append_left _ hg)
    · rw [List.mem_singleton.1 hg] at hk ⊢
      exact .inr (hf hk)
  · exact .inl (List.mem_append_right _ hg)

theorem step (h : s.Registered) (hstep : Step k s m t) : t.Registered := by
  have hbut : ∀ id, s.openingBut id ⊆ s.opening := by
    intro id
    exact List.filter_subset_self _
  rcases hstep.numbers with ⟨r, rfl⟩ | ⟨hids, hnext⟩
  · exact h.start r
  · cases hstep with
    | start => exact h.start _
    | request ho hf hput =>
        refine h.of_put hput (hbut _) ?_
        intro _
        rw [(Frame.of_make hf).2.1]
        exact h.opening _ ho
    | say hk hput => exact h.of_put hput (List.Subset.refl _) fun hc => absurd hc hk
    | giveUp | drop => exact h.of_same hids hnext (hbut _) (fun f hf _ => .inl hf) h.held
    | @hear f rest hr =>
        have hheld := Client.mem_ids_of_held (c := { s.client with unread := rest }) hr f
        refine h.of_same hids hnext (List.Subset.refl _) ?_ hheld
        intro f hf _
        dsimp only at hf
        rw [(Client.route_leaves _ _).2.1] at hf
        exact .inl hf
    | leave | deliver | discard =>
        refine h.of_same hids hnext (List.Subset.refl _) (fun f hf _ => .inl hf) ?_
        intro f hf
        cases hf
    | write hq =>
        refine h.of_same hids hnext (List.Subset.refl _) ?_ h.held
        intro g hg _
        rw [hq]
        simp only [List.mem_append, List.mem_cons, List.not_mem_nil, or_false] at hg ⊢
        tauto
    | failWriting =>
        refine h.of_same hids hnext (List.Subset.refl _) ?_ h.held
        intro f hf _
        exact .inl (List.mem_append_right _ hf)
    | _ => exact h.of_same hids hnext (List.Subset.refl _) (fun f hf _ => .inl hf) h.held

theorem run (h : s.Registered) (hrun : s.run? k ms = some t) : t.Registered :=
  run?_induction (fun h hstep => h.step hstep) h hrun

/-- No number is taken twice as long as there are enough of them. -/
theorem nodup (h : s.Registered) (hfew : s.client.channels.length < UInt64.size) :
    s.client.ids.Nodup := by
  rw [h.ids]
  exact Exchanges.nodup_numbers hfew

/-- The number of a call that is started is new. -/
theorem next_not_mem (h : s.Registered) (r : CallRequest)
    (hfew : (s.start r).client.channels.length < UInt64.size) :
    s.client.nextId ∉ s.client.ids := by
  have hids := (h.start r).nodup hfew
  rw [ids_start] at hids
  intro hmem
  exact (List.nodup_append.1 hids).2.2 _ hmem _ (List.mem_singleton_self _) rfl

end Registered

/-- Channels stay. -/
theorem Step.length_le (h : Step k s m t) :
    s.client.channels.length ≤ t.client.channels.length := by
  have hlen : ∀ c : Client, c.channels.length = c.ids.length := by
    intro c
    exact (List.length_map _).symm
  rcases h.numbers with ⟨r, rfl⟩ | ⟨hids, -⟩
  · show _ ≤ (s.client.channels ++ [_]).length
    rw [List.length_append]
    exact Nat.le_add_right _ _
  · exact Nat.le_of_eq (by rw [hlen, hlen, hids])

theorem run_length_le (hrun : s.run? k ms = some t) :
    s.client.channels.length ≤ t.client.channels.length :=
  run?_induction (P := fun t => s.client.channels.length ≤ t.client.channels.length)
    (fun h hstep => Nat.le_trans h hstep.length_le) (Nat.le_refl _) hrun

/-! ## Where everything gets to -/

/-- **Nothing can be handed over**: the reader cannot put a frame into its channel, and no receiver
that somebody has holds a frame. -/
def AtRest (s : Callers) : Prop :=
  s.client.deliver? = none ∧
    ∀ id f c, s.isOpen id = true → s.client.receive? id ≠ some (some f, c)

/-- Whether a frame is handed over in a step. -/
def Move.handsOver : Move → Bool
  | .take _ | .deliver => true
  | _ => false

/-- Handing over changes what is in channels, and not whether anybody has their receivers. -/
theorem Step.keeps_of_handsOver (h : Step k s m t) (hm : m.handsOver = true) :
    t.client.ids = s.client.ids ∧ t.isOpen = s.isOpen ∧ t.opening = s.opening ∧
      s.reads k m = [] := by
  have listening : ∀ i {g : ReplyChannel → ReplyChannel} (j : UInt64),
      (∀ ch, (g ch).id = ch.id ∧ (g ch).listening = ch.listening) →
      ((s.client.modify j g).channel? i).any (·.listening) =
        (s.client.channel? i).any (·.listening) := by
    intro i g j hg
    rw [Client.channel?_modify _ _ fun ch => (hg ch).1]
    split
    · cases s.client.channel? i with
      | none => rfl
      | some ch => exact (hg ch).2
    · rfl
  cases h with
  | @take id ch f rest =>
      refine ⟨Client.ids_modify _ _ (by exact fun _ => rfl), ?_, rfl, rfl⟩
      funext i
      exact congrArg _ (listening i id (g := ({ · with queue := rest })) fun _ => ⟨rfl, rfl⟩)
  | learn => exact ⟨rfl, rfl, rfl, rfl⟩
  | @deliver f ch =>
      let put (ch : ReplyChannel) : ReplyChannel := { ch with queue := ch.queue ++ [f] }
      refine ⟨Client.ids_modify s.client f.callId (f := put) fun _ => rfl, ?_, rfl, rfl⟩
      funext i
      exact congrArg _ (listening i f.callId (g := put) fun _ => ⟨rfl, rfl⟩)
  | discard => exact ⟨rfl, rfl, rfl, rfl⟩
  | _ => cases hm

theorem run_keeps_of_handsOver (hrun : s.run? k ms = some t)
    (hms : ∀ m ∈ ms, m.handsOver = true) :
    t.isOpen = s.isOpen ∧ t.opening = s.opening ∧ s.framesRead k ms = [] := by
  induction ms generalizing s with
  | nil =>
      cases hrun
      exact ⟨rfl, rfl, rfl⟩
  | cons m ms ih =>
      obtain ⟨u, hm, hrest⟩ := Option.bind_eq_some_iff.1 hrun
      obtain ⟨-, hopen, hopening, hread⟩ :=
        (step_of_step? hm).keeps_of_handsOver (hms m List.mem_cons_self)
      obtain ⟨hopen', hopening', hread'⟩ :=
        ih hrest fun m' hm' => hms m' (List.mem_cons_of_mem _ hm')
      refine ⟨hopen'.trans hopen, hopening'.trans hopening, ?_⟩
      rw [framesRead, along_cons _ hm, hread]
      exact hread'

/-- How many frames wait in channels. -/
def waiting (c : Client) : Nat := (c.channels.flatMap (·.queue)).length

/-- How much there is to hand over. What the reader holds is handed over twice. -/
def backlog (s : Callers) : Nat := 2 * s.client.held.length + waiting s.client

/-- **What a change to one channel does to how much waits in all of them.** -/
theorem length_flatMap_modify {chs : List ReplyChannel} {ch : ReplyChannel}
    (hids : (chs.map (·.id)).Nodup) (hc : chs.find? (·.id == id) = some ch)
    (g : ReplyChannel → ReplyChannel) :
    ((chs.map fun ch => if ch.id = id then g ch else ch).flatMap (·.queue)).length +
        ch.queue.length =
      (chs.flatMap (·.queue)).length + (g ch).queue.length := by
  induction chs with
  | nil => cases hc
  | cons a chs ih =>
      obtain ⟨ha, hchs⟩ := List.nodup_cons.1 hids
      by_cases hid : a.id = id
      · rw [List.find?_cons_of_pos (by simpa using hid)] at hc
        cases hc
        have hothers : (chs.map fun ch => if ch.id = id then g ch else ch) = chs := by
          refine (List.map_congr_left ?_).trans (List.map_id' chs)
          intro b hb
          refine if_neg fun hbid => ?_
          exact ha (List.mem_map.2 ⟨b, hb, hbid.trans hid.symm⟩)
        simp only [List.map_cons, List.flatMap_cons, List.length_append, hothers, if_pos hid]
        omega
      · rw [List.find?_cons_of_neg (by simpa using hid)] at hc
        have hrest := ih hchs hc
        simp only [List.map_cons, List.flatMap_cons, List.length_append, if_neg hid]
        omega

theorem waiting_modify {c : Client} {ch : ReplyChannel} (hids : c.ids.Nodup)
    (hc : c.channel? id = some ch) (g : ReplyChannel → ReplyChannel) :
    waiting (c.modify id g) + ch.queue.length = waiting c + (g ch).queue.length :=
  length_flatMap_modify hids hc g

/-- A frame that the reader cannot put into its channel finds it full. -/
theorem full_of_deliver? {f : Frame} (hr : s.client.reader = .delivering f)
    (h : s.client.deliver? = none) :
    ∃ ch, s.client.channel? f.callId = some ch ∧ ch.listening = true ∧
      Client.capacity ≤ ch.queue.length := by
  simp only [Client.deliver?, hr] at h
  cases hc : s.client.channel? f.callId with
  | none =>
      rw [hc] at h
      cases h
  | some ch =>
      rw [hc] at h
      dsimp only at h
      split at h
      · cases h
      · next hl =>
        split at h
        · cases h
        · next hfull => exact ⟨ch, rfl, by simpa using hl, Nat.le_of_not_lt hfull⟩

/-- Where a receiver holds a frame, it can be taken. -/
theorem receive?_of_queue {ch : ReplyChannel} {f : Frame} {rest : List Frame}
    (hc : s.client.channel? id = some ch) (hq : ch.queue = f :: rest) :
    s.client.receive? id =
      some (some f, s.client.modify id fun ch => { ch with queue := rest }) := by
  simp only [Client.receive?, hc, hq]

/-- **At rest the reader holds nothing**, unless a call is being opened. -/
theorem AtRest.held (h : s.AtRest) (ho : s.opening = []) : s.client.held = [] := by
  unfold Client.held
  split
  · next f hr =>
    obtain ⟨ch, hc, hl, hfull⟩ := full_of_deliver? hr h.1
    cases hq : ch.queue with
    | nil =>
        rw [hq] at hfull
        cases hfull
    | cons g rest =>
        refine absurd (receive?_of_queue hc hq) (h.2 f.callId g _ ?_)
        simp only [isOpen, ho, hc, hl, List.all_nil, Option.any_some, Bool.and_self]
  · rfl

/-- Handing something over leaves less to hand over. -/
theorem exists_handsOver (hids : s.client.ids.Nodup) (h : ¬ s.AtRest) :
    ∃ m t, m.handsOver = true ∧ s.step? k m = some t ∧ t.backlog < s.backlog := by
  cases hd : s.client.deliver? with
  | none =>
      rw [AtRest, not_and] at h
      have hsome := h hd
      push Not at hsome
      obtain ⟨id, f, c, ho, hc⟩ := hsome
      obtain ⟨ch, hch, -⟩ := exists_of_isOpen ho
      cases hq : ch.queue with
      | nil =>
          simp only [Client.receive?, hch, hq] at hc
          split at hc <;> cases hc
      | cons g rest =>
          let taken : Client := s.client.modify id fun ch => { ch with queue := rest }
          refine ⟨.take id, { s with client := taken }, rfl, ?_, ?_⟩
          · simp only [step?, ho, if_true, receive?_of_queue hch hq, Option.map_some, taken]
          · have hless : waiting taken + ch.queue.length = waiting s.client + rest.length :=
              waiting_modify hids hch _
            have hheld : taken.held = s.client.held := rfl
            rw [hq, List.length_cons] at hless
            simp only [backlog, hheld]
            omega
  | some c =>
      have hstep : s.step? k .deliver = some { s with client := c } := by
        rw [step?, hd]
        rfl
      refine ⟨.deliver, _, rfl, hstep, ?_⟩
      cases Client.delivers_of_deliver? hd with
      | @put f ch hr hc hl hroom =>
          let put (ch : ReplyChannel) : ReplyChannel := { ch with queue := ch.queue ++ [f] }
          have hmore : waiting (s.client.modify f.callId put) + ch.queue.length =
              waiting s.client + (ch.queue ++ [f]).length := waiting_modify hids hc put
          have hsame : waiting { s.client.modify f.callId put with reader := .reading } =
              waiting (s.client.modify f.callId put) := rfl
          rw [List.length_append, List.length_singleton] at hmore
          rw [backlog, backlog, Client.held_of_reading rfl, Client.held_of_delivering hr, hsame,
            List.length_nil, List.length_singleton]
          omega
      | drop hr hno =>
          have hsame : waiting { s.client with reader := .reading } = waiting s.client := rfl
          rw [backlog, backlog, Client.held_of_reading rfl, Client.held_of_delivering hr, hsame,
            List.length_nil, List.length_singleton]
          omega

/-- **Everything gets to where it can get**, if only it is handed over. -/
theorem exists_rest (k : Checksum) (hids : s.client.ids.Nodup) :
    ∃ ms t, (∀ m ∈ ms, m.handsOver = true) ∧ s.run? k ms = some t ∧ t.AtRest := by
  induction hn : s.backlog using Nat.strongRecOn generalizing s with
  | ind n ih =>
      by_cases h : s.AtRest
      · refine ⟨[], s, ?_, rfl, h⟩
        intro m hm
        cases hm
      · obtain ⟨m, t, hm, hstep, hless⟩ := exists_handsOver (k := k) hids h
        have hkeeps := (step_of_step? hstep).keeps_of_handsOver hm
        obtain ⟨ms, u, hms, hrun, hrest⟩ := ih t.backlog (hn ▸ hless) (hkeeps.1 ▸ hids) rfl
        refine ⟨m :: ms, u, ?_, ?_, hrest⟩
        · intro m' hm'
          rcases List.mem_cons.1 hm' with rfl | hm'
          · exact hm
          · exact hms m' hm'
        · rw [run?_cons hstep]
          exact hrun

end Callers

end DeviceGateway
