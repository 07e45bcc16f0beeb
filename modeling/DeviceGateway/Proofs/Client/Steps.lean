import DeviceGateway.Client.Exchange
import DeviceGateway.Proofs.Call.Polling

/-!
# Steps of a client

Each thing that can happen to a client and its exchanges, with what must hold before and what comes
of it (`Exchanges.step_of_step?`). Exchanges and channels are known by their numbers: a step changes
the exchange with one number and the channel with one number, and no other.
-/

namespace DeviceGateway

/-! ## Channels -/

namespace ReplyChannel

/-- What becomes of a channel that a frame is taken to: after a status there is no route. -/
def after (f : Frame) (ch : ReplyChannel) : ReplyChannel :=
  if f.kind = .status then { ch with routed := false } else ch

variable (f : Frame) (ch : ReplyChannel)

@[simp] theorem id_after : (ch.after f).id = ch.id := by
  unfold after
  split <;> rfl

@[simp] theorem listening_after : (ch.after f).listening = ch.listening := by
  unfold after
  split <;> rfl

@[simp] theorem queue_after : (ch.after f).queue = ch.queue := by
  unfold after
  split <;> rfl

end ReplyChannel

namespace Client

variable {c c' : Client} {id : UInt64} {ch : ReplyChannel}

theorem id_of_channel? (h : c.channel? id = some ch) : ch.id = id := by
  have := List.find?_some h
  simpa using this

theorem channel?_modify (c : Client) (id : UInt64) {f : ReplyChannel → ReplyChannel}
    (hf : ∀ ch, (f ch).id = ch.id) (i : UInt64) :
    (c.modify id f).channel? i = if i = id then (c.channel? i).map f else c.channel? i := by
  have hg : ∀ ch : ReplyChannel, (if ch.id = id then f ch else ch).id = ch.id := by
    intro ch
    split
    · exact hf ch
    · rfl
  have hfind : (c.modify id f).channel? i =
      (c.channel? i).map fun ch => if ch.id = id then f ch else ch := by
    rw [channel?, modify, List.find?_map, channel?]
    congr 2
    funext ch
    simp only [Function.comp_apply, hg]
  rw [hfind]
  cases hc : c.channel? i with
  | none => split <;> rfl
  | some ch =>
      rw [Option.map_some, id_of_channel? hc]
      split <;> rfl

theorem channel?_modify_self (h : c.channel? id = some ch) {f : ReplyChannel → ReplyChannel}
    (hf : ∀ ch, (f ch).id = ch.id) : (c.modify id f).channel? id = some (f ch) := by
  rw [channel?_modify c id hf, if_pos rfl, h]
  rfl

theorem channel?_modify_of_ne {f : ReplyChannel → ReplyChannel} (hf : ∀ ch, (f ch).id = ch.id)
    {i : UInt64} (hi : i ≠ id) : (c.modify id f).channel? i = c.channel? i := by
  rw [channel?_modify c id hf, if_neg hi]

theorem channel?_unlisten_self (h : c.channel? id = some ch) :
    (c.unlisten id).channel? id = some { ch with listening := false, queue := [] } :=
  channel?_modify_self h fun _ => rfl

theorem channel?_unlisten_of_ne {i : UInt64} (hi : i ≠ id) :
    (c.unlisten id).channel? i = c.channel? i := by
  refine channel?_modify_of_ne ?_ hi
  exact fun _ => rfl

/-- **A number is taken**, with a channel that nothing has arrived on. -/
theorem channel?_register (hfree : c.channel? c.nextId = none) (i : UInt64) :
    c.register.2.channel? i =
      if i = c.nextId then some ⟨c.nextId, [], true, true⟩ else c.channel? i := by
  show (c.channels ++ [_]).find? _ = _
  rw [List.find?_append]
  split
  · next hi =>
    subst hi
    rw [channel?] at hfree
    rw [hfree]
    simp
  · next hi =>
    rw [show c.channels.find? (·.id == i) = c.channel? i from rfl]
    simp [Ne.symm hi]

/-! ### The reader -/

/-- A frame without a route is dropped. -/
theorem route_of_unrouted {f : Frame} (h : ∀ ch, c.channel? f.callId = some ch → ch.routed = false) :
    c.route f = c := by
  unfold route
  split
  · rfl
  · next ch hc => rw [h ch hc, if_neg (by decide)]

theorem route_of_routed {f : Frame} (hc : c.channel? f.callId = some ch) (hr : ch.routed = true) :
    c.route f = { c.modify f.callId (·.after f) with reader := .delivering f } := by
  have hid : c.modify f.callId (fun ch => ch) = c := by
    simp only [modify, ite_self, List.map_id']
  unfold route
  rw [hc]
  simp only [hr, if_true, ReplyChannel.after]
  split
  · rfl
  · rw [hid]

/-- Taking a frame to its channel leaves the connection alone. -/
theorem route_keeps (c : Client) (f : Frame) :
    (c.route f).unread = c.unread ∧ (c.route f).hungUp = c.hungUp := by
  unfold route
  split
  · exact ⟨rfl, rfl⟩
  · split
    · dsimp only
      split <;> exact ⟨rfl, rfl⟩
    · exact ⟨rfl, rfl⟩

theorem route_leaves (c : Client) (f : Frame) :
    (c.route f).nextId = c.nextId ∧ (c.route f).outbox = c.outbox ∧
      (c.reader ≠ .gone → (c.route f).reader ≠ .gone) := by
  unfold route
  split
  · exact ⟨rfl, rfl, id⟩
  · split
    · dsimp only
      split <;> exact ⟨rfl, rfl, nofun⟩
    · exact ⟨rfl, rfl, id⟩

/-- A frame is held for its channel, or dropped. -/
theorem reader_route (c : Client) (f : Frame) :
    (c.route f).reader = c.reader ∨ (c.route f).reader = .delivering f := by
  unfold route
  split
  · exact .inl rfl
  · split
    · exact .inr rfl
    · exact .inl rfl

/-- A frame that is read changes no channel but that of its call. -/
theorem channel?_route_of_ne {f : Frame} (hid : f.callId ≠ id) : (c.route f).channel? id = c.channel? id := by
  cases hc : c.channel? f.callId with
  | none =>
      rw [route_of_unrouted]
      intro ch hch
      cases hc.symm.trans hch
  | some ch =>
      cases hroute : ch.routed with
      | true =>
          rw [route_of_routed hc hroute]
          exact channel?_modify_of_ne (fun ch => ch.id_after f) (Ne.symm hid)
      | false =>
          rw [route_of_unrouted]
          intro ch' hch'
          cases hc.symm.trans hch'
          exact hroute

theorem channel?_leave (c : Client) (id : UInt64) :
    c.leave.channel? id = (c.channel? id).map ({ · with routed := false }) :=
  List.find?_map

/-- **What the reader does when it reads.** -/
inductive Reads (k : Checksum) (c : Client) : Client → Prop
  | hear {f : Frame} {rest : Bytes} (hr : c.reader = .reading)
      (hd : Frame.decode k c.unread = .frame f rest) :
      Reads k c ({ c with unread := rest }.route f)
  | fault {e : FrameFault} {rest : Bytes} (hr : c.reader = .reading)
      (hd : Frame.decode k c.unread = .fault e rest) : Reads k c { c with unread := rest }.leave
  | ending (hr : c.reader = .reading) (hd : Frame.decode k c.unread = .more)
      (hh : c.hungUp = true) : Reads k c c.leave

theorem reads_of_read? {k : Checksum} (h : c.read? k = some c') : c.Reads k c' := by
  unfold read? at h
  split at h
  · next hr =>
    split at h
    · next f rest hd =>
      cases h
      exact .hear hr hd
    · next e rest hd =>
      cases h
      exact .fault hr hd
    · next hd =>
      split at h
      · next hh =>
        cases h
        exact .ending hr hd hh
      · cases h
  · cases h

/-- **What the reader does with the frame that it holds.** -/
inductive Delivers (c : Client) : Client → Prop
  | put {f : Frame} {ch : ReplyChannel} (hr : c.reader = .delivering f)
      (hc : c.channel? f.callId = some ch) (hl : ch.listening = true)
      (hroom : ch.queue.length < capacity) :
      Delivers c { c.modify f.callId fun ch => { ch with queue := ch.queue ++ [f] } with
        reader := .reading }
  | drop {f : Frame} (hr : c.reader = .delivering f)
      (hno : ∀ ch, c.channel? f.callId = some ch → ch.listening = false) :
      Delivers c { c with reader := .reading }

theorem delivers_of_deliver? (h : c.deliver? = some c') : c.Delivers c' := by
  unfold deliver? at h
  split at h
  · next f hr =>
    split at h
    · next hc =>
      cases h
      exact .drop hr fun ch h => by rw [hc] at h; cases h
    · next ch hc =>
      split at h
      · next hl =>
        cases h
        refine .drop hr fun ch' h => ?_
        rw [hc] at h
        cases h
        simpa using hl
      · next hl =>
        split at h
        · next hroom =>
          cases h
          exact .put hr hc (by simpa using hl) hroom
        · cases h
  · cases h

/-! ### The callers and the writer -/

/-- **What queuing a frame comes to**: it could not be made, nobody will write it, or it is put into
the outbox. -/
inductive Queues (c : Client) : Except FrameFault Frame → Except GatewayError Unit → Client → Prop
  | spoiled {fault : FrameFault} : Queues c (.error fault) (.error fault.toError) c
  | closed {f : Frame} (hclosed : c.outbox.isOpen = false) :
      Queues c (.ok f) (.error .channelClosed) c
  | queued {f : Frame} {outbox : Outbox} (hput : c.outbox.put? f = some (.ok outbox)) :
      Queues c (.ok f) (.ok ()) { c with outbox }

theorem queues_of_queue? {made : Except FrameFault Frame} {result : Except GatewayError Unit}
    (h : c.queue? made = some (result, c')) : c.Queues made result c' := by
  unfold queue? at h
  split at h
  · cases h
    exact .spoiled
  · split at h
    · cases h
    · next e hput =>
      cases h
      obtain ⟨hclosed, rfl⟩ := Outbox.put?_eq_error_iff.1 hput
      exact .closed hclosed
    · next outbox hput =>
      cases h
      exact .queued hput

/-- **What comes out of the channel of a call**: the next frame, or the end when no more can come. -/
inductive Receives (c : Client) (id : UInt64) : Option Frame → Client → Prop
  | frame {ch : ReplyChannel} {f : Frame} {rest : List Frame} (hc : c.channel? id = some ch)
      (hq : ch.queue = f :: rest) :
      Receives c id (some f) (c.modify id ({ · with queue := rest }))
  | ending (hc : ∀ ch, c.channel? id = some ch →
        ch.queue = [] ∧ ch.routed = false ∧ c.isDelivering id = false) :
      Receives c id none c

theorem receives_of_receive? {f : Option Frame} (h : c.receive? id = some (f, c')) :
    c.Receives id f c' := by
  unfold receive? at h
  split at h
  · next hc =>
    cases h
    refine .ending ?_
    intro ch hch
    cases hc.symm.trans hch
  · next ch hc =>
    split at h
    · next f rest hq =>
      cases h
      exact .frame hc hq
    · next hq =>
      split at h
      · cases h
      · next hmore =>
        cases h
        rw [Bool.or_eq_true, not_or] at hmore
        refine .ending ?_
        intro ch' hch'
        cases hc.symm.trans hch'
        exact ⟨hq, eq_false_of_ne_true hmore.1, eq_false_of_ne_true hmore.2⟩

/-- The writer takes the first frame. -/
theorem write?_eq_some_iff {f : Frame} :
    c.write? = some (f, c') ↔
      ∃ rest, c.outbox.queue = f :: rest ∧
        c' = { c with outbox := { c.outbox with queue := rest } } := by
  unfold write? Outbox.take?
  cases c.outbox.queue with
  | nil => simp
  | cons g rest =>
      constructor
      · intro h
        cases h
        exact ⟨rest, rfl, rfl⟩
      · rintro ⟨_, hq, rfl⟩
        cases hq
        rfl

end Client

/-! ## One exchange -/

namespace Exchange

variable {x x' : Exchange} {c c' : Client}

/-- Whether an exchange is over. -/
def isOver (x : Exchange) : Bool :=
  match x.stage with
  | .finished _ => true
  | _ => false

theorem isSome_answer? (x : Exchange) : x.answer?.isSome = x.isOver := by
  unfold answer? isOver
  cases x.stage with
  | finished failure => cases failure <;> rfl
  | queuing | reading => rfl

/-- The frames that an exchange has still to queue. -/
def toQueue (x : Exchange) : List (Except FrameFault Frame) :=
  match x.stage with
  | .queuing script => script
  | _ => []

/-- **What a step of an exchange does.** -/
inductive Step (x : Exchange) (c : Client) : Exchange → Client → Prop
  | pass (hs : x.stage = .queuing []) : Step x c { x with stage := .reading } c
  | queue {f : Frame} {rest : List (Except FrameFault Frame)} {outbox : Outbox}
      (hs : x.stage = .queuing (.ok f :: rest)) (hput : c.outbox.put? f = some (.ok outbox)) :
      Step x c { x with stage := .queuing rest, queued := x.queued ++ [f] } { c with outbox }
  | giveUp {f : Except FrameFault Frame} {rest : List (Except FrameFault Frame)} {e : GatewayError}
      (hs : x.stage = .queuing (f :: rest))
      (he : (∃ fault, f = .error fault) ∨ c.outbox.isOpen = false) :
      Step x c { x with stage := .finished (some e) } (c.unlisten x.id)
  | take {ch : ReplyChannel} {f : Frame} {rest : List Frame} (hs : x.stage = .reading)
      (hc : c.channel? x.id = some ch) (hq : ch.queue = f :: rest)
      (hmore : isSatisfied { x with received := x.received ++ [f] } = false) :
      Step x c { x with received := x.received ++ [f] }
        (c.modify x.id ({ · with queue := rest }))
  | finish {ch : ReplyChannel} {f : Frame} {rest : List Frame} (hs : x.stage = .reading)
      (hc : c.channel? x.id = some ch) (hq : ch.queue = f :: rest)
      (hwhole : isSatisfied { x with received := x.received ++ [f] } = true) :
      Step x c { x with received := x.received ++ [f], stage := .finished none }
        ((c.modify x.id ({ · with queue := rest })).unlisten x.id)
  | cut (hs : x.stage = .reading)
      (hc : ∀ ch, c.channel? x.id = some ch →
        ch.queue = [] ∧ ch.routed = false ∧ c.isDelivering x.id = false) :
      Step x c { x with stage := .finished none } (c.unlisten x.id)

theorem step_of_queueNext? {f : Except FrameFault Frame} {rest : List (Except FrameFault Frame)}
    (hs : x.stage = .queuing (f :: rest)) (hq : x.queueNext? c f rest = some (x', c')) :
    Step x c x' c' := by
  unfold queueNext? at hq
  split at hq
  · cases hq
  · next hqueue =>
    cases hq
    cases Client.queues_of_queue? hqueue with
    | spoiled => exact .giveUp hs (.inl ⟨_, rfl⟩)
    | closed hclosed => exact .giveUp hs (.inr hclosed)
  · next hqueue =>
    cases hq
    cases Client.queues_of_queue? hqueue with
    | queued hput => exact .queue hs hput

theorem step_of_takeNext? (hs : x.stage = .reading) (ht : x.takeNext? c = some (x', c')) :
    Step x c x' c' := by
  unfold takeNext? at ht
  split at ht
  · cases ht
  · next hreceive =>
    cases ht
    cases Client.receives_of_receive? hreceive with
    | ending hc => exact .cut hs hc
  · next f c₁ hreceive =>
    cases Client.receives_of_receive? hreceive with
    | frame hc hq =>
        dsimp only at ht
        split at ht
        · next hwhole =>
          cases ht
          exact .finish hs hc hq hwhole
        · next hwhole =>
          cases ht
          exact .take hs hc hq (eq_false_of_ne_true hwhole)

theorem step_of_step? (h : x.step? c = some (x', c')) : Step x c x' c' := by
  unfold step? at h
  split at h
  · next hs =>
    cases h
    exact .pass hs
  · next f rest hs => exact step_of_queueNext? hs h
  · next hs => exact step_of_takeNext? hs h
  · cases h

/-- A step keeps the number of the exchange, and what it is about. -/
theorem Step.same (h : Step x c x' c') : x'.id = x.id ∧ x'.kind = x.kind := by
  cases h <;> exact ⟨rfl, rfl⟩

/-- A step of an exchange leaves the connection alone. -/
theorem Step.keeps (h : Step x c x' c') : c'.unread = c.unread ∧ c'.hungUp = c.hungUp := by
  cases h <;> exact ⟨rfl, rfl⟩

/-- A step of an exchange leaves the channels of others alone, and the reader. -/
theorem Step.others (h : Step x c x' c') :
    (∀ i, i ≠ x.id → c'.channel? i = c.channel? i) ∧ c'.reader = c.reader := by
  cases h with
  | pass | queue => exact ⟨fun _ _ => rfl, rfl⟩
  | giveUp | cut => exact ⟨fun i hi => Client.channel?_unlisten_of_ne hi, rfl⟩
  | take =>
      refine ⟨fun i hi => Client.channel?_modify_of_ne ?_ hi, rfl⟩
      exact fun _ => rfl
  | finish =>
      refine ⟨fun i hi => (Client.channel?_unlisten_of_ne hi).trans
        (Client.channel?_modify_of_ne ?_ hi), rfl⟩
      exact fun _ => rfl

/-- **An exchange queues the frames of its script in order**, if all of them could be made and the
outbox is open. -/
theorem Step.script (h : Step x c x' c') (ho : c.outbox.isOpen = true) {left : List Frame}
    (hl : x.toQueue = left.map .ok) :
    ∃ new left', left = new ++ left' ∧ x'.toQueue = left'.map .ok ∧
      c'.outbox.queue = c.outbox.queue ++ new := by
  have reading : x.stage = .reading → x'.toQueue = [] → c'.outbox.queue = c.outbox.queue →
      ∃ new left', left = new ++ left' ∧ x'.toQueue = left'.map .ok ∧
        c'.outbox.queue = c.outbox.queue ++ new := by
    intro hs hx' hq
    have hnil : left = [] := by
      simp only [toQueue, hs] at hl
      exact List.map_eq_nil_iff.1 hl.symm
    exact ⟨[], [], hnil, hx', by rw [hq, List.append_nil]⟩
  cases h with
  | pass hs =>
      have hnil : left = [] := by
        simp only [toQueue, hs] at hl
        exact List.map_eq_nil_iff.1 hl.symm
      exact ⟨[], [], hnil, rfl, (List.append_nil _).symm⟩
  | @queue f rest outbox hs hput =>
      obtain ⟨-, -, rfl⟩ := Outbox.put?_eq_ok_iff.1 hput
      simp only [toQueue, hs] at hl
      obtain ⟨g, left', rfl, hg, hrest⟩ := List.map_eq_cons_iff.1 hl.symm
      cases hg
      exact ⟨[f], left', rfl, hrest.symm, rfl⟩
  | @giveUp f rest e hs he =>
      simp only [toQueue, hs] at hl
      obtain ⟨g, left', rfl, rfl, hrest⟩ := List.map_eq_cons_iff.1 hl.symm
      rcases he with ⟨fault, he⟩ | hc
      · cases he
      · rw [ho] at hc
        cases hc
  | take hs =>
      refine reading hs ?_ rfl
      simp only [toQueue, hs]
  | finish hs => exact reading hs rfl rfl
  | cut hs => exact reading hs rfl rfl

/-- An exchange queues frames of its script, and leaves the reader alone. -/
theorem Step.queues (h : Step x c x' c') :
    (∀ f ∈ c'.outbox.queue, f ∈ c.outbox.queue ∨ .ok f ∈ x.toQueue) ∧ c'.reader = c.reader := by
  cases h with
  | @queue f rest outbox hs hput =>
      obtain ⟨-, -, rfl⟩ := Outbox.put?_eq_ok_iff.1 hput
      refine ⟨fun g hg => ?_, rfl⟩
      rcases List.mem_append.1 hg with hg | hg
      · exact .inl hg
      · rw [List.mem_singleton.1 hg]
        simp only [toQueue, hs]
        exact .inr List.mem_cons_self
  | _ => exact ⟨fun _ hg => .inl hg, rfl⟩

/-! ### Scripts -/

/-- The frames of a request have its number. -/
theorem callId_of_mem_request {id : UInt64} {r : CallRequest} {f : Frame}
    (hf : .ok f ∈ request id r) : f.callId = id :=
  (Frame.of_make (List.mem_singleton.1 hf).symm).2.1

/-- The frames of an upload have its number. -/
theorem callId_of_mem_upload {id : UInt64} {service method : String} {messages : List Bytes}
    {f : Frame} (hf : .ok f ∈ upload id service method messages) : f.callId = id := by
  rw [upload] at hf
  rcases List.mem_append.1 hf with hf | hf
  · rcases List.mem_cons.1 hf with hf | hf
    · exact (Frame.of_make hf.symm).2.1
    · obtain ⟨m, -, hm⟩ := List.mem_map.1 hf
      exact (Frame.of_make hm).2.1
  · rw [List.mem_singleton, Except.ok.injEq] at hf
    rw [hf]
    rfl

end Exchange

/-! ## All exchanges -/

namespace Exchanges

variable {k : Checksum} {s s' : Exchanges}

/-- Puts an exchange in the place of the one with its number. -/
def replace (s : Exchanges) (x : Exchange) (client : Client) : Exchanges :=
  { s with client, exchanges := s.exchanges.map fun y => if y.id = x.id then x else y }

theorem id_of_exchange? {id : UInt64} {x : Exchange} (h : s.exchange? id = some x) : x.id = id := by
  have := List.find?_some h
  simpa using this

theorem exchange?_replace {x x' : Exchange} (hx : s.exchange? x'.id = some x) (client : Client)
    (i : UInt64) :
    (s.replace x' client).exchange? i = if i = x'.id then some x' else s.exchange? i := by
  have hg : ∀ y : Exchange, (if y.id = x'.id then x' else y).id = y.id := by
    intro y
    split
    · next hy => exact hy.symm
    · rfl
  have hfind : (s.replace x' client).exchange? i =
      (s.exchange? i).map fun y => if y.id = x'.id then x' else y := by
    rw [exchange?, replace, List.find?_map, exchange?]
    congr 2
    funext y
    simp only [Function.comp_apply, hg]
  rw [hfind]
  split
  · next hi =>
    subst hi
    rw [hx, Option.map_some, if_pos (id_of_exchange? hx)]
  · next hi =>
    cases hy : s.exchange? i with
    | none => rfl
    | some y =>
        rw [Option.map_some, if_neg]
        rw [id_of_exchange? hy]
        exact hi

theorem exchange?_begin (hfree : s.exchange? s.client.nextId = none) (kind : ExchangeKind)
    (script : UInt64 → List (Except FrameFault Frame)) (i : UInt64) :
    (s.begin kind script).exchange? i =
      if i = s.client.nextId then some (.begin s.client.nextId kind (script s.client.nextId))
      else s.exchange? i := by
  show (s.exchanges ++ [_]).find? _ = _
  rw [List.find?_append]
  split
  · next hi =>
    subst hi
    rw [exchange?] at hfree
    rw [hfree]
    simp [Exchange.begin]
  · next hi =>
    rw [show s.exchanges.find? (·.id == i) = s.exchange? i from rfl]
    simp [Exchange.begin, Ne.symm hi]

/-- **What a step of a client does**: one case for each thing that can happen. -/
inductive Step (k : Checksum) (s : Exchanges) : Move → Exchanges → Prop
  | request {kind : ExchangeKind} {r : CallRequest} :
      Step k s (.request kind r) (s.begin kind fun id => Exchange.request id r)
  | upload {service method : String} {messages : List Bytes} :
      Step k s (.upload service method messages)
        (s.begin .reply fun id => Exchange.upload id service method messages)
  | exchange {x x' : Exchange} {client : Client} (hx : s.exchange? x.id = some x)
      (hstep : x.Step s.client x' client) : Step k s (.step x.id) (s.replace x' client)
  | hear {f : Frame} {rest : Bytes} (hr : s.client.reader = .reading)
      (hd : Frame.decode k s.client.unread = .frame f rest) :
      Step k s .read { s with client := { s.client with unread := rest }.route f }
  | fault {e : FrameFault} {rest : Bytes} (hr : s.client.reader = .reading)
      (hd : Frame.decode k s.client.unread = .fault e rest) :
      Step k s .read { s with client := { s.client with unread := rest }.leave }
  | ending (hr : s.client.reader = .reading) (hd : Frame.decode k s.client.unread = .more)
      (hh : s.client.hungUp = true) : Step k s .read { s with client := s.client.leave }
  | deliver {f : Frame} {ch : ReplyChannel} (hr : s.client.reader = .delivering f)
      (hc : s.client.channel? f.callId = some ch) (hl : ch.listening = true)
      (hroom : ch.queue.length < Client.capacity) :
      Step k s .deliver
        { s with client :=
          { s.client.modify f.callId fun ch => { ch with queue := ch.queue ++ [f] } with
            reader := .reading } }
  | drop {f : Frame} (hr : s.client.reader = .delivering f)
      (hno : ∀ ch, s.client.channel? f.callId = some ch → ch.listening = false) :
      Step k s .deliver { s with client := { s.client with reader := .reading } }
  | write {f : Frame} {rest : List Frame} (hq : s.client.outbox.queue = f :: rest) :
      Step k s .write
        { s with client := { s.client with outbox := { s.client.outbox with queue := rest } }
                 written := s.written ++ [f] }
  | failWriting :
      Step k s .failWriting { s with client := { s.client with outbox := s.client.outbox.close } }
  | arrive {data : Bytes} : Step k s (.arrive data) { s with client := s.client.arrive data }
  | hangUp : Step k s .hangUp { s with client := { s.client with hungUp := true } }

/-- No exchange is forgotten. -/
theorem Step.length_le {m : Move} (h : Step k s m s') :
    s.exchanges.length ≤ s'.exchanges.length := by
  cases h with
  | request | upload =>
      show s.exchanges.length ≤ (s.exchanges ++ [_]).length
      rw [List.length_append]
      exact Nat.le_add_right _ _
  | exchange => exact Nat.le_of_eq (List.length_map _).symm
  | _ => exact Nat.le_refl _

theorem step_of_act? {id : UInt64} (h : s.act? id = some s') : Step k s (.step id) s' := by
  unfold act? at h
  cases hx : s.exchanges.find? (·.id == id) with
  | none =>
      rw [hx] at h
      cases h
  | some x =>
      rw [hx] at h
      rw [Option.map_eq_some_iff] at h
      obtain ⟨⟨x', client⟩, hstep, rfl⟩ := h
      have hstep := Exchange.step_of_step? hstep
      have hid : x.id = id := id_of_exchange? hx
      subst hid
      have hput : s.replace x' client =
          { s with client, exchanges := s.exchanges.map fun y => if y.id = x.id then x' else y } := by
        rw [replace, hstep.same.1]
      dsimp only
      rw [← hput]
      exact .exchange hx hstep

theorem step_of_read? {client : Client} (h : s.client.read? k = some client) :
    Step k s .read { s with client } := by
  cases Client.reads_of_read? h with
  | hear hr hd => exact .hear hr hd
  | fault hr hd => exact .fault hr hd
  | ending hr hd hh => exact .ending hr hd hh

theorem step_of_deliver? {client : Client} (h : s.client.deliver? = some client) :
    Step k s .deliver { s with client } := by
  cases Client.delivers_of_deliver? h with
  | put hr hc hl hroom => exact .deliver hr hc hl hroom
  | drop hr hno => exact .drop hr hno

theorem step_of_step? {m : Move} (h : s.step? k m = some s') : Step k s m s' := by
  cases m with
  | request kind r =>
      cases h
      exact .request
  | upload service method messages =>
      cases h
      exact .upload
  | step id => exact step_of_act? h
  | read =>
      obtain ⟨client, hr, rfl⟩ := Option.map_eq_some_iff.1 h
      exact step_of_read? hr
  | deliver =>
      obtain ⟨client, hr, rfl⟩ := Option.map_eq_some_iff.1 h
      exact step_of_deliver? hr
  | write =>
      obtain ⟨⟨f, client⟩, hw, rfl⟩ := Option.map_eq_some_iff.1 h
      obtain ⟨rest, hq, rfl⟩ := Client.write?_eq_some_iff.1 hw
      exact .write hq
  | failWriting =>
      cases h
      exact .failWriting
  | arrive data =>
      cases h
      exact .arrive
  | hangUp =>
      cases h
      exact .hangUp

/-- **What every step keeps, every run keeps.** -/
theorem run?_induction {P : Exchanges → Prop} (keeps : ∀ {s t m}, P s → Step k s m t → P t)
    {ms : List Move} (hs : P s) (hrun : s.run? k ms = some s') : P s' := by
  induction ms generalizing s with
  | nil =>
      cases hrun
      exact hs
  | cons m ms ih =>
      obtain ⟨t, hstep, hrest⟩ := Option.bind_eq_some_iff.1 hrun
      exact ih (keeps hs (step_of_step? hstep)) hrest

end Exchanges

end DeviceGateway
