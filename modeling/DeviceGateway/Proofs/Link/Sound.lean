import DeviceGateway.Proofs.Client.Orderly
import DeviceGateway.Proofs.Link.Basic
import DeviceGateway.Proofs.Server.Running

/-!
# Links on which nothing is lost

On such a link everything that carries a number belongs to an exchange that has begun
(`Traffic.Mentions`), and each exchange opens its call once: its request waits to be queued, or is on
its way, or the call is there, but no two of these (`Traffic.opens`). So no number is used twice, and
both sides go on (`Traffic.Sound.flow`).
-/

namespace DeviceGateway

/-- How many of the frames open a call under a number. -/
def Frame.openings (id : UInt64) (frames : List Frame) : Nat :=
  frames.countP fun f => f.kind == .call && f.callId == id

/-- Whether a frame of a script opens a call. -/
def Exchange.isOpening : Except FrameFault Frame → Bool
  | .ok f => f.kind == .call
  | .error _ => false

/-- How many of the frames that an exchange has still to queue open a call. -/
def Exchange.openings (x : Exchange) : Nat := x.toQueue.countP isOpening

theorem Frame.openings_append (id : UInt64) (fs gs : List Frame) :
    openings id (fs ++ gs) = openings id fs + openings id gs := List.countP_append

theorem Frame.openings_singleton (id : UInt64) (f : Frame) :
    openings id [f] = if f.kind = .call ∧ f.callId = id then 1 else 0 := by
  simp only [openings, List.countP_singleton, Bool.and_eq_true, beq_iff_eq]

theorem Frame.openings_cons (id : UInt64) (f : Frame) (fs : List Frame) :
    openings id (f :: fs) = openings id [f] + openings id fs := openings_append id [f] fs

namespace Exchange

/-! ## Scripts -/

/-- A request opens one call. -/
theorem openings_request (i : UInt64) (kind : ExchangeKind) (id : UInt64) (r : CallRequest) :
    (begin i kind (request id r)).openings ≤ 1 := List.countP_le_length

/-- An upload opens one call: nothing but its first frame does. -/
theorem openings_upload (i : UInt64) (kind : ExchangeKind) (id : UInt64) (service method : String)
    (messages : List Bytes) :
    (begin i kind (upload id service method messages)).openings ≤ 1 := by
  have hrest : List.countP isOpening
      (messages.map (Frame.message id) ++ [.ok (.halfClose id)]) = 0 := by
    rw [List.countP_eq_zero]
    intro f hf
    rcases List.mem_append.1 hf with hf | hf
    · obtain ⟨m, -, rfl⟩ := List.mem_map.1 hf
      cases hm : Frame.message id m with
      | error e => exact nofun
      | ok f => simp [isOpening, (Frame.of_make hm).1]
    · rw [List.mem_singleton.1 hf]
      exact nofun
  show List.countP isOpening (Frame.call id ⟨service, method, []⟩ :: (_ ++ _)) ≤ 1
  rw [List.countP_cons]
  split
  · exact Nat.le_of_eq (congrArg (· + 1) hrest)
  · exact Nat.le_succ_of_le (Nat.le_of_eq hrest)

/-- **What a step of an exchange puts into the outbox** opens no more calls than the exchange had
still to open. -/
theorem Step.openings {x x' : Exchange} {c c' : Client} (h : Step x c x' c') :
    ∃ new, c'.outbox.queue = c.outbox.queue ++ new ∧ (∀ f ∈ new, .ok f ∈ x.toQueue) ∧
      Frame.openings x.id new + x'.openings ≤ x.openings := by
  have none : ∀ {y : Exchange}, y.toQueue = x.toQueue ∨ y.toQueue = [] →
      ∃ new, c.outbox.queue = c.outbox.queue ++ new ∧ (∀ f ∈ new, .ok f ∈ x.toQueue) ∧
        Frame.openings x.id new + y.openings ≤ x.openings := by
    rintro y (hy | hy)
    · refine ⟨[], (List.append_nil _).symm, nofun, ?_⟩
      rw [Exchange.openings, hy, Exchange.openings]
      exact Nat.le_of_eq (Nat.zero_add _)
    · refine ⟨[], (List.append_nil _).symm, nofun, ?_⟩
      rw [Exchange.openings, hy]
      exact Nat.zero_le _
  cases h with
  | @queue f rest outbox hs hput =>
      obtain ⟨-, -, rfl⟩ := Outbox.put?_eq_ok_iff.1 hput
      have hq : x.toQueue = .ok f :: rest := by simp only [toQueue, hs]
      refine ⟨[f], rfl, fun g hg => ?_, ?_⟩
      · rw [List.mem_singleton.1 hg, hq]
        exact List.mem_cons_self
      · rw [Exchange.openings, Exchange.openings, hq, List.countP_cons, Frame.openings_singleton,
          Nat.add_comm]
        refine Nat.add_le_add_left ?_ _
        split
        · next hopen => exact Nat.le_of_eq (if_pos (beq_iff_eq.2 hopen.1)).symm
        · exact Nat.zero_le _
  | take hs => exact none (.inl rfl)
  | pass | giveUp | finish | cut => exact none (.inr rfl)

end Exchange

namespace Traffic

variable {ω σ : Type} {s : Server ω σ} {t t' : Traffic ω σ} {m : Link.Move}

/-- The frames on their way to the server, those that wait to be written included. -/
def rising (t : Traffic ω σ) : List Frame := t.ups ++ t.caller.client.outbox.queue

/-- The frames on their way to the client, those that wait to be written included. -/
def falling (t : Traffic ω σ) : List Frame := t.downs ++ t.gateway.shared.outbox.queue

/-! ### What is on its way after a step -/

section

variable {f : Frame} {rest new : List Frame}

theorem rising_of_same (hu : t'.ups = t.ups)
    (hq : t'.caller.client.outbox.queue = t.caller.client.outbox.queue) :
    t'.rising = t.rising := by
  rw [rising, hu, hq, rising]

theorem rising_of_queued (hu : t'.ups = t.ups)
    (hq : t'.caller.client.outbox.queue = t.caller.client.outbox.queue ++ new) :
    t'.rising = t.rising ++ new := by
  rw [rising, hu, hq, ← List.append_assoc, rising]

theorem rising_of_written (hq : t.caller.client.outbox.queue = f :: rest)
    (hu : t'.ups = t.ups ++ [f]) (hrest : t'.caller.client.outbox.queue = rest) :
    t'.rising = t.rising := by
  rw [rising, hu, hrest, List.append_assoc, rising, hq, List.singleton_append]

theorem rising_of_read (hu : t.ups = f :: t'.ups) (hc : t'.caller = t.caller) :
    t.rising = f :: t'.rising := by
  rw [rising, hu, rising, hc, List.cons_append]

theorem falling_of_same (hd : t'.downs = t.downs) (hg : t'.gateway.shared = t.gateway.shared) :
    t'.falling = t.falling := by
  rw [falling, hd, hg, falling]

theorem falling_of_queued (hd : t'.downs = t.downs)
    (hq : t'.gateway.shared.outbox.queue = t.gateway.shared.outbox.queue ++ new) :
    t'.falling = t.falling ++ new := by
  rw [falling, hd, hq, ← List.append_assoc, falling]

theorem falling_of_written (hq : t.gateway.shared.outbox.queue = f :: rest)
    (hd : t'.downs = t.downs ++ [f]) (hrest : t'.gateway.shared.outbox.queue = rest) :
    t'.falling = t.falling := by
  rw [falling, hd, hrest, List.append_assoc, falling, hq, List.singleton_append]

end

/-- **Whether anything carries a number.** -/
inductive Mentions (t : Traffic ω σ) (id : UInt64) : Prop
  | rising {f : Frame} (h : f ∈ t.rising) (hid : f.callId = id)
  | falling {f : Frame} (h : f ∈ t.falling) (hid : f.callId = id)
  | delivering {f : Frame} (h : t.caller.client.reader = .delivering f) (hid : f.callId = id)
  | feeding {message : Bytes} (h : t.gateway.stage = .feeding id message)
  | rejecting {f : Frame} (h : t.gateway.stage = .rejecting f) (hid : f.callId = id)
  | call (h : t.gateway.pool.contains id = true)

/-- **How often a call is opened under a number**: it is there, its request is on its way, or the
request waits to be queued. -/
def opens (t : Traffic ω σ) (id : UInt64) : Nat :=
  (t.gateway.pool.contains id).toNat + Frame.openings id t.rising +
    (t.caller.exchange? id).elim 0 Exchange.openings

/-- **A link on which both sides are in good order** and no number is used twice. -/
structure Sound (t : Traffic ω σ) : Prop where
  caller : t.caller.Orderly
  gateway : t.gateway.Running
  begun : ∀ id, t.Mentions id → (t.caller.exchange? id).isSome = true
  once : ∀ id, t.opens id ≤ 1

theorem sound_start (world : ω) : (start world : Traffic ω σ).Sound := by
  refine ⟨Exchanges.orderly_new, Connection.running_start world, ?_, ?_⟩
  · rintro id (h | h | h | h | h | h) <;> cases h
  · exact fun id => Nat.zero_le _

/-! ## The client -/

/-- Whoever listens to a channel still does when a frame is taken there. -/
theorem listening_route (c : Client) (f : Frame) (i : UInt64) :
    ((c.route f).channel? i).map (·.listening) = (c.channel? i).map (·.listening) := by
  cases hc : c.channel? f.callId with
  | none =>
      rw [Client.route_of_unrouted fun ch h => by rw [hc] at h; cases h]
  | some ch =>
      cases hr : ch.routed with
      | false =>
          rw [Client.route_of_unrouted fun ch' h => by rw [hc] at h; cases h; exact hr]
      | true =>
          rw [Client.route_of_routed hc hr]
          show ((c.modify f.callId (·.after f)).channel? i).map _ = _
          rw [Client.channel?_modify c f.callId fun ch => ch.id_after f]
          split
          · rw [Option.map_map]
            congr 1
            funext ch
            exact ch.listening_after f
          · rfl

/-- **Every step keeps the client in good order**, as long as there are numbers left. -/
theorem Sound.orderly (h : t.Sound) (hf : Flow s t m t')
    (hroom : t'.caller.exchanges.length + 1 < UInt64.size) : t'.caller.Orderly := by
  have hc := h.caller
  cases hf with
  | request => exact hc.begin hroom fun f => Exchange.callId_of_mem_request
  | upload => exact hc.begin hroom fun f => Exchange.callId_of_mem_upload
  | exchange hx hstep => exact hc.exchange hx hstep
  | further hk hx hput =>
      obtain ⟨ho, hcap⟩ := Outbox.alike_of_put? hput
      exact hc.of_client rfl rfl (fun _ => rfl) (ho.trans hc.isOpen) (hcap.trans hc.capacity)
        hc.reader
  | @hear f rest downs hr hd =>
      obtain ⟨hn, ho, hg⟩ := Client.route_leaves { t.caller.client with unread := rest } f
      refine hc.of_client rfl hn (listening_route _ f) ?_ ?_ ?_
      · exact (congrArg Outbox.isOpen ho).trans hc.isOpen
      · exact (congrArg Outbox.capacity ho).trans hc.capacity
      · exact hg hc.reader
  | @handOver f ch hr hch hl hroom =>
      refine hc.of_client rfl rfl (fun i => ?_) hc.isOpen hc.capacity nofun
      show ((t.caller.client.modify f.callId _).channel? i).map _ = _
      rw [Client.channel?_modify _ _ (by exact fun _ => rfl)]
      split
      · rw [Option.map_map]
        rfl
      · rfl
  | drop hr hno => exact hc.of_client rfl rfl (fun _ => rfl) hc.isOpen hc.capacity nofun
  | say hq => exact hc.of_client rfl rfl (fun _ => rfl) hc.isOpen hc.capacity hc.reader
  | carryDown => exact hc.of_client rfl rfl (fun _ => rfl) hc.isOpen hc.capacity hc.reader
  | carryUp | read | write | serve => exact hc

/-- No exchange is forgotten. -/
theorem isSome_exchange? (hc : t.caller.Orderly) (hf : Flow s t m t') {id : UInt64}
    (hx : (t.caller.exchange? id).isSome = true) : (t'.caller.exchange? id).isSome = true := by
  have begun : ∀ {kind : ExchangeKind} {script : UInt64 → List (Except FrameFault Frame)},
      ((t.caller.begin kind script).exchange? id).isSome = true := by
    intro kind script
    rw [Exchanges.exchange?_begin hc.free]
    split
    · rfl
    · exact hx
  cases hf with
  | request | upload => exact begun
  | exchange hx' hstep =>
      rw [← hstep.same.1] at hx'
      show ((t.caller.replace _ _).exchange? id).isSome = true
      rw [Exchanges.exchange?_replace hx']
      split
      · rfl
      · exact hx
  | _ => exact hx

/-! ## The server -/

/-- **No request comes under a number that is in use.** -/
theorem Sound.free (h : t.Sound) {f : Frame} {ups : List Frame} (hu : t.ups = f :: ups)
    (hk : f.kind = .call) : t.gateway.pool.contains f.callId = false := by
  have honce := h.once f.callId
  rw [opens, rising, hu, List.cons_append, Frame.openings_cons, Frame.openings_singleton,
    if_pos ⟨hk, rfl⟩] at honce
  cases hc : t.gateway.pool.contains f.callId with
  | false => rfl
  | true =>
      rw [hc, Bool.toNat_true] at honce
      omega

/-- **Every step keeps the server running.** -/
theorem Sound.running (h : t.Sound) (hf : Flow s t m t') : t'.gateway.Running := by
  have hg := h.gateway
  cases hf with
  | carryUp =>
      exact ⟨hg.sound.of_pool rfl rfl, hg.going, hg.stays, hg.isOpen, hg.capacity, hg.deaf⟩
  | read hd hu hstep => exact hg.read hd (h.free hu) hstep
  | write hq =>
      exact ⟨hg.sound.of_pool rfl rfl, hg.going, hg.stays, hg.isOpen, hg.capacity, hg.deaf⟩
  | serve hm hstep => exact hg.inside hm hstep
  | _ => exact hg

/-! ## Numbers -/

section

variable {P : UInt64 → Prop} {id : UInt64}

/-- What carries a number after a step of the client that queues some frames. -/
theorem mentions_of_caller (new : List Frame) (h : t'.Mentions id)
    (hm : ∀ id, t.Mentions id → P id)
    (hg : t'.gateway = t.gateway) (hfall : ∀ f ∈ t'.downs, f ∈ t.downs)
    (hrise : t'.rising = t.rising ++ new) (hnew : ∀ f ∈ new, P f.callId)
    (hd : ∀ f, t'.caller.client.reader = .delivering f → P f.callId) : P id := by
  cases h with
  | rising hf hid =>
      rw [hrise] at hf
      exact (List.mem_append.1 hf).elim (fun hf => hm id (.rising hf hid))
        (fun hf => hid ▸ hnew _ hf)
  | @falling f hf hid =>
      refine hm id (.falling ?_ hid)
      rw [Traffic.falling, hg] at hf
      exact (List.mem_append.1 hf).elim (fun h => List.mem_append_left _ (hfall f h))
        (List.mem_append_right _)
  | delivering hdel hid => exact hid ▸ hd _ hdel
  | feeding hs => exact hm id (.feeding (hg ▸ hs))
  | rejecting hs hid => exact hm id (.rejecting (hg ▸ hs) hid)
  | call hc => exact hm id (.call (hg ▸ hc))

/-- What carries a number after a step of the server that queues some frames. -/
theorem mentions_of_gateway (new : List Frame) (h : t'.Mentions id)
    (hm : ∀ id, t.Mentions id → P id)
    (hc : t'.caller = t.caller) (hups : ∀ f ∈ t'.ups, f ∈ t.ups)
    (hfall : t'.falling = t.falling ++ new) (hnew : ∀ f ∈ new, P f.callId)
    (hfeed : ∀ id message, t'.gateway.stage = .feeding id message → P id)
    (hrej : ∀ f, t'.gateway.stage = .rejecting f → P f.callId)
    (hcall : ∀ id, t'.gateway.pool.contains id = true → P id) : P id := by
  cases h with
  | @rising f hf hid =>
      refine hm id (.rising ?_ hid)
      rw [Traffic.rising, hc] at hf
      exact (List.mem_append.1 hf).elim (fun h => List.mem_append_left _ (hups f h))
        (List.mem_append_right _)
  | falling hf hid =>
      rw [hfall] at hf
      exact (List.mem_append.1 hf).elim (fun hf => hm id (.falling hf hid))
        (fun hf => hid ▸ hnew _ hf)
  | delivering hdel hid => exact hm id (.delivering (hc ▸ hdel) hid)
  | feeding hs => exact hfeed id _ hs
  | rejecting hs hid => exact hid ▸ hrej _ hs
  | call hc => exact hcall id hc

end

section

variable {f : Frame} {id : UInt64}

theorem Sound.risen (h : t.Sound) (hf : f ∈ t.rising) :
    (t.caller.exchange? f.callId).isSome = true := h.begun _ (.rising hf rfl)

theorem Sound.fallen (h : t.Sound) (hf : f ∈ t.falling) :
    (t.caller.exchange? f.callId).isSome = true := h.begun _ (.falling hf rfl)

theorem Sound.held (h : t.Sound) (hf : t.caller.client.reader = .delivering f) :
    (t.caller.exchange? f.callId).isSome = true := h.begun _ (.delivering hf rfl)

/-- Whatever carries a number after an exchange has taken a step. -/
theorem Sound.mentioned_exchange (h : t.Sound) {x x' : Exchange} {client : Client}
    (hx : t.caller.exchange? x.id = some x) (hstep : x.Step t.caller.client x' client)
    (hm : Mentions { t with caller := t.caller.replace x' client } id) :
    (t.caller.exchange? id).isSome = true := by
  obtain ⟨new, hq, hnew, -⟩ := hstep.openings
  refine mentions_of_caller new hm h.begun rfl (fun _ h => h) (rising_of_queued rfl hq)
    (fun f hf => ?_) (fun f hf => h.held (hstep.queues.2 ▸ hf))
  rw [h.caller.script hx f (hnew f hf), hx]
  rfl

/-- Whatever carries a number after a frame has been taken from the line. -/
theorem Sound.mentioned_hear (h : t.Sound) {rest : Bytes} {downs : List Frame}
    (hd : t.downs = f :: downs)
    (hm : Mentions { t.withClient ({ t.caller.client with unread := rest }.route f) with downs }
      id) : (t.caller.exchange? id).isSome = true := by
  obtain ⟨-, ho, -⟩ := Client.route_leaves { t.caller.client with unread := rest } f
  refine mentions_of_caller [] hm h.begun rfl (fun g hg => ?_) ?_ nofun (fun g hg => ?_)
  · rw [hd]
    exact List.mem_cons_of_mem _ hg
  · rw [List.append_nil]
    exact rising_of_same rfl (congrArg Outbox.queue ho)
  · rcases Client.reader_route { t.caller.client with unread := rest } f with hsame | hdel
    · exact h.held (hsame ▸ hg)
    · cases hg.symm.trans hdel
      refine h.fallen (List.mem_append_left _ ?_)
      rw [hd]
      exact List.mem_cons_self

/-- Whatever carries a number after the server has read a frame. -/
theorem Sound.mentioned_read (h : t.Sound) {rest : Bytes} {ups : List Frame}
    {gateway : Connection ω σ}
    (hd : Frame.decode s.checksum t.gateway.unread = .frame f rest) (hu : t.ups = f :: ups)
    (hstep : Connection.Step s t.gateway .read gateway)
    (hm : Mentions { t with gateway, ups } id) : (t.caller.exchange? id).isSome = true := by
  have hfirst := h.risen (List.mem_append_left _ (hu ▸ List.mem_cons_self))
  obtain ⟨hfeed, hrej⟩ := hstep.waiting_read hd
  refine mentions_of_gateway [] hm h.begun rfl (fun g hg => ?_) ?_ nofun
    (fun i message hs => hfeed i message hs ▸ hfirst) (fun g hs => hrej g hs ▸ hfirst)
    (fun i hc => ?_)
  · rw [hu]
    exact List.mem_cons_of_mem _ hg
  · rw [List.append_nil]
    exact falling_of_same rfl hstep.shared_read
  · rcases Connection.contains_of_read hd hstep hc with hc | ⟨-, hid⟩
    · exact h.begun i (.call hc)
    · exact hid ▸ hfirst

/-- Whatever carries a number after a step inside the server. -/
theorem Sound.mentioned_serve (h : t.Sound) {m : Connection.Move} {gateway : Connection ω σ}
    (hi : m.isInside = true) (hstep : Connection.Step s t.gateway m gateway)
    (hm : Mentions { t with gateway } id) : (t.caller.exchange? id).isSome = true := by
  obtain ⟨new, hq, hnew⟩ := hstep.queue hi
  obtain ⟨hfeed, hrej⟩ := hstep.waiting_inside hi
  refine mentions_of_gateway new hm h.begun rfl (fun _ h => h) (falling_of_queued rfl hq)
    (fun g hg => ?_) (fun i message hs => h.begun i (.feeding (hfeed i message hs)))
    (fun g hs => h.begun _ (.rejecting (hrej g hs) rfl))
    (fun i hc => h.begun i (.call (Connection.contains_of_inside hstep hi hc)))
  rcases hnew g hg with hs | hc
  · exact h.begun _ (.rejecting hs rfl)
  · exact h.begun _ (.call hc)

/-- **Whatever carries a number after a step** belongs to an exchange that had begun before. -/
theorem Sound.mentioned (h : t.Sound) (hf : Flow s t m t') (hm : t'.Mentions id) :
    (t.caller.exchange? id).isSome = true := by
  -- A step of the client, and one of the server, that only moves frames along.
  have carried : t'.gateway = t.gateway → (∀ f ∈ t'.downs, f ∈ t.downs) → t'.rising = t.rising →
      (∀ f, t'.caller.client.reader = .delivering f → t.caller.client.reader = .delivering f) →
      (t.caller.exchange? id).isSome = true := fun hg hdowns hrise hreader =>
    mentions_of_caller [] hm h.begun hg hdowns (hrise.trans (List.append_nil _).symm) nofun
      fun f hf => h.held (hreader f hf)
  have passed : t'.caller = t.caller → (∀ f ∈ t'.ups, f ∈ t.ups) → t'.falling = t.falling →
      t'.gateway.stage = t.gateway.stage → t'.gateway.pool = t.gateway.pool →
      (t.caller.exchange? id).isSome = true := fun hc hups hfall hstage hpool =>
    mentions_of_gateway [] hm h.begun hc hups (hfall.trans (List.append_nil _).symm) nofun
      (fun _ _ hs => h.begun _ (.feeding (hstage ▸ hs)))
      (fun _ hs => h.begun _ (.rejecting (hstage ▸ hs) rfl))
      (fun _ hc => h.begun _ (.call (hpool ▸ hc)))
  cases hf with
  | request | upload => exact carried rfl (fun _ h => h) rfl fun _ h => h
  | exchange hx hstep => exact h.mentioned_exchange hx hstep hm
  | @further f outbox hk hx hput =>
      obtain ⟨-, -, rfl⟩ := Outbox.put?_eq_ok_iff.1 hput
      refine mentions_of_caller [f] hm h.begun rfl (fun _ h => h) (rising_of_queued rfl rfl)
        (fun g hg => ?_) fun _ => h.held
      rw [List.mem_singleton.1 hg]
      exact hx
  | hear hr hd => exact h.mentioned_hear hd hm
  | handOver | drop => exact carried rfl (fun _ h => h) rfl nofun
  | say hq => exact carried rfl (fun _ h => h) (rising_of_written hq rfl rfl) fun _ h => h
  | carryUp => exact passed rfl (fun _ h => h) rfl rfl rfl
  | carryDown => exact carried rfl (fun _ h => h) rfl fun _ h => h
  | read hd hu hstep => exact h.mentioned_read hd hu hstep hm
  | write hq => exact passed rfl (fun _ h => h) (falling_of_written hq rfl rfl) rfl rfl
  | serve hi hstep => exact h.mentioned_serve hi hstep hm

/-! ## Openings -/

/-- No frame that opens a call is among those under other numbers. -/
theorem openings_of_ne {fs : List Frame} (h : ∀ f ∈ fs, f.callId ≠ id) :
    Frame.openings id fs = 0 := by
  rw [Frame.openings, List.countP_eq_zero]
  intro f hf hmatch
  rw [Bool.and_eq_true, beq_iff_eq, beq_iff_eq] at hmatch
  exact h f hf hmatch.2

/-- A step that leaves the exchange alone opens no more than what comes to be there and on the way. -/
theorem opens_le (hx : t'.caller.exchange? id = t.caller.exchange? id)
    (hle : (t'.gateway.pool.contains id).toNat + Frame.openings id t'.rising ≤
      (t.gateway.pool.contains id).toNat + Frame.openings id t.rising) :
    t'.opens id ≤ t.opens id := by
  rw [opens, opens, hx]
  exact Nat.add_le_add_right hle _

theorem opens_of_rising (hx : t'.caller.exchange? id = t.caller.exchange? id)
    (hg : t'.gateway = t.gateway) (hrise : t'.rising = t.rising) : t'.opens id ≤ t.opens id :=
  opens_le hx (Nat.le_of_eq (by rw [hg, hrise]))

/-- A new exchange is the only thing that opens a call under its number. -/
theorem Sound.opens_begin (h : t.Sound) {kind : ExchangeKind}
    {script : UInt64 → List (Except FrameFault Frame)}
    (hscript : (Exchange.begin id kind (script id)).openings ≤ 1) :
    opens { t with caller := t.caller.begin kind script } id ≤ 1 := by
  rw [opens, Exchanges.exchange?_begin h.caller.free]
  split
  · next hi =>
    subst hi
    have hno : ¬ t.Mentions t.caller.client.nextId := fun hm => by
      have := h.begun _ hm
      rw [h.caller.free] at this
      cases this
    have hcall : t.gateway.pool.contains t.caller.client.nextId = false :=
      eq_false_of_ne_true fun hc => hno (.call hc)
    have hrise : Frame.openings t.caller.client.nextId
        (rising { t with caller := t.caller.begin kind script }) = 0 :=
      openings_of_ne fun f hf hid => hno (.rising hf hid)
    rw [hcall, hrise, Bool.toNat_false, Nat.zero_add]
    exact hscript
  · exact h.once id

/-- What an exchange puts into the outbox is no longer waiting to be queued. -/
theorem Sound.opens_exchange (h : t.Sound) {x x' : Exchange} {client : Client}
    (hx : t.caller.exchange? x.id = some x) (hstep : x.Step t.caller.client x' client) :
    opens { t with caller := t.caller.replace x' client } id ≤ 1 := by
  have honce := h.once id
  obtain ⟨new, hq, hnew, hle⟩ := hstep.openings
  have hx' : t.caller.exchange? x'.id = some x := hstep.same.1 ▸ hx
  have hrise : rising { t with caller := t.caller.replace x' client } = t.rising ++ new :=
    rising_of_queued rfl hq
  rw [opens, hrise, Frame.openings_append, Exchanges.exchange?_replace hx', hstep.same.1]
  by_cases hi : id = x.id
  · subst hi
    rw [opens, hx] at honce
    have honce : _ + _ + x.openings ≤ 1 := honce
    rw [if_pos rfl]
    show _ + _ + x'.openings ≤ 1
    dsimp only
    omega
  · have hother : Frame.openings id new = 0 :=
      openings_of_ne fun f hf hid => hi (hid.symm.trans (h.caller.script hx f (hnew f hf)))
    rw [if_neg hi, hother]
    exact honce

/-- A call that the server opens is no longer on its way. -/
theorem opens_read {rest : Bytes} {ups : List Frame} {gateway : Connection ω σ}
    (hd : Frame.decode s.checksum t.gateway.unread = .frame f rest) (hu : t.ups = f :: ups)
    (hstep : Connection.Step s t.gateway .read gateway) :
    opens { t with gateway, ups } id ≤ t.opens id := by
  refine opens_le rfl ?_
  have hrise : t.rising = f :: rising { t with gateway, ups } := rising_of_read hu rfl
  rw [hrise, Frame.openings_cons, ← Nat.add_assoc]
  refine Nat.add_le_add_right ?_ _
  show (gateway.pool.contains id).toNat ≤ _
  cases hc : gateway.pool.contains id with
  | false => exact Nat.zero_le _
  | true =>
      rw [Frame.openings_singleton]
      rcases Connection.contains_of_read hd hstep hc with hc | hopen
      · rw [hc]
        exact Nat.le_add_right _ _
      · rw [if_pos hopen]
        exact Nat.le_add_left _ _

/-- **No step opens a call twice.** -/
theorem Sound.opened (h : t.Sound) (hf : Flow s t m t') (id : UInt64) : t'.opens id ≤ 1 := by
  have fewer : t'.opens id ≤ t.opens id → t'.opens id ≤ 1 := fun hle =>
    Nat.le_trans hle (h.once id)
  cases hf with
  | request => exact h.opens_begin (Exchange.openings_request ..)
  | upload => exact h.opens_begin (Exchange.openings_upload ..)
  | exchange hx hstep => exact h.opens_exchange hx hstep
  | @further f outbox hk hx hput =>
      obtain ⟨-, -, rfl⟩ := Outbox.put?_eq_ok_iff.1 hput
      have hrise : rising (t.withClient { t.caller.client with
          outbox := { t.caller.client.outbox with
            queue := t.caller.client.outbox.queue ++ [f] } }) = t.rising ++ [f] :=
        rising_of_queued rfl rfl
      refine fewer (opens_le rfl (Nat.le_of_eq ?_))
      rw [hrise, Frame.openings_append, Frame.openings_singleton, if_neg fun h => hk h.1]
      rfl
  | @hear f rest downs hr hd =>
      obtain ⟨-, ho, -⟩ := Client.route_leaves { t.caller.client with unread := rest } f
      exact fewer (opens_of_rising rfl rfl (rising_of_same rfl (congrArg Outbox.queue ho)))
  | say hq => exact fewer (opens_of_rising rfl rfl (rising_of_written hq rfl rfl))
  | handOver | drop | carryDown => exact fewer (opens_of_rising rfl rfl rfl)
  | carryUp | write => exact fewer (opens_le rfl (Nat.le_refl _))
  | read hd hu hstep => exact fewer (opens_read hd hu hstep)
  | @serve m gateway hi hstep =>
      refine fewer (opens_le rfl (Nat.add_le_add_right ?_ _))
      show (gateway.pool.contains id).toNat ≤ _
      cases hc : gateway.pool.contains id with
      | false => exact Nat.zero_le _
      | true => exact Nat.le_of_eq (congrArg _ (Connection.contains_of_inside hstep hi hc).symm)

end

/-- **Every step keeps a link on which nothing is lost**, as long as there are numbers left. -/
theorem Sound.flow (h : t.Sound) (hf : Flow s t m t')
    (hroom : t'.caller.exchanges.length + 1 < UInt64.size) : t'.Sound :=
  ⟨h.orderly hf hroom, h.running hf,
    fun _ hm => isSome_exchange? h.caller hf (h.mentioned hf hm), h.opened hf⟩

end Traffic

/-! ## Links -/

namespace Link

variable {ω σ : Type} {s : Server ω σ} {l l' : Link ω σ}

/-- **A link on which nothing has been lost.** -/
def Sound (s : Server ω σ) (l : Link ω σ) : Prop := ∃ t, Traffic.Of s l t ∧ t.Sound

theorem sound_start (s : Server ω σ) (world : ω) : Sound s (start world : Link ω σ) :=
  ⟨_, Traffic.of_start s world, Traffic.sound_start world⟩

theorem Sound.step (h : Sound s l) {m : Move} (ho : m.isOrdinary = true)
    (hm : l.step? s m = some l') (hroom : l'.caller.exchanges.length + 1 < UInt64.size) :
    Sound s l' := by
  obtain ⟨t, hof, ht⟩ := h
  obtain ⟨t', hf, hof'⟩ := Traffic.flow_of_step? hof ho hm
  rw [← hof'.caller] at hroom
  exact ⟨t', hof', ht.flow hf hroom⟩

/-- **Every run keeps a link on which nothing has been lost**, as long as there are numbers left. -/
theorem Sound.run {ms : List Move} (h : Sound s l) (ho : ∀ m ∈ ms, m.isOrdinary = true)
    (hr : l.run? s ms = some l') (hroom : l'.caller.exchanges.length + 1 < UInt64.size) :
    Sound s l' := by
  induction ms generalizing l with
  | nil =>
      cases hr
      exact h
  | cons m ms ih =>
      obtain ⟨e, hm, hr⟩ := run?_cons.1 hr
      have hlen := length_exchanges_le_of_run? hr
      exact ih (h.step (ho m List.mem_cons_self) hm (by omega))
        (fun n hn => ho n (List.mem_cons_of_mem _ hn)) hr

end Link

end DeviceGateway
