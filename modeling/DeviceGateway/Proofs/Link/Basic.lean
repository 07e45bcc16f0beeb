import DeviceGateway.Proofs.Client.Steps
import DeviceGateway.Proofs.Frame.Stream
import DeviceGateway.Proofs.Server.Steps

/-!
# A client and a server, and the network between them

What either side writes is on its way for as long as it takes, and gets through in pieces of any
size (`Link.step?`). A link on which nothing is lost and nobody leaves is seen as frames instead of
octets: those on their way to the server and those on their way to the client (`Traffic`). Each
step then is one thing that happens to a client, to a server or to these frames
(`Traffic.flow_of_step?`), and the cuts of the network play no part any more.
-/

namespace DeviceGateway

/-- **A client and a server** with what is on its way between them. -/
structure Link (ω σ : Type) where
  caller : Exchanges
  gateway : Connection ω σ
  /-- Octets on their way to the server. -/
  up : Bytes
  /-- Octets on their way to the client. -/
  down : Bytes

/-- Frames as they are written. -/
def Frame.wire (k : Checksum) (frames : List Frame) : Bytes := frames.flatMap (·.toBytes k)

namespace Frame

variable {k : Checksum}

theorem wire_cons (f : Frame) (frames : List Frame) :
    wire k (f :: frames) = f.toBytes k ++ wire k frames := List.flatMap_cons

theorem wire_append (fs gs : List Frame) : wire k (fs ++ gs) = wire k fs ++ wire k gs :=
  List.flatMap_append

/-- **What has come of frames on their way** is a whole frame and more, or not enough yet. -/
theorem decode_of_wire {unread later : Bytes} {frames : List Frame}
    (h : unread ++ later = wire k frames) :
    decode k unread = .more ∨ ∃ f rest fs, decode k unread = .frame f rest ∧ frames = f :: fs ∧
      rest ++ later = wire k fs := by
  cases frames with
  | nil =>
      obtain ⟨rfl, -⟩ := List.append_eq_nil_iff.1 h
      exact .inl (decode_eq_of_front (.short (by decide)))
  | cons f fs =>
      rw [wire_cons, List.append_eq_append_iff] at h
      rcases h with ⟨missing, hf, hlater⟩ | ⟨rest, hunread, hrest⟩
      · by_cases hm : missing = []
        · subst hm
          rw [List.append_nil] at hf
          refine .inr ⟨f, [], fs, ?_, rfl, hlater⟩
          have := decode_toBytes_append (c := k) f []
          rwa [List.append_nil, hf] at this
        · refine .inl (decode_cut_short (f := f) ⟨missing, hf.symm⟩ ?_)
          rw [hf]
          intro heq
          have := congrArg List.length heq
          rw [List.length_append] at this
          exact hm (List.length_eq_zero_iff.1 (by omega))
      · refine .inr ⟨f, rest, fs, ?_, rfl, hrest.symm⟩
        rw [hunread]
        exact decode_toBytes_append f rest

end Frame

namespace Link

variable {ω σ : Type}

def start (world : ω) : Link ω σ := ⟨.new, .start world, [], []⟩

/-- Who takes a step, and which. -/
inductive Move where
  | caller (m : Exchanges.Move)
  | gateway (m : Connection.Move)
  /-- One more frame is queued for an exchange that has begun. -/
  | further (f : Frame)
  /-- So many octets get through to the server. -/
  | carryUp (n : Nat)
  /-- So many octets get through to the client. -/
  | carryDown (n : Nat)

/-- One more frame is queued, if there is room. -/
def further? (l : Link ω σ) (f : Frame) : Option (Link ω σ) :=
  if (l.caller.exchange? f.callId).isNone then none
  else match l.caller.client.outbox.put? f with
    | some (.ok outbox) =>
      some { l with caller := { l.caller with client := { l.caller.client with outbox } } }
    | _ => none

/-- **The state after a step**, if it is possible. What a side has written is on its way then. -/
def step? (s : Server ω σ) (l : Link ω σ) : Move → Option (Link ω σ)
  | .caller m => (l.caller.step? s.checksum m).map fun caller =>
    { l with caller
             up := l.up ++ Frame.wire s.checksum (caller.written.drop l.caller.written.length) }
  | .gateway m => (l.gateway.step? s m).map fun gateway =>
    { l with gateway
             down := l.down ++
               Frame.wire s.checksum (gateway.written.drop l.gateway.written.length) }
  | .further f => l.further? f
  | .carryUp n =>
    if 0 < n ∧ n ≤ l.up.length then
      (l.gateway.step? s (.arrive (l.up.take n))).map fun gateway =>
        { l with gateway, up := l.up.drop n }
    else none
  | .carryDown n =>
    if 0 < n ∧ n ≤ l.down.length then
      (l.caller.step? s.checksum (.arrive (l.down.take n))).map fun caller =>
        { l with caller, down := l.down.drop n }
    else none

/-- The state after a run, if all its steps are possible. -/
def run? (s : Server ω σ) (l : Link ω σ) : List Move → Option (Link ω σ)
  | [] => some l
  | m :: ms => (l.step? s m).bind (run? s · ms)

variable {s : Server ω σ} {l l' : Link ω σ}

theorem run?_cons {m : Move} {ms : List Move} :
    l.run? s (m :: ms) = some l' ↔ ∃ e, l.step? s m = some e ∧ e.run? s ms = some l' := by
  rw [run?, Option.bind_eq_some_iff]

/-- **Something holds of every step of a run**, with the states before it and after it. -/
def Throughout (s : Server ω σ) (P : Link ω σ → Move → Link ω σ → Prop) (l : Link ω σ) :
    List Move → Prop
  | [] => True
  | m :: ms => match l.step? s m with
    | none => True
    | some l' => P l m l' ∧ Throughout s P l' ms

instance Throughout.decidable {P : Link ω σ → Move → Link ω σ → Prop}
    [∀ l m l', Decidable (P l m l')] (l : Link ω σ) : (ms : List Move) →
      Decidable (Throughout s P l ms)
  | [] => isTrue trivial
  | m :: ms =>
    have : Decidable (match l.step? s m with
        | none => True
        | some l' => P l m l' ∧ Throughout s P l' ms) :=
      match l.step? s m with
      | none => isTrue trivial
      | some l' =>
        have := Throughout.decidable (P := P) l' ms
        inferInstanceAs (Decidable (_ ∧ _))
    this

theorem throughout_cons {P : Link ω σ → Move → Link ω σ → Prop} {m : Move} {ms : List Move}
    (hm : l.step? s m = some l') :
    Throughout s P l (m :: ms) ↔ P l m l' ∧ Throughout s P l' ms := by
  rw [Throughout, hm]

/-! ## What may happen -/

namespace Move

/-- **Nothing is lost and nobody leaves.** Octets come from the other side, the connection stays,
and requests are made by exchanges alone. -/
def isOrdinary : Move → Bool
  | .caller m =>
    match m with
    | .arrive _ | .hangUp | .failWriting => false
    | _ => true
  | .gateway m =>
    match m with
    | .arrive _ | .hangUp | .failWriting | .stop => false
    | _ => true
  | .further f => f.kind != .call
  | .carryUp _ | .carryDown _ => true

/-- Whether a step needs nobody from outside: no exchange begins, and no frame is added to one. -/
def isInner : Move → Bool
  | .caller m =>
    match m with
    | .step _ | .read | .deliver | .write => true
    | _ => false
  | .gateway m =>
    match m with
    | .arrive _ | .hangUp | .failWriting | .stop => false
    | _ => true
  | .further _ => false
  | .carryUp _ | .carryDown _ => true

end Move

/-- **Nothing more happens by itself.** -/
def AtRest (s : Server ω σ) (l : Link ω σ) : Prop :=
  ∀ m : Move, m.isInner = true → l.step? s m = none

end Link

namespace Link

variable {ω σ : Type} {s : Server ω σ} {l l' : Link ω σ}

/-- No exchange is forgotten. -/
theorem length_exchanges_le {m : Move} (h : l.step? s m = some l') :
    l.caller.exchanges.length ≤ l'.caller.exchanges.length := by
  cases m with
  | caller m =>
      obtain ⟨caller, hstep, rfl⟩ := Option.map_eq_some_iff.1 h
      exact (Exchanges.step_of_step? hstep).length_le
  | gateway m =>
      obtain ⟨gateway, -, rfl⟩ := Option.map_eq_some_iff.1 h
      exact Nat.le_refl _
  | further f =>
      rw [step?, further?] at h
      split at h
      · cases h
      · split at h
        · cases h
          exact Nat.le_refl _
        · cases h
  | carryUp n =>
      rw [step?] at h
      split at h
      · obtain ⟨gateway, -, rfl⟩ := Option.map_eq_some_iff.1 h
        exact Nat.le_refl _
      · cases h
  | carryDown n =>
      rw [step?] at h
      split at h
      · cases h
        exact Nat.le_refl _
      · cases h

theorem length_exchanges_le_of_run? {ms : List Move} (h : l.run? s ms = some l') :
    l.caller.exchanges.length ≤ l'.caller.exchanges.length := by
  induction ms generalizing l with
  | nil =>
      cases h
      exact Nat.le_refl _
  | cons m ms ih =>
      obtain ⟨e, hm, hr⟩ := run?_cons.1 h
      exact Nat.le_trans (length_exchanges_le hm) (ih hr)

end Link

/-! ## Frames on their way -/

/-- **A client and a server**, with the frames on their way to the server and to the client. -/
structure Traffic (ω σ : Type) where
  caller : Exchanges
  gateway : Connection ω σ
  ups : List Frame
  downs : List Frame

namespace Traffic

variable {ω σ : Type} {s : Server ω σ}

/-- **How a link is seen as frames**: the octets on their way are theirs, and no side has hung
up. -/
structure Of (s : Server ω σ) (l : Link ω σ) (t : Traffic ω σ) : Prop where
  caller : t.caller = l.caller
  gateway : t.gateway = l.gateway
  up : l.gateway.unread ++ l.up = Frame.wire s.checksum t.ups
  down : l.caller.client.unread ++ l.down = Frame.wire s.checksum t.downs
  serverStays : l.caller.client.hungUp = false
  clientStays : l.gateway.hungUp = false

def start (world : ω) : Traffic ω σ := ⟨.new, .start world, [], []⟩

theorem of_start (s : Server ω σ) (world : ω) : Of s (.start world) (start world) :=
  ⟨rfl, rfl, rfl, rfl, rfl, rfl⟩

/-- The same traffic with another client. -/
def withClient (t : Traffic ω σ) (client : Client) : Traffic ω σ :=
  { t with caller := { t.caller with client } }

/-- **What a step does** to a client, to a server, and to the frames on their way. -/
inductive Flow (s : Server ω σ) (t : Traffic ω σ) : Link.Move → Traffic ω σ → Prop
  | request {kind : ExchangeKind} {r : CallRequest} :
      Flow s t (.caller (.request kind r))
        { t with caller := t.caller.begin kind fun id => Exchange.request id r }
  | upload {service method : String} {messages : List Bytes} :
      Flow s t (.caller (.upload service method messages))
        { t with caller :=
          t.caller.begin .reply fun id => Exchange.upload id service method messages }
  | exchange {x x' : Exchange} {client : Client} (hx : t.caller.exchange? x.id = some x)
      (hstep : x.Step t.caller.client x' client) :
      Flow s t (.caller (.step x.id)) { t with caller := t.caller.replace x' client }
  | further {f : Frame} {outbox : Outbox} (hk : f.kind ≠ .call)
      (hx : (t.caller.exchange? f.callId).isSome = true)
      (hput : t.caller.client.outbox.put? f = some (.ok outbox)) :
      Flow s t (.further f) (t.withClient { t.caller.client with outbox })
  | hear {f : Frame} {rest : Bytes} {downs : List Frame} (hr : t.caller.client.reader = .reading)
      (hd : t.downs = f :: downs) :
      Flow s t (.caller .read)
        { t.withClient ({ t.caller.client with unread := rest }.route f) with downs }
  | handOver {f : Frame} {ch : ReplyChannel} (hr : t.caller.client.reader = .delivering f)
      (hc : t.caller.client.channel? f.callId = some ch) (hl : ch.listening = true)
      (hroom : ch.queue.length < Client.capacity) :
      Flow s t (.caller .deliver)
        (t.withClient
          { t.caller.client.modify f.callId fun ch => { ch with queue := ch.queue ++ [f] } with
            reader := .reading })
  | drop {f : Frame} (hr : t.caller.client.reader = .delivering f)
      (hno : ∀ ch, t.caller.client.channel? f.callId = some ch → ch.listening = false) :
      Flow s t (.caller .deliver) (t.withClient { t.caller.client with reader := .reading })
  | say {f : Frame} {rest : List Frame} {written : List Frame}
      (hq : t.caller.client.outbox.queue = f :: rest) :
      Flow s t (.caller .write)
        { t with
          caller := { t.caller with
            client := { t.caller.client with
              outbox := { t.caller.client.outbox with queue := rest } }
            written }
          ups := t.ups ++ [f] }
  | carryUp {n : Nat} {unread : Bytes} :
      Flow s t (.carryUp n) { t with gateway := { t.gateway with unread } }
  | carryDown {n : Nat} {unread : Bytes} :
      Flow s t (.carryDown n) (t.withClient { t.caller.client with unread })
  | read {f : Frame} {rest : Bytes} {ups : List Frame} {gateway : Connection ω σ}
      (hd : Frame.decode s.checksum t.gateway.unread = .frame f rest) (hu : t.ups = f :: ups)
      (hstep : Connection.Step s t.gateway .read gateway) :
      Flow s t (.gateway .read) { t with gateway, ups }
  | write {f : Frame} {rest : List Frame} {written : List Frame}
      (hq : t.gateway.shared.outbox.queue = f :: rest) :
      Flow s t (.gateway .write)
        { t with
          gateway := { t.gateway with
            shared := { t.gateway.shared with
              outbox := { t.gateway.shared.outbox with queue := rest } }
            written }
          downs := t.downs ++ [f] }
  | serve {m : Connection.Move} {gateway : Connection ω σ}
      (hm : m.isInside = true)
      (hstep : Connection.Step s t.gateway m gateway) :
      Flow s t (.gateway m) { t with gateway }

/-! ### From octets to frames -/

variable {l l' : Link ω σ} {t : Traffic ω σ}

theorem wire_drop_self (k : Checksum) (written : List Frame) :
    Frame.wire k (written.drop written.length) = [] := by
  rw [List.drop_length]
  rfl

/-- A step of the client that reads and writes nothing. -/
theorem Of.caller_step (ht : Of s l t) {caller : Exchanges}
    (hw : caller.written = l.caller.written)
    (hu : caller.client.unread = l.caller.client.unread)
    (hh : caller.client.hungUp = l.caller.client.hungUp) :
    Of s { l with caller
                  up := l.up ++ Frame.wire s.checksum
                    (caller.written.drop l.caller.written.length) } { t with caller } := by
  refine ⟨rfl, ht.gateway, ?_, ?_, hh.trans ht.serverStays, ht.clientStays⟩
  · show l.gateway.unread ++ (l.up ++ _) = _
    rw [hw, wire_drop_self, List.append_nil]
    exact ht.up
  · show caller.client.unread ++ l.down = _
    rw [hu]
    exact ht.down

/-- A step of the server that reads and writes nothing. -/
theorem Of.gateway_step (ht : Of s l t) {gateway : Connection ω σ}
    (hw : gateway.written = l.gateway.written) (hu : gateway.unread = l.gateway.unread)
    (hh : gateway.hungUp = l.gateway.hungUp) :
    Of s { l with gateway
                  down := l.down ++ Frame.wire s.checksum
                    (gateway.written.drop l.gateway.written.length) } { t with gateway } := by
  refine ⟨ht.caller, rfl, ?_, ?_, ht.serverStays, hh.trans ht.clientStays⟩
  · show gateway.unread ++ l.up = _
    rw [hu]
    exact ht.up
  · show l.caller.client.unread ++ (l.down ++ _) = _
    rw [hw, wire_drop_self, List.append_nil]
    exact ht.down

theorem flow_of_caller (ht : Of s l t) {m : Exchanges.Move} {caller : Exchanges}
    (ho : (Link.Move.caller m).isOrdinary = true)
    (hstep : Exchanges.Step s.checksum l.caller m caller) :
    ∃ t', Flow s t (.caller m) t' ∧
      Of s { l with caller
                    up := l.up ++ Frame.wire s.checksum
                      (caller.written.drop l.caller.written.length) } t' := by
  obtain ⟨_, _, ups, downs⟩ := t
  obtain ⟨rfl, rfl, hup, hdown, hs, hc⟩ := id ht
  cases hstep with
  | request => exact ⟨_, .request, ht.caller_step rfl rfl rfl⟩
  | upload => exact ⟨_, .upload, ht.caller_step rfl rfl rfl⟩
  | exchange hx hstep =>
      obtain ⟨hu, hh⟩ := hstep.keeps
      exact ⟨_, .exchange hx hstep, ht.caller_step rfl hu hh⟩
  | @hear f rest hr hd =>
      rcases Frame.decode_of_wire hdown with hmore | ⟨f', rest', fs, hd', rfl, hrest⟩
      · rw [hmore] at hd
        cases hd
      · rw [hd] at hd'
        cases hd'
        obtain ⟨hu, hh⟩ := Client.route_keeps { l.caller.client with unread := rest } f
        refine ⟨_, .hear hr rfl, rfl, rfl, ?_, ?_, hh.trans hs, hc⟩
        · show l.gateway.unread ++ (l.up ++ _) = _
          rw [wire_drop_self, List.append_nil]
          exact hup
        · show (Client.route _ f).unread ++ l.down = _
          rw [hu]
          exact hrest
  | fault hr hd =>
      rcases Frame.decode_of_wire hdown with hmore | ⟨f', rest', fs, hd', rfl, hrest⟩
      · rw [hmore] at hd
        cases hd
      · rw [hd'] at hd
        cases hd
  | ending hr hd hh =>
      rw [hs] at hh
      cases hh
  | deliver hr hc hl hroom => exact ⟨_, .handOver hr hc hl hroom, ht.caller_step rfl rfl rfl⟩
  | drop hr hno => exact ⟨_, .drop hr hno, ht.caller_step rfl rfl rfl⟩
  | @write f rest hq =>
      refine ⟨_, .say hq, rfl, rfl, ?_, hdown, hs, hc⟩
      show l.gateway.unread ++ (l.up ++ Frame.wire s.checksum
        ((l.caller.written ++ [f]).drop l.caller.written.length)) = _
      rw [List.drop_left, ← List.append_assoc, hup, Frame.wire_append]
  | failWriting => cases ho
  | arrive => cases ho
  | hangUp => cases ho

theorem flow_of_gateway (ht : Of s l t) {m : Connection.Move} {gateway : Connection ω σ}
    (ho : (Link.Move.gateway m).isOrdinary = true)
    (hstep : Connection.Step s l.gateway m gateway) :
    ∃ t', Flow s t (.gateway m) t' ∧
      Of s { l with gateway
                    down := l.down ++ Frame.wire s.checksum
                      (gateway.written.drop l.gateway.written.length) } t' := by
  obtain ⟨_, _, ups, downs⟩ := t
  obtain ⟨rfl, rfl, hup, hdown, hs, hc⟩ := id ht
  cases m with
  | arrive | hangUp | stop | failWriting => cases ho
  | read =>
      rcases Frame.decode_of_wire hup with hmore | ⟨f, rest, fs, hd, rfl, hrest⟩
      · exact absurd hstep (Connection.not_read_of_more hmore hc)
      · obtain ⟨hu, hh, hw⟩ := hstep.read_keeps hd
        refine ⟨_, .read hd rfl hstep, rfl, rfl, ?_, ?_, hs, hh.trans hc⟩
        · show gateway.unread ++ l.up = _
          rw [hu]
          exact hrest
        · show l.caller.client.unread ++ (l.down ++ _) = _
          rw [hw, wire_drop_self, List.append_nil]
          exact hdown
  | write =>
      cases hstep with
      | @write f rest hq =>
          refine ⟨_, .write hq, rfl, rfl, hup, ?_, hs, hc⟩
          show l.caller.client.unread ++ (l.down ++ Frame.wire s.checksum
            ((l.gateway.written ++ [f]).drop l.gateway.written.length)) = _
          rw [List.drop_left, ← List.append_assoc, hdown, Frame.wire_append]
  | notice | heed | proceed | pool =>
      obtain ⟨hu, hh, hw⟩ := hstep.inside_keeps rfl
      exact ⟨_, .serve rfl hstep, ht.gateway_step hw hu hh⟩

theorem flow_of_further (ht : Of s l t) {f : Frame} (hk : f.kind ≠ .call)
    (h : l.further? f = some l') : ∃ t', Flow s t (.further f) t' ∧ Of s l' t' := by
  obtain ⟨_, _, ups, downs⟩ := t
  obtain ⟨rfl, rfl, hup, hdown, hs, hc⟩ := id ht
  unfold Link.further? at h
  split at h
  · cases h
  · next hx =>
    split at h
    · next outbox hput =>
      cases h
      refine ⟨_, .further hk ?_ hput, rfl, rfl, hup, hdown, hs, hc⟩
      rwa [← Option.not_isNone, Bool.not_eq_true', ← Bool.not_eq_true]
    · cases h

/-- **A step of a link, seen as frames.** -/
theorem flow_of_step? (ht : Of s l t) {m : Link.Move} (ho : m.isOrdinary = true)
    (h : l.step? s m = some l') : ∃ t', Flow s t m t' ∧ Of s l' t' := by
  cases m with
  | caller m =>
      obtain ⟨caller, hstep, rfl⟩ := Option.map_eq_some_iff.1 h
      exact flow_of_caller ht ho (Exchanges.step_of_step? hstep)
  | gateway m =>
      obtain ⟨gateway, hstep, rfl⟩ := Option.map_eq_some_iff.1 h
      exact flow_of_gateway ht ho (Connection.step_of_step? hstep)
  | further f => exact flow_of_further ht (by simpa [Link.Move.isOrdinary] using ho) h
  | carryUp n =>
      obtain ⟨_, _, ups, downs⟩ := t
      obtain ⟨rfl, rfl, hup, hdown, hs, hc⟩ := ht
      rw [Link.step?] at h
      split at h
      · obtain ⟨gateway, hstep, rfl⟩ := Option.map_eq_some_iff.1 h
        cases Connection.step_of_step? hstep with
        | arrive =>
          refine ⟨_, .carryUp, rfl, rfl, ?_, hdown, hs, hc⟩
          show l.gateway.unread ++ l.up.take n ++ l.up.drop n = _
          rw [List.append_assoc, List.take_append_drop]
          exact hup
      · cases h
  | carryDown n =>
      obtain ⟨_, _, ups, downs⟩ := t
      obtain ⟨rfl, rfl, hup, hdown, hs, hc⟩ := ht
      simp only [Link.step?, Exchanges.step?, Client.arrive, Option.map_some] at h
      split at h
      · cases h
        refine ⟨_, .carryDown, rfl, rfl, hup, ?_, hs, hc⟩
        show l.caller.client.unread ++ l.down.take n ++ l.down.drop n = _
        rw [List.append_assoc, List.take_append_drop]
        exact hdown
      · cases h

end Traffic

end DeviceGateway
