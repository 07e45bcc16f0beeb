import DeviceGateway.Proofs.Link.Dialogue

/-!
# Links at rest

On a link where nothing more happens by itself nothing is on its way, and everybody waits for
somebody else (`Resting`). A dialogue leaves nobody anything to wait for: when its link is at rest,
its exchange is over (`Converses.over_of_atRest`).
-/

namespace DeviceGateway

variable {ω σ ν : Type} {s : Server ω σ}

/-! ## Who is stuck -/

/-- Frames in which none is complete are none at all, once all octets are there. -/
theorem Frame.eq_nil_of_more {k : Checksum} {frames : List Frame}
    (h : decode k (wire k frames) = .more) : frames = [] := by
  cases frames with
  | nil => rfl
  | cons f frames =>
      rw [wire_cons, decode_toBytes_append] at h
      cases h

theorem Outbox.eq_nil_of_take? {b : Outbox} (h : b.take? = none) : b.queue = [] := by
  unfold take? at h
  split at h
  · assumption
  · cases h

/-- An exchange that takes no step is over, or waits for frames. -/
theorem Exchange.waits {x : Exchange} {c : Client} (h : x.step? c = none)
    (ho : c.outbox.isOpen = true) (hroom : c.outbox.queue.length < c.outbox.capacity) :
    x.isOver = true ∨ x.toQueue = [] ∧ ∀ ch, c.channel? x.id = some ch → ch.queue = [] := by
  unfold step? at h
  split at h
  · cases h
  · next f rest hs =>
    cases f with
    | error e => cases h
    | ok f =>
        simp only [queueNext?, Client.queue?, Outbox.put?_of_room ho hroom] at h
        cases h
  · next hs =>
    refine .inr ⟨by simp only [toQueue, hs], fun ch hch => ?_⟩
    cases hq : ch.queue with
    | nil => rfl
    | cons f rest =>
        simp only [takeNext?, Client.receive?, hch, hq] at h
        cases h
  · next hs => exact .inl (by simp only [isOver, hs])

/-- A handler that never waits for a withdrawal. -/
def Handler.Steadfast (h : Handler ω σ) : Prop := ∀ state next, h.await state ≠ .withdrawal next

/-- A call that takes no step is over, or its handler waits for a message. -/
theorem Call.waits {h : Handler ω σ} (hh : h.Steadfast) {c : Call ω σ} {u : Shared ω}
    {allWithdrawn : Bool} (hp : c.poll? h allWithdrawn u = none) (hc : c.carry? u = none)
    (he : c.lapse? h allWithdrawn u = none) (ho : u.outbox.isOpen = true)
    (hroom : u.outbox.queue.length < u.outbox.capacity) :
    c.stage.isOver = true ∨ ∃ state next, c.stage = .awaiting state ∧
      h.await state = .receive next ∧ c.inbox.take? = none := by
  cases idles_of_poll? hp with
  | handed hst => cases hc.symm.trans (carry?_eq_some_iff.2 ⟨_, _, _, hst, rfl, rfl⟩)
  | receiving hst hawait htake => exact .inr ⟨_, _, hst, hawait, htake⟩
  | @sending _ payload _ _ _ hfull =>
      have hsend := Outbox.isSome_send? ho hroom c.id payload
      rw [hfull] at hsend
      cases hsend
  | asking hst hawait hstays =>
      have hlive : c.stage.isLive = true := by rw [hst]; rfl
      rw [isCancelled, hlive, Bool.and_true] at hstays
      rw [lapse?, if_neg (ne_true_of_eq_false hstays)] at he
      cases he.symm.trans (expire?_eq_some_iff.2 ⟨_, _, _, hst, hawait, rfl⟩)
  | staying _ hawait => exact absurd hawait (hh _ _)
  | telling _ hfull => cases hfull.symm.trans (Outbox.put?_of_room ho hroom _)
  | done hover => exact .inl hover

namespace Link

variable {l : Link ω σ}

theorem AtRest.caller (h : AtRest s l) {m : Exchanges.Move}
    (hm : (Move.caller m).isInner = true) : l.caller.step? s.checksum m = none :=
  Option.map_eq_none_iff.1 (h _ hm)

theorem AtRest.gateway (h : AtRest s l) {m : Connection.Move}
    (hm : (Move.gateway m).isInner = true) : l.gateway.step? s m = none :=
  Option.map_eq_none_iff.1 (h _ hm)

theorem AtRest.down (h : AtRest s l) : l.down = [] := by
  cases hdown : l.down with
  | nil => rfl
  | cons b rest =>
      have hc := h (.carryDown 1) rfl
      simp only [step?, hdown, Exchanges.step?] at hc
      simp at hc

end Link

namespace Traffic

variable {l : Link ω σ} {t : Traffic ω σ} {d : Dialogue σ ν} {view : ω → ν} {x : Exchange}
  {left : List Frame} {said : List Word}

/-- **Nothing is on its way**, and everybody waits for somebody else. -/
structure Resting (s : Server ω σ) (t : Traffic ω σ) : Prop where
  ups : t.rising = []
  downs : t.falling = []
  reader : t.caller.client.reader = .reading
  serving : t.gateway.stage = .serving
  exchanges : ∀ {id x}, t.caller.exchange? id = some x → x.isOver = true ∨
    x.toQueue = [] ∧ ∀ ch, t.caller.client.channel? id = some ch → ch.queue = []
  calls : ∀ {id call}, t.gateway.pool.call? id = some call → call.stage.isOver = true ∨
    ∃ state next, call.stage = .awaiting state ∧ s.handler.await state = .receive next ∧
      call.inbox.take? = none

section

variable (hof : Of s l t) (ht : t.Sound) (h : Link.AtRest s l)
include hof h

theorem client_said_of_atRest : t.caller.client.outbox.queue = [] := by
  rw [hof.caller]
  have hw := h.caller (m := .write) rfl
  simp only [Exchanges.step?, Client.write?, Option.map_eq_none_iff] at hw
  exact Outbox.eq_nil_of_take? hw

theorem server_said_of_atRest : t.gateway.shared.outbox.queue = [] := by
  rw [hof.gateway]
  have hw := h.gateway (m := .write) rfl
  simp only [Connection.step?, Connection.write?, Option.map_eq_none_iff] at hw
  exact Outbox.eq_nil_of_take? hw

theorem up_of_atRest : l.up = [] := by
  cases hup : l.up with
  | nil => rfl
  | cons b rest =>
      have hc := h (.carryUp 1) rfl
      simp only [Link.step?, hup, Connection.step?, hof.clientStays, Bool.false_eq_true] at hc
      simp at hc

include ht

theorem exchanges_of_atRest {id : UInt64} {x : Exchange} (hx : t.caller.exchange? id = some x) :
    x.isOver = true ∨
      x.toQueue = [] ∧ ∀ ch, t.caller.client.channel? id = some ch → ch.queue = [] := by
  have hroom : t.caller.client.outbox.queue.length < t.caller.client.outbox.capacity := by
    rw [client_said_of_atRest hof h, ht.caller.capacity]
    decide
  have hid := Exchanges.id_of_exchange? hx
  refine hid ▸ Exchange.waits ?_ ht.caller.isOpen hroom
  have hs := h.caller (m := .step id) rfl
  rw [← hof.caller] at hs
  rw [Exchanges.exchange?] at hx
  simp only [Exchanges.step?, Exchanges.act?, hx, Option.map_eq_none_iff] at hs
  exact hs

theorem calls_of_atRest (hh : s.handler.Steadfast) {id : UInt64} {call : Call ω σ}
    (hcall : t.gateway.pool.call? id = some call) : call.stage.isOver = true ∨
      ∃ state next, call.stage = .awaiting state ∧ s.handler.await state = .receive next ∧
        call.inbox.take? = none := by
  have hroom : t.gateway.shared.outbox.queue.length < t.gateway.shared.outbox.capacity := by
    rw [server_said_of_atRest hof h, ht.gateway.capacity]
    decide
  have hp := h.gateway (m := .pool (.poll id)) rfl
  have hc := h.gateway (m := .pool (.carry id)) rfl
  have he := h.gateway (m := .pool (.expire id)) rfl
  rw [← hof.gateway] at hp hc he
  simp only [Connection.step?, Pool.step?, Pool.act?, hcall, Option.map_eq_none_iff] at hp hc he
  exact Call.waits hh hp hc he ht.gateway.isOpen hroom

/-- The reader is idle: a frame that it holds would find room. -/
theorem reader_of_atRest : t.caller.client.reader = .reading := by
  cases hr : t.caller.client.reader with
  | reading => rfl
  | gone => exact absurd hr ht.caller.reader
  | delivering f =>
      have hd := h.caller (m := .deliver) rfl
      rw [← hof.caller] at hd
      simp only [Exchanges.step?, Client.deliver?, hr, Option.map_eq_none_iff] at hd
      cases hch : t.caller.client.channel? f.callId with
      | none => rw [hch] at hd; cases hd
      | some ch =>
          rw [hch] at hd
          cases hx : t.caller.exchange? f.callId with
          | none => cases hch.symm.trans (ht.caller.noChannel hx)
          | some x =>
              obtain ⟨ch', hch', hl⟩ := ht.caller.channel hx
              cases hch.symm.trans hch'
              rcases exchanges_of_atRest hof ht h hx with hover | ⟨-, hempty⟩
              · rw [hover] at hl
                simp only [hl, Bool.not_true, Bool.not_false, if_true] at hd
                cases hd
              · simp only [hempty ch hch] at hd
                split at hd
                · cases hd
                · cases hd

/-- **The loop is idle**: an inbox that is full has a handler that goes on. -/
theorem serving_of_atRest (hh : s.handler.Steadfast) : t.gateway.stage = .serving := by
  have hgoing := ht.gateway.going
  have hp := h.gateway (m := .proceed) rfl
  rw [← hof.gateway] at hp
  simp only [Connection.step?, Connection.proceed?] at hp
  cases hs : t.gateway.stage with
  | serving => rfl
  | rejecting f =>
      have hroom : t.gateway.shared.outbox.queue.length < t.gateway.shared.outbox.capacity := by
        rw [server_said_of_atRest hof h, ht.gateway.capacity]
        decide
      simp only [hs, Outbox.put?_of_room ht.gateway.isOpen hroom] at hp
      cases hp
  | feeding id m =>
      simp only [hs, Option.map_eq_none_iff] at hp
      cases hcall : t.gateway.pool.call? id with
      | none =>
          rw [Pool.feed?, hcall] at hp
          cases hp
      | some call =>
          rw [Pool.feed?, hcall, Option.map_eq_none_iff, Inbox.put?_eq_none_iff] at hp
          obtain ⟨-, hreading, hfull⟩ := hp
          rcases calls_of_atRest hof ht h hh hcall with hover | ⟨_, _, -, -, htake⟩
          · have hdone : call.stage.isDone = true := CallStage.isDone_of_isOver hover
            rw [ht.gateway.deaf id call hcall hdone] at hreading
            cases hreading
          · rw [(Inbox.take?_eq_none_iff.1 htake).1] at hfull
            exact absurd hfull (by decide)
  | withdrawing | joining | flushing | closed =>
      rw [Connection.leaving?, hs] at hgoing
      cases hgoing

/-- **At rest nothing is on its way.** -/
theorem resting_of_atRest (hh : s.handler.Steadfast) : t.Resting s := by
  have hserving := serving_of_atRest hof ht h hh
  have hreader := reader_of_atRest hof ht h
  refine ⟨?_, ?_, hreader, hserving, exchanges_of_atRest hof ht h, calls_of_atRest hof ht h hh⟩
  · have hread := h.gateway (m := .read) rfl
    have hup := hof.up
    rw [up_of_atRest hof h, List.append_nil] at hup
    rw [hof.gateway] at hserving
    rw [rising, client_said_of_atRest hof h, List.append_nil]
    refine Frame.eq_nil_of_more (k := s.checksum) ?_
    rw [← hup]
    simp only [Connection.step?, if_pos (Connection.isServing_iff.2 hserving),
      Connection.read?] at hread
    split at hread
    · cases hread
    · cases hread
    · next hmore => exact hmore
  · have hread := h.caller (m := .read) rfl
    have hdown := hof.down
    rw [h.down, List.append_nil] at hdown
    rw [hof.caller] at hreader
    rw [falling, server_said_of_atRest hof h, List.append_nil]
    refine Frame.eq_nil_of_more (k := s.checksum) ?_
    rw [← hdown]
    simp only [Exchanges.step?, Client.read?, hreader, Option.map_eq_none_iff] at hread
    split at hread
    · cases hread
    · cases hread
    · next hmore => exact hmore

end

/-! ## Dialogues at rest -/

/-- Who has said everything is not waited for: the handler asks for no message that is not to come. -/
def Asks (d : Dialogue σ ν) (h : Handler ω σ) : Prop :=
  d.closes = false → ∀ t state seen, d.course.holds t state seen →
    ∀ next, h.await state ≠ .receive next

/-- The server does not wait for the caller, when nothing is to come. -/
theorem told_of_resting (hr : t.Resting s) (hasks : Asks d s.handler)
    (h : d.Served s view t.gateway [] said) : said = d.reply := by
  cases h with
  | awaited _ _ _ _ hcoming => cases hcoming
  | told _ _ _ hsaid => exact hsaid
  | @done call hcall hdone =>
      have hst := hdone.stage
      rcases hr.calls hcall with hover | ⟨_, _, hawaiting, -, -⟩
      · rw [hst] at hover
        cases hover
      · cases hst.symm.trans hawaiting
  | @talking call talk heard hcall hfollows hhears =>
      have hstage := hfollows.stage
      rcases hr.calls hcall with hover | ⟨state, next, hawaiting, hreceive, htake⟩
      · generalize call.stage = stage at hstage hover
        cases stage with
        | reporting | gone => cases hstage
        | starting | refused | awaiting | handed | carried | ended => cases hover
      · rw [hawaiting] at hstage
        rw [(Inbox.take?_eq_none_iff.1 htake).2] at hhears
        cases hhears with
        | more _ hcoming =>
            have hending := (List.append_eq_nil_iff.1 hcoming.symm).2
            unfold Dialogue.ending at hending
            split at hending
            · cases hending
            · next hopen =>
              exact absurd hreceive (hasks (eq_false_of_ne_true hopen) talk state _ hstage next)

/-- **At rest the exchange of a dialogue is over.** -/
theorem Converses.over_of_resting (h : t.Converses d s view x left said) (hr : t.Resting s)
    (hasks : Asks d s.handler) : x.isOver = true := by
  rcases hr.exchanges h.exchange with hover | ⟨hempty, hqueue⟩
  · exact hover
  · have hserved := h.serves.served
    have hscript := h.script
    rw [hempty] at hscript
    rw [hr.ups, List.map_eq_nil_iff.1 hscript.symm] at hserved
    have hall := told_of_resting hr hasks hserved
    cases h.heard with
    | answered hst => simp only [Exchange.isOver, hst]
    | listening hx hch hwords _ hmore =>
        -- Everything has been received, so the status too.
        rw [hqueue _ hch, Client.held_of_reading hr.reader, hr.downs, hall] at hwords
        have hstatus : Dialogue.farewell ∈ x.received.map Frame.word := by
          have hmem : Dialogue.farewell ∈ d.reply :=
            List.mem_append_right _ (List.mem_singleton_self _)
          rw [← hwords] at hmem
          simpa using hmem
        obtain ⟨f, hf, hword⟩ := List.mem_map.1 hstatus
        have hwhole : Answer.isWhole x.received = true := by
          rw [Answer.isWhole, List.any_eq_true]
          exact ⟨f, hf, by rw [show f.kind = _ from congrArg Prod.fst hword]; rfl⟩
        rw [hwhole] at hmore
        cases hmore

end Traffic

/-- **A dialogue over a link does not get stuck**: at rest its exchange is over. -/
theorem Link.Converses.over_of_atRest {d : Dialogue σ ν} {view : ω → ν} {l : Link ω σ}
    {kind : ExchangeKind} (h : Link.Converses d s view kind l) (hrest : Link.AtRest s l)
    (hh : s.handler.Steadfast) (hasks : Traffic.Asks d s.handler) :
    ∃ x, l.caller.exchange? d.id = some x ∧ x.isOver = true := by
  obtain ⟨t, x, left, said, hof, ht, hd, -⟩ := h
  refine ⟨x, ?_, hd.over_of_resting (Traffic.resting_of_atRest hof ht hrest hh) hasks⟩
  rw [← hof.caller]
  exact hd.exchange

end DeviceGateway
