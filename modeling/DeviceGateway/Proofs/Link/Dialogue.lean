import DeviceGateway.Proofs.Client.Listening
import DeviceGateway.Proofs.Link.Sound
import DeviceGateway.Proofs.Server.Dialogue

/-!
# A dialogue over a link

What the caller has to say in a dialogue is in the script of its exchange and then on its way; what
the server says is on its way and then with the client. Each step moves a word along, or is one of
the server on its course, so every step keeps the dialogue going (`Converses.flow`), as long as
nobody else speaks under its number or changes what its handler sees.
-/

namespace DeviceGateway

variable {ω σ ν : Type}

namespace Link

/-- Whether it is a step of the call with a number, at the server. -/
def Move.isOfCall (id : UInt64) : Move → Bool
  | .gateway m => m.caller? == some id
  | _ => false

/-- Whether a step adds a frame under a number. -/
def Move.adds (id : UInt64) : Move → Bool
  | .further f => f.callId == id
  | _ => false

/-- **A step disturbs no call** with a number: it adds no frame to it, and it leaves alone what is
seen of the world unless it is a step of the call. -/
def Undisturbed (view : ω → ν) (id : UInt64) (l : Link ω σ) (m : Move) (l' : Link ω σ) : Prop :=
  m.adds id = false ∧
    (m.isOfCall id = true ∨ view l'.gateway.shared.world = view l.gateway.shared.world)

instance [DecidableEq ν] (view : ω → ν) (id : UInt64) (l : Link ω σ) (m : Move) (l' : Link ω σ) :
    Decidable (Undisturbed view id l m l') := inferInstanceAs (Decidable (_ ∧ _))

end Link

namespace Traffic

variable {d : Dialogue σ ν} {s : Server ω σ} {view : ω → ν} {t t' : Traffic ω σ} {m : Link.Move}
  {x : Exchange} {left : List Frame} {said : List Word}

/-- **A dialogue goes on over a link**: the exchange has still to queue some frames, and the server
has said some words. -/
structure Converses (d : Dialogue σ ν) (s : Server ω σ) (view : ω → ν) (t : Traffic ω σ)
    (x : Exchange) (left : List Frame) (said : List Word) : Prop where
  exchange : t.caller.exchange? d.id = some x
  suits : d.Suits x.kind
  script : x.toQueue = left.map .ok
  serves : d.Serves s view t.gateway (Frame.words d.id t.rising ++ left.map Frame.word) said
  heard : d.Heard t.caller.client x (Frame.words d.id t.falling) said

namespace Converses

variable (h : t.Converses d s view x left said)
include h

theorem id_eq : x.id = d.id := Exchanges.id_of_exchange? h.exchange

theorem said_prefix : said <+: d.reply := h.serves.served.said_prefix

/-- A step of the client that has nothing to do with the exchange. -/
theorem of_caller (hx : t'.caller.exchange? d.id = some x) (hg : t'.gateway = t.gateway)
    (hrise : Frame.words d.id t'.rising = Frame.words d.id t.rising)
    (hheard : d.Heard t'.caller.client x (Frame.words d.id t'.falling) said) :
    t'.Converses d s view x left said := by
  refine ⟨hx, h.suits, h.script, ?_, hheard⟩
  rw [hg, hrise]
  exact h.serves

/-- Another exchange begins. -/
theorem begin (hc : t.caller.Orderly) {kind : ExchangeKind}
    {script : UInt64 → List (Except FrameFault Frame)} :
    Converses d s view { t with caller := t.caller.begin kind script } x left said := by
  have hne := hc.ne_next h.exchange
  refine h.of_caller ?_ rfl rfl (h.heard.of_same ?_ rfl)
  · rw [Exchanges.exchange?_begin hc.free, if_neg hne]
    exact h.exchange
  · show t.caller.client.register.2.channel? d.id = _
    rw [Client.channel?_register (hc.noChannel hc.free), if_neg hne]

/-- Another exchange takes a step. -/
theorem other (hc : t.caller.Orderly) {y y' : Exchange} {client : Client}
    (hy : t.caller.exchange? y.id = some y) (hstep : y.Step t.caller.client y' client)
    (hne : d.id ≠ y.id) :
    Converses d s view { t with caller := t.caller.replace y' client } x left said := by
  have hid := hstep.same.1
  obtain ⟨hchannel, hreader⟩ := hstep.others
  refine h.of_caller ?_ rfl ?_ (h.heard.of_same (hchannel d.id hne) ?_)
  · rw [Exchanges.exchange?_replace (hid ▸ hy), hid, if_neg hne]
    exact h.exchange
  · obtain ⟨new, hq, hnew, -⟩ := hstep.openings
    have hrise : rising { t with caller := t.caller.replace y' client } = t.rising ++ new :=
      rising_of_queued rfl hq
    rw [hrise, Frame.words_append,
      Frame.words_of_ne fun f hf heq => hne (heq.symm.trans (hc.script hy f (hnew f hf))),
      List.append_nil]
  · show Frame.words d.id client.held = _
    rw [Client.held, hreader]
    rfl

/-- **The exchange takes a step of its own.** -/
theorem own (hc : t.caller.Orderly) {x' : Exchange} {client : Client}
    (hstep : x.Step t.caller.client x' client) :
    ∃ left', Converses d s view { t with caller := t.caller.replace x' client } x' left' said := by
  have hid := h.id_eq
  have hmade : ∀ e, .error e ∉ x.toQueue := by
    intro e he
    rw [h.script] at he
    obtain ⟨f, -, hf⟩ := List.mem_map.1 he
    cases hf
  have hheard := h.heard.step hid h.suits h.said_prefix hc.isOpen hmade hstep
  have hx' : (t.caller.replace x' client).exchange? d.id = some x' := by
    have hx := h.exchange
    rw [← hid, ← hstep.same.1] at hx
    rw [Exchanges.exchange?_replace hx, hstep.same.1, if_pos hid.symm]
  obtain ⟨new, left', rfl, hscript, hq⟩ := hstep.script hc.isOpen h.script
  have hnew : Frame.words d.id new = new.map Frame.word := by
    refine Frame.words_of_forall fun f hf => ?_
    refine hc.script h.exchange f ?_
    rw [h.script]
    exact List.mem_map_of_mem (List.mem_append_left _ hf)
  refine ⟨left', hx', hstep.same.2 ▸ h.suits, hscript, ?_, hheard⟩
  have hserves := h.serves
  rw [List.map_append, ← hnew, ← List.append_assoc, ← Frame.words_append] at hserves
  have hrise : rising { t with caller := t.caller.replace x' client } = t.rising ++ new :=
    rising_of_queued rfl hq
  rw [hrise]
  exact hserves

/-- **Every step keeps the dialogue going.** -/
theorem flow (hk : d.course.KeptBy s.handler view)
    (hrequest : (Payload.ofBytes (Payload.toBytes d.request) : Except GatewayError CallRequest) =
      .ok d.request)
    (hsound : t.Sound) (hf : Flow s t m t') (hadds : m.adds d.id = false)
    (hview : m.isOfCall d.id = true ∨
      view t'.gateway.shared.world = view t.gateway.shared.world) :
    ∃ x' left' said', t'.Converses d s view x' left' said' ∧ x'.kind = x.kind := by
  have hc := hsound.caller
  have same : ∀ {t' : Traffic ω σ}, t'.Converses d s view x left said →
      ∃ x' left' said', t'.Converses d s view x' left' said' ∧ x'.kind = x.kind :=
    fun h => ⟨x, left, said, h, rfl⟩
  cases hf with
  | request | upload => exact same (h.begin hc)
  | @exchange y y' client hy hstep =>
      -- Only the exchange of the call goes on with the script.
      by_cases hid : d.id = y.id
      · rw [← hid, h.exchange] at hy
        cases hy
        obtain ⟨left', hown⟩ := h.own hc hstep
        exact ⟨y', left', said, hown, hstep.same.2⟩
      · exact same (h.other hc hy hstep hid)
  | @further f outbox hkind hx hput =>
      obtain ⟨-, -, rfl⟩ := Outbox.put?_eq_ok_iff.1 hput
      have hrise : rising (t.withClient { t.caller.client with
          outbox := { t.caller.client.outbox with
            queue := t.caller.client.outbox.queue ++ [f] } }) = t.rising ++ [f] :=
        rising_of_queued rfl rfl
      refine same (h.of_caller h.exchange rfl ?_ (h.heard.of_same rfl rfl))
      rw [hrise, Frame.words_append, Frame.words_other (beq_eq_false_iff_ne.1 hadds),
        List.append_nil]
  | @hear f rest downs hr hd =>
      obtain ⟨-, ho, -⟩ := Client.route_leaves { t.caller.client with unread := rest } f
      refine same (h.of_caller h.exchange rfl
        (congrArg _ (rising_of_same rfl (congrArg Outbox.queue ho))) ?_)
      have hheard := h.heard
      rw [falling, hd, List.cons_append, Frame.words_cons] at hheard
      have hread : d.Heard { t.caller.client with unread := rest } x
          (Frame.words d.id [f] ++ Frame.words d.id (downs ++ t.gateway.shared.outbox.queue))
          said := hheard.of_same rfl rfl
      exact hread.hear hr h.said_prefix
  | handOver hr _ _ _ => exact same (h.of_caller h.exchange rfl rfl (h.heard.handOver hr))
  | drop hr hno =>
      refine same (h.of_caller h.exchange rfl rfl (h.heard.drop hr hno fun hlive ch hch => ?_))
      obtain ⟨ch', hch', hl⟩ := hc.channel h.exchange
      cases hch.symm.trans hch'
      rw [hl, hlive]
      rfl
  | say hq =>
      exact same (h.of_caller h.exchange rfl (congrArg _ (rising_of_written hq rfl rfl))
        (h.heard.of_same rfl rfl))
  | carryUp =>
      exact same ⟨h.exchange, h.suits, h.script,
        ⟨h.serves.served.of_same rfl rfl rfl, h.serves.spared⟩, h.heard⟩
  | carryDown => exact same (h.of_caller h.exchange rfl rfl (h.heard.of_same rfl rfl))
  | @read f rest ups gateway hd hu hstep =>
      have hserves := h.serves
      have hrise : t.rising = f :: rising { t with gateway, ups } := rising_of_read hu rfl
      rw [hrise, Frame.words_cons, List.append_assoc] at hserves
      have hfall : falling { t with gateway, ups } = t.falling :=
        falling_of_same rfl hstep.shared_read
      refine same ⟨h.exchange, h.suits, h.script, hserves.read hrequest hd hstep, ?_⟩
      rw [hfall]
      exact h.heard
  | write hq =>
      refine same ⟨h.exchange, h.suits, h.script,
        ⟨h.serves.served.of_same rfl rfl rfl, h.serves.spared⟩, ?_⟩
      rw [falling_of_written hq rfl rfl]
      exact h.heard
  | @serve m gateway hm hstep =>
      obtain ⟨new, hq, hserves⟩ := h.serves.inside hk hsound.gateway hm hstep fun hne =>
        hview.resolve_left fun hown => hne (beq_iff_eq.1 hown)
      refine ⟨x, left, _, ⟨h.exchange, h.suits, h.script, hserves, ?_⟩, rfl⟩
      have hfall : falling { t with gateway } = t.falling ++ new := falling_of_queued rfl hq
      rw [hfall, Frame.words_append]
      exact h.heard.more _

end Converses

/-! ## The beginning -/

/-- **A dialogue begins**: an exchange is about to queue what the caller has to say. -/
theorem Sound.converses (h : t.Sound) {kind : ExchangeKind}
    {script : UInt64 → List (Except FrameFault Frame)} {job : Job ω σ}
    (hid : d.id = t.caller.client.nextId) (hsuits : d.Suits kind)
    (hscript : script d.id = left.map .ok) (hplan : left.map Frame.word = d.plan)
    (haccept : s.accept d.request = .ok job)
    (hjob : job.Leads view (d.course.holds .begin) (view t.gateway.shared.world)) :
    Converses d s view { t with caller := t.caller.begin kind script }
      (.begin d.id kind (script d.id)) left [] := by
  have hno : ¬ t.Mentions d.id := fun hm => by
    have := h.begun _ hm
    rw [hid, h.caller.free] at this
    cases this
  have hrise : Frame.words d.id t.rising = [] :=
    Frame.words_of_ne fun f hf heq => hno (.rising hf heq)
  have hfall : Frame.words d.id t.falling = [] :=
    Frame.words_of_ne fun f hf heq => hno (.falling hf heq)
  have hheld : Frame.words d.id t.caller.client.held = [] := by
    refine Client.words_held_of_idle (eq_false_of_ne_true fun hdel => ?_)
    unfold Client.isDelivering at hdel
    split at hdel
    · next f hr => exact hno (.delivering hr (beq_iff_eq.1 hdel))
    · cases hdel
  have hcall : t.gateway.pool.call? d.id = none := by
    have := eq_false_of_ne_true fun hc => hno (.call hc)
    rwa [Pool.contains, Option.isSome_eq_false_iff, Option.isNone_iff_eq_none] at this
  refine ⟨?_, hsuits, ?_, ⟨.awaited hcall ?_ haccept hjob ?_ rfl, fun g hg heq => ?_⟩, ?_⟩
  · rw [Exchanges.exchange?_begin h.caller.free, if_pos hid, hid]
  · rw [← hscript]
    rfl
  · exact Connection.handing_of_ne fun message hs => hno (.feeding hs)
  · show Frame.words d.id t.rising ++ _ = _
    rw [hrise, hplan, List.nil_append]
  · exact hno (.rejecting hg heq)
  · have hch : t.caller.client.register.2.channel? d.id = _ :=
      Client.channel?_register (h.caller.noChannel h.caller.free) d.id
    rw [if_pos hid] at hch
    refine .listening rfl hch ?_ (fun hr => absurd hr.symm Bool.false_ne_true) rfl
    show _ ++ (_ ++ (Frame.words d.id t.caller.client.held ++ Frame.words d.id t.falling)) = _
    rw [hheld, hfall]
    rfl

end Traffic

/-! ## Links -/

namespace Link

variable {d : Dialogue σ ν} {s : Server ω σ} {view : ω → ν} {l l' : Link ω σ} {kind : ExchangeKind}

/-- **A dialogue goes on over a link**, in an exchange of some kind. -/
def Converses (d : Dialogue σ ν) (s : Server ω σ) (view : ω → ν) (kind : ExchangeKind)
    (l : Link ω σ) : Prop :=
  ∃ t x left said, Traffic.Of s l t ∧ t.Sound ∧ Traffic.Converses d s view t x left said ∧
    x.kind = kind

/-! ### Beginning -/

theorem makes (kind : FrameKind) (id : UInt64) {payload : Bytes}
    (h : payload.length ≤ Frame.maxPayload) :
    ∃ f, Frame.make kind id payload = .ok f ∧ f.word = (kind, payload) :=
  ⟨⟨kind, id, payload, h⟩, by rw [Frame.make, dif_pos h], rfl⟩

theorem makes_messages (id : UInt64) {ms : List Bytes}
    (h : ∀ m ∈ ms, m.length ≤ Frame.maxPayload) :
    ∃ fs : List Frame, ms.map (Frame.message id) = fs.map .ok ∧ fs.map Frame.word = messageWords ms := by
  induction ms with
  | nil => exact ⟨[], rfl, rfl⟩
  | cons m ms ih =>
      obtain ⟨fs, hfs, hwords⟩ := ih fun n hn => h n (List.mem_cons_of_mem _ hn)
      obtain ⟨f, hf, hword⟩ := makes .message id (h m List.mem_cons_self)
      refine ⟨f :: fs, ?_, ?_⟩
      · rw [List.map_cons, List.map_cons, hfs, Frame.message, hf]
      · rw [List.map_cons, hword, hwords]
        rfl

/-- **An upload begins a dialogue.** -/
theorem Sound.converses_upload (h : Sound s l) {service method : String} {job : Job ω σ}
    (hid : d.id = l.caller.client.nextId) (hrequest : d.request = ⟨service, method, []⟩)
    (hcloses : d.closes = true)
    (hfits : (Payload.toBytes d.request).length ≤ Frame.maxPayload)
    (hsizes : ∀ m ∈ d.course.script, m.length ≤ Frame.maxPayload)
    (haccept : s.accept d.request = .ok job)
    (hjob : job.Leads view (d.course.holds .begin) (view l.gateway.shared.world))
    (hm : l.step? s (.caller (.upload service method d.course.script)) = some l')
    (hroom : l'.caller.exchanges.length + 1 < UInt64.size) : Converses d s view .reply l' := by
  obtain ⟨t, hof, ht⟩ := h
  obtain ⟨t', hf, hof'⟩ := Traffic.flow_of_step? hof rfl hm
  rw [← hof'.caller] at hroom
  have ht' := ht.flow hf hroom
  rw [← hof.caller] at hid
  rw [← hof.gateway] at hjob
  obtain ⟨call, hcall, hcallWord⟩ := makes .call d.id hfits
  obtain ⟨messages, hmessages, hwords⟩ := makes_messages d.id hsizes
  cases hf with
  | upload =>
      refine ⟨_, _, call :: messages ++ [.halfClose d.id], [], hof', ht',
        ht.converses hid nofun ?_ ?_ haccept hjob, rfl⟩
      · rw [Exchange.upload, ← hrequest, Frame.call, hcall, hmessages, List.map_append]
        rfl
      · rw [List.map_append, List.map_cons, hcallWord, hwords, Dialogue.plan, Dialogue.talk,
          Dialogue.ending, hcloses, if_pos rfl]
        rfl

/-- **A request begins a dialogue** in which the caller says no more. -/
theorem Sound.converses_request (h : Sound s l) {job : Job ω σ}
    (hid : d.id = l.caller.client.nextId) (hsilent : d.course.script = []) (hcloses : d.closes = false)
    (hfits : (Payload.toBytes d.request).length ≤ Frame.maxPayload) (hsuits : d.Suits kind)
    (haccept : s.accept d.request = .ok job)
    (hjob : job.Leads view (d.course.holds .begin) (view l.gateway.shared.world))
    (hm : l.step? s (.caller (.request kind d.request)) = some l')
    (hroom : l'.caller.exchanges.length + 1 < UInt64.size) : Converses d s view kind l' := by
  obtain ⟨t, hof, ht⟩ := h
  obtain ⟨t', hf, hof'⟩ := Traffic.flow_of_step? hof rfl hm
  rw [← hof'.caller] at hroom
  have ht' := ht.flow hf hroom
  rw [← hof.caller] at hid
  rw [← hof.gateway] at hjob
  obtain ⟨call, hcall, hcallWord⟩ := makes .call d.id hfits
  cases hf with
  | request =>
      refine ⟨_, _, [call], [], hof', ht', ht.converses hid hsuits ?_ ?_ haccept hjob, rfl⟩
      · rw [Exchange.request, Frame.call, hcall]
        rfl
      · rw [List.map_singleton, hcallWord, Dialogue.plan, Dialogue.talk, Dialogue.ending, hcloses,
          hsilent]
        rfl

/-! ### Going on -/

theorem Converses.step (h : Converses d s view kind l) (hk : d.course.KeptBy s.handler view)
    (hrequest : (Payload.ofBytes (Payload.toBytes d.request) : Except GatewayError CallRequest) =
      .ok d.request) {m : Move} (ho : m.isOrdinary = true) (hm : l.step? s m = some l')
    (hu : Undisturbed view d.id l m l')
    (hroom : l'.caller.exchanges.length + 1 < UInt64.size) : Converses d s view kind l' := by
  obtain ⟨t, x, left, said, hof, ht, hd, rfl⟩ := h
  obtain ⟨t', hf, hof'⟩ := Traffic.flow_of_step? hof ho hm
  rw [← hof'.caller] at hroom
  obtain ⟨hadds, hview⟩ := hu
  rw [← hof.gateway, ← hof'.gateway] at hview
  obtain ⟨x', left', said', hd', hkind⟩ := hd.flow hk hrequest ht hf hadds hview
  exact ⟨t', x', left', said', hof', ht.flow hf hroom, hd', hkind⟩

/-- **Every run in which nobody disturbs the call keeps the dialogue going.** -/
theorem Converses.run (h : Converses d s view kind l) (hk : d.course.KeptBy s.handler view)
    (hrequest : (Payload.ofBytes (Payload.toBytes d.request) : Except GatewayError CallRequest) =
      .ok d.request) {ms : List Move} (ho : ∀ m ∈ ms, m.isOrdinary = true)
    (hu : Throughout s (Undisturbed view d.id) l ms) (hr : l.run? s ms = some l')
    (hroom : l'.caller.exchanges.length + 1 < UInt64.size) : Converses d s view kind l' := by
  induction ms generalizing l with
  | nil =>
      cases hr
      exact h
  | cons m ms ih =>
      obtain ⟨e, hm, hr⟩ := run?_cons.1 hr
      obtain ⟨hu, hrest⟩ := (throughout_cons hm).1 hu
      have hlen := length_exchanges_le_of_run? hr
      exact ih (h.step hk hrequest (ho m List.mem_cons_self) hm hu (by omega))
        (fun n hn => ho n (List.mem_cons_of_mem _ hn)) hrest hr

end Link

end DeviceGateway
