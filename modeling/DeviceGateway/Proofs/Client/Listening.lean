import DeviceGateway.Proofs.Call.Dialogue
import DeviceGateway.Proofs.Client.Steps

/-!
# Listening to a dialogue

What the server says in a dialogue is taken by the exchange, waits in its channel, is held by the
reader, or is still to come (`Dialogue.Heard`). Nothing is lost between these as long as the exchange
listens, and it listens until it has got the status (`Heard.step`).
-/

namespace DeviceGateway

variable {σ ν : Type}

/-- The frame that the reader holds. -/
def Client.held (c : Client) : List Frame :=
  match c.reader with
  | .delivering f => [f]
  | _ => []

namespace Client

variable {c : Client}

theorem held_of_delivering {f : Frame} (h : c.reader = .delivering f) : c.held = [f] := by
  simp only [held, h]

/-- When the reader holds nothing for a call, what it holds says nothing there. -/
theorem words_held_of_idle {id : UInt64} (h : c.isDelivering id = false) :
    Frame.words id c.held = [] := by
  unfold isDelivering at h
  unfold held
  split
  · next f hr =>
    rw [hr] at h
    exact Frame.words_other (beq_eq_false_iff_ne.1 h)
  · rfl

theorem held_of_reading (h : c.reader = .reading) : c.held = [] := by
  simp only [held, h]

end Client

/-! ## Answers -/

namespace Answer

theorem ofFrames_messages {fs : List Frame} {ms : List Bytes} (h : fs.map Frame.word = messageWords ms) :
    ofFrames fs = ⟨ms, .cut⟩ := by
  induction fs generalizing ms with
  | nil =>
      cases ms with
      | nil => rfl
      | cons m ms => cases h
  | cons f fs ih =>
      cases ms with
      | nil => cases h
      | cons m ms =>
          obtain ⟨hw, hrest⟩ := List.cons.inj h
          obtain ⟨hk, hm⟩ := Prod.mk.inj hw
          rw [ofFrames, show f.kind = _ from hk]
          simp only [ih hrest, show f.payload = m from hm]

/-- The answer in messages and a status. -/
theorem ofFrames_status {fs : List Frame} {ms : List Bytes} {payload : Bytes}
    (h : fs.map Frame.word = messageWords ms ++ [(.status, payload)]) :
    ofFrames fs = ⟨ms, .status payload⟩ := by
  induction fs generalizing ms with
  | nil => cases ms <;> cases h
  | cons f fs ih =>
      cases ms with
      | nil =>
          obtain ⟨hw, -⟩ := List.cons.inj h
          obtain ⟨hk, hm⟩ := Prod.mk.inj hw
          rw [ofFrames, show f.kind = _ from hk]
          simp only [show f.payload = payload from hm]
      | cons m ms =>
          obtain ⟨hw, hrest⟩ := List.cons.inj h
          obtain ⟨hk, hm⟩ := Prod.mk.inj hw
          rw [ofFrames, show f.kind = _ from hk]
          simp only [ih hrest, show f.payload = m from hm]

theorem isWhole_append (fs gs : List Frame) : isWhole (fs ++ gs) = (isWhole fs || isWhole gs) :=
  List.any_append

theorem isWhole_singleton (f : Frame) : isWhole [f] = (f.kind != .message) := by
  simp only [isWhole, List.any_cons, List.any_nil, Bool.or_false]

end Answer

namespace Dialogue

variable {d : Dialogue σ ν} {c c' : Client} {x x' : Exchange} {falling said : List Word}

/-- **What has become of the words of the server**, which are all that it has said. -/
inductive Heard (d : Dialogue σ ν) (c : Client) (x : Exchange) (falling said : List Word) : Prop
  /-- The exchange listens, and has a route until its status is there. -/
  | listening {ch : ReplyChannel} (hx : x.isOver = false) (hch : c.channel? d.id = some ch)
      (hall : x.received.map Frame.word ++
        (ch.queue.map Frame.word ++ (Frame.words d.id c.held ++ falling)) = said)
      (hroute : ch.routed = false →
        ∃ w ∈ ch.queue.map Frame.word ++ Frame.words d.id c.held, w.1 = .status)
      (hmore : Answer.isWhole x.received = false)
  /-- The exchange is over, and has got everything. -/
  | answered (hx : x.stage = .finished none) (hall : x.received.map Frame.word = d.reply)
      (hsaid : d.reply <+: said)

/-- Whether an exchange of a kind takes what the server says. -/
def Suits (d : Dialogue σ ν) (kind : ExchangeKind) : Prop :=
  kind = .transfer → ∀ a : Answer, a.messages <+: d.course.answer → Exchange.isSpoiled a = false

/-- Nothing that concerns the dialogue has changed. -/
theorem Heard.of_same (h : d.Heard c x falling said) (hch : c'.channel? d.id = c.channel? d.id)
    (hheld : Frame.words d.id c'.held = Frame.words d.id c.held) : d.Heard c' x falling said := by
  cases h with
  | listening hx hc hall hroute hmore =>
      refine .listening hx (hch.trans hc) ?_ ?_ hmore
      · rwa [hheld]
      · rwa [hheld]
  | answered hx hall hsaid => exact .answered hx hall hsaid

/-- The server says more. -/
theorem Heard.more (h : d.Heard c x falling said) (new : List Word) :
    d.Heard c x (falling ++ new) (said ++ new) := by
  cases h with
  | listening hx hc hall hroute hmore =>
      refine .listening hx hc ?_ hroute hmore
      rw [← hall]
      simp only [List.append_assoc]
  | answered hx hall hsaid => exact .answered hx hall (hsaid.trans (List.prefix_append _ _))

/-! ## The reader -/

/-- **The reader reads a frame**: one of the dialogue is held for its channel. -/
theorem Heard.hear {f : Frame} (hr : c.reader = .reading) (hsaid : said <+: d.reply)
    (h : d.Heard c x (Frame.words d.id [f] ++ falling) said) : d.Heard (c.route f) x falling said := by
  cases h with
  | answered hx hall hsaid => exact .answered hx hall hsaid
  | @listening ch hx hch hall hroute hmore =>
      have hheld := Client.held_of_reading hr
      rw [hheld, Frame.words_nil, List.append_nil] at hroute
      rw [hheld, Frame.words_nil, List.nil_append] at hall
      by_cases hid : f.callId = d.id
      · rw [Frame.words_own hid] at hall
        have hrouted : ch.routed = true := by
          cases hcase : ch.routed with
          | true => rfl
          | false =>
              -- Nothing is said after the status.
              obtain ⟨w, hw, hstatus⟩ := hroute hcase
              rw [← hall, ← List.append_assoc] at hsaid
              have := kind_of_before hsaid (List.mem_append_right _ hw)
              rw [hstatus] at this
              cases this
        have hafter := Client.channel?_modify_self hch fun ch => ch.id_after f
        rw [Client.route_of_routed (hid.symm ▸ hch) hrouted, hid]
        refine .listening hx hafter ?_ ?_ hmore
        · rw [Client.held_of_delivering rfl, Frame.words_own hid, ReplyChannel.queue_after]
          exact hall
        · intro hunrouted
          rw [Client.held_of_delivering rfl, Frame.words_own hid]
          refine ⟨f.word, List.mem_append_right _ (List.mem_singleton_self _), ?_⟩
          unfold ReplyChannel.after at hunrouted
          split at hunrouted
          · next hk => exact hk
          · rw [hrouted] at hunrouted
            cases hunrouted
      · rw [Frame.words_other hid, List.nil_append] at hall
        have hother := Client.channel?_route_of_ne (c := c) hid
        have hnone : Frame.words d.id (c.route f).held = [] := by
          rcases Client.reader_route c f with hsame | hdel
          · rw [Client.held_of_reading (hsame.trans hr), Frame.words_nil]
          · rw [Client.held_of_delivering hdel, Frame.words_other hid]
        refine .listening hx (hother.trans hch) ?_ ?_ hmore
        · rwa [hnone]
        · rwa [hnone, List.append_nil]

/-- **The frame that the reader holds goes into its channel.** -/
theorem Heard.handOver {f : Frame} (hr : c.reader = .delivering f) (h : d.Heard c x falling said) :
    d.Heard { c.modify f.callId fun ch => { ch with queue := ch.queue ++ [f] } with
      reader := .reading } x falling said := by
  cases h with
  | answered hx hall hsaid => exact .answered hx hall hsaid
  | @listening ch hx hch hall hroute hmore =>
      rw [Client.held_of_delivering hr] at hall hroute
      by_cases hid : f.callId = d.id
      · rw [Frame.words_own hid] at hall hroute
        have hafter := Client.channel?_modify_self hch
          (f := fun ch => { ch with queue := ch.queue ++ [f] }) fun _ => rfl
        rw [hid]
        have hwords : (ch.queue ++ [f]).map Frame.word = ch.queue.map Frame.word ++ [f.word] :=
          List.map_append
        refine .listening hx hafter ?_ ?_ hmore
        · rw [Client.held_of_reading rfl, Frame.words_nil, hwords, List.nil_append,
            List.append_assoc]
          exact hall
        · rw [Client.held_of_reading rfl, Frame.words_nil, hwords, List.append_nil]
          exact hroute
      · rw [Frame.words_other hid] at hall hroute
        have hother := Client.channel?_modify_of_ne (c := c)
          (f := fun ch => { ch with queue := ch.queue ++ [f] }) (fun _ => rfl) (Ne.symm hid)
        refine .listening hx (hother.trans hch) ?_ ?_ hmore
        · rwa [Client.held_of_reading rfl, Frame.words_nil]
        · rwa [Client.held_of_reading rfl, Frame.words_nil]

/-- The reader drops the frame that it holds, for nobody listens. -/
theorem Heard.drop {f : Frame} (hr : c.reader = .delivering f)
    (hno : ∀ ch, c.channel? f.callId = some ch → ch.listening = false)
    (hlisten : x.isOver = false → ∀ ch, c.channel? d.id = some ch → ch.listening = true)
    (h : d.Heard c x falling said) : d.Heard { c with reader := .reading } x falling said := by
  by_cases hid : f.callId = d.id
  · cases h with
    | answered hx hall hsaid => exact .answered hx hall hsaid
    | listening hx hch =>
        rw [hid] at hno
        have := hlisten hx _ hch
        rw [hno _ hch] at this
        cases this
  · refine h.of_same rfl ?_
    rw [Client.held_of_reading rfl, Client.held_of_delivering hr, Frame.words_other hid,
      Frame.words_nil]

/-! ## The exchange -/

/-- **An exchange is satisfied by the whole answer**, and not before. -/
theorem reply_of_satisfied {f : Frame} (hsuits : d.Suits x.kind)
    (hbegin : (x.received ++ [f]).map Frame.word <+: d.reply)
    (hmore : Answer.isWhole x.received = false)
    (hsatisfied : Exchange.isSatisfied { x with received := x.received ++ [f] } = true) :
    (x.received ++ [f]).map Frame.word = d.reply := by
  rcases List.prefix_concat_iff.1 hbegin with hall | hpart
  · exact hall
  · -- Messages alone are no whole answer, and they spoil no transfer.
    have hk : f.kind = .message := kind_of_mem_messageWords (hpart.subset (by
      rw [List.map_append]
      exact List.mem_append_right _ (List.mem_singleton_self _)))
    have hpending : Answer.isWhole (x.received ++ [f]) = false := by
      rw [Answer.isWhole_append, hmore, Bool.false_or, Answer.isWhole_singleton, hk]
      rfl
    obtain ⟨more, hms⟩ := hpart
    obtain ⟨ms, rest, hanswer, hwords, -⟩ := List.map_eq_append_iff.1 hms.symm
    rw [Exchange.isSatisfied, hpending, Bool.false_or, Bool.and_eq_true, beq_iff_eq,
      Answer.ofFrames_messages hwords.symm] at hsatisfied
    have hfine := hsuits hsatisfied.1 ⟨ms, .cut⟩ ⟨rest, hanswer.symm⟩
    rw [hfine] at hsatisfied
    cases hsatisfied.2

/-- **The exchange takes a step of its own.** It gives nothing up as long as all its frames could be
made. -/
theorem Heard.step (hid : x.id = d.id) (hsuits : d.Suits x.kind) (hsaid : said <+: d.reply)
    (hopen : c.outbox.isOpen = true) (hmade : ∀ e, .error e ∉ x.toQueue)
    (hstep : x.Step c x' c') (h : d.Heard c x falling said) : d.Heard c' x' falling said := by
  cases h with
  | answered hx hall hsaid =>
      cases hstep with
      | pass hs | queue hs | giveUp hs | take hs | finish hs | cut hs => cases hx.symm.trans hs
  | @listening ch hx hch hall hroute hmore =>
      cases hstep with
      | pass hs => exact .listening rfl hch hall hroute hmore
      | queue hs hput => exact .listening rfl hch hall hroute hmore
      | @giveUp f rest e hs he =>
          rcases he with ⟨fault, rfl⟩ | hc
          · refine absurd ?_ (hmade fault)
            simp only [Exchange.toQueue, hs]
            exact List.mem_cons_self
          · rw [hopen] at hc
            cases hc
      | @take ch' f rest hs hc hq hunsatisfied =>
          rw [hid, hch] at hc
          cases hc
          have hwhole : Answer.isWhole (x.received ++ [f]) = false :=
            (Bool.or_eq_false_iff.1 hunsatisfied).1
          have hk : f.kind = .message := by
            rw [Answer.isWhole_append, hmore, Bool.false_or, Answer.isWhole_singleton] at hwhole
            simpa using hwhole
          rw [hq, List.map_cons] at hall hroute
          rw [hid]
          refine .listening hx (Client.channel?_modify_self hch fun _ => rfl) ?_ ?_ hwhole
          · rw [List.map_append, List.append_assoc]
            exact hall
          · intro hunrouted
            obtain ⟨w, hw, hstatus⟩ := hroute hunrouted
            rcases List.mem_cons.1 hw with rfl | hw
            · cases hk.symm.trans hstatus
            · exact ⟨w, hw, hstatus⟩
      | @finish ch' f rest hs hc hq hsatisfied =>
          rw [hid, hch] at hc
          cases hc
          rw [hq, List.map_cons] at hall
          have hbegin : (x.received ++ [f]).map Frame.word <+: said := by
            rw [← hall, List.map_append]
            exact ⟨_, List.append_assoc _ _ _⟩
          have hreply := reply_of_satisfied hsuits (hbegin.trans hsaid) hmore hsatisfied
          exact .answered rfl hreply (hreply ▸ hbegin)
      | cut hs hc =>
          -- Without its route the status must be in the channel or with the reader.
          obtain ⟨hq, hunrouted, hidle⟩ := hc ch (hid.symm ▸ hch)
          obtain ⟨w, hw, -⟩ := hroute hunrouted
          rw [hq, Client.words_held_of_idle (hid ▸ hidle)] at hw
          cases hw

/-- **An exchange that is over has the answer of the course**, and a status that says that the call
went well. -/
theorem Heard.answer (h : d.Heard c x falling said) (hx : x.isOver = true) :
    ∃ status, x.answer? = some (.ok ⟨d.course.answer, status⟩) ∧ status.result = .ok () := by
  cases h with
  | listening hlive =>
      rw [hlive] at hx
      cases hx
  | answered hst hall =>
      refine ⟨.status farewell.2, ?_, by decide +kernel⟩
      have hframes := Answer.ofFrames_status hall
      simp only [Exchange.answer?, hst]
      rw [hframes]
      rfl

end Dialogue

end DeviceGateway
