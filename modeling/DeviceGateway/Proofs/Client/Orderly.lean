import DeviceGateway.Proofs.Client.Steps

/-!
# Clients in good order

In a client in good order every exchange has a channel under its number, which is listened to until
the exchange is over, and numbers are taken one after the other (`Exchanges.Orderly`). As long as
there are fewer exchanges than numbers no number is taken twice, and every step of an exchange, of
the reader and of the writer keeps the order.
-/

namespace DeviceGateway.Exchanges

variable {s s' : Exchanges} {id : UInt64}

/-- **A client in good order**, whose connection is there. -/
structure Orderly (s : Exchanges) : Prop where
  isOpen : s.client.outbox.isOpen = true
  capacity : s.client.outbox.capacity = Client.capacity
  reader : s.client.reader ≠ .gone
  next : s.client.nextId.toNat = s.exchanges.length + 1
  begun : ∀ {id x}, s.exchange? id = some x → id.toNat ≤ s.exchanges.length
  channel : ∀ {id x}, s.exchange? id = some x →
    ∃ ch, s.client.channel? id = some ch ∧ ch.listening = !x.isOver
  noChannel : ∀ {id}, s.exchange? id = none → s.client.channel? id = none
  /-- An exchange queues frames under its own number. -/
  script : ∀ {id x}, s.exchange? id = some x → ∀ f, .ok f ∈ x.toQueue → f.callId = id

theorem orderly_new : Exchanges.new.Orderly :=
  ⟨rfl, rfl, nofun, rfl, nofun, nofun, fun _ => rfl, nofun⟩

namespace Orderly

variable (h : s.Orderly)
include h

/-- The next number is free. -/
theorem free : s.exchange? s.client.nextId = none := by
  cases hx : s.exchange? s.client.nextId with
  | none => rfl
  | some x =>
      have := h.begun hx
      have := h.next
      omega

theorem ne_next {x : Exchange} (hx : s.exchange? id = some x) : id ≠ s.client.nextId := by
  rintro rfl
  rw [h.free] at hx
  cases hx

/-- What the reader and the writer do to channels does not matter, as long as who listens to them
stays the same. -/
theorem of_client (hx : s'.exchanges = s.exchanges) (hn : s'.client.nextId = s.client.nextId)
    (hc : ∀ id, (s'.client.channel? id).map (·.listening) =
      (s.client.channel? id).map (·.listening))
    (ho : s'.client.outbox.isOpen = true) (hcap : s'.client.outbox.capacity = Client.capacity)
    (hr : s'.client.reader ≠ .gone) : s'.Orderly := by
  have hex : s'.exchange? = s.exchange? := by
    funext i
    rw [exchange?, hx, exchange?]
  refine ⟨ho, hcap, hr, ?_, ?_, ?_, ?_, ?_⟩
  · rw [hn, hx]
    exact h.next
  · rw [hex, hx]
    exact h.begun
  · rw [hex]
    intro i x hi
    obtain ⟨ch, hch, hl⟩ := h.channel hi
    have := hc i
    rw [hch, Option.map_some, Option.map_eq_some_iff] at this
    obtain ⟨ch', hch', hl'⟩ := this
    exact ⟨ch', hch', hl'.trans hl⟩
  · rw [hex]
    intro i hi
    have := hc i
    rw [h.noChannel hi, Option.map_none, Option.map_eq_none_iff] at this
    exact this
  · rw [hex]
    exact h.script

/-- **An exchange begins** under the next number. -/
theorem begin {kind : ExchangeKind} {script : UInt64 → List (Except FrameFault Frame)}
    (hroom : (s.begin kind script).exchanges.length + 1 < UInt64.size)
    (hs : ∀ f, .ok f ∈ script s.client.nextId → f.callId = s.client.nextId) :
    (s.begin kind script).Orderly := by
  have hlen : (s.begin kind script).exchanges.length = s.exchanges.length + 1 :=
    List.length_append
  have hfree := h.noChannel h.free
  have hx := exchange?_begin h.free kind script
  refine ⟨h.isOpen, h.capacity, h.reader, ?_, ?_, ?_, ?_, ?_⟩
  · rw [hlen] at hroom ⊢
    show (s.client.nextId + 1).toNat = _
    rw [UInt64.toNat_add, h.next]
    exact Nat.mod_eq_of_lt hroom
  · intro i x hi
    rw [hx] at hi
    rw [hlen]
    split at hi
    · next heq => exact Nat.le_of_eq (heq ▸ h.next)
    · exact Nat.le_succ_of_le (h.begun hi)
  · intro i x hi
    rw [hx] at hi
    show ∃ ch, s.client.register.2.channel? i = some ch ∧ _
    rw [Client.channel?_register hfree]
    split at hi
    · next heq =>
      cases hi
      exact ⟨_, if_pos heq, rfl⟩
    · next hne =>
      rw [if_neg hne]
      exact h.channel hi
  · intro i hi
    rw [hx] at hi
    show s.client.register.2.channel? i = none
    rw [Client.channel?_register hfree]
    split at hi
    · cases hi
    · next hne =>
      rw [if_neg hne]
      exact h.noChannel hi
  · intro i x hi
    rw [hx] at hi
    split at hi
    · next heq =>
      cases hi
      rw [heq]
      exact hs
    · exact h.script hi

/-- What is said of one exchange and its channel is to be shown anew. -/
theorem replace {x x' : Exchange} {client : Client} {ch : ReplyChannel}
    (hx : s.exchange? x.id = some x) (hid : x'.id = x.id)
    (hn : client.nextId = s.client.nextId) (ho : client.outbox.isOpen = true)
    (hcap : client.outbox.capacity = Client.capacity) (hr : client.reader = s.client.reader)
    (hc : ∀ i, i ≠ x.id → client.channel? i = s.client.channel? i)
    (hch : client.channel? x.id = some ch) (hl : ch.listening = !x'.isOver)
    (hs : ∀ f, .ok f ∈ x'.toQueue → f.callId = x.id) : (s.replace x' client).Orderly := by
  rw [← hid] at hx
  have hlen : (s.replace x' client).exchanges.length = s.exchanges.length := List.length_map _
  have hget := exchange?_replace hx client
  rw [hid] at hget hx
  refine ⟨ho, hcap, hr ▸ h.reader, ?_, ?_, ?_, ?_, ?_⟩
  · rw [hlen]
    exact (congrArg UInt64.toNat hn).trans h.next
  · intro i y hi
    rw [hlen]
    rw [hget] at hi
    split at hi
    · next heq =>
      rw [heq]
      exact h.begun hx
    · exact h.begun hi
  · intro i y hi
    rw [hget] at hi
    show ∃ ch, client.channel? i = some ch ∧ _
    split at hi
    · next heq =>
      cases hi
      rw [heq]
      exact ⟨ch, hch, hl⟩
    · next hne =>
      rw [hc i hne]
      exact h.channel hi
  · intro i hi
    rw [hget] at hi
    show client.channel? i = none
    split at hi
    · cases hi
    · next hne =>
      rw [hc i hne]
      exact h.noChannel hi
  · intro i y hi
    rw [hget] at hi
    split at hi
    · next heq =>
      cases hi
      rw [heq]
      exact hs
    · exact h.script hi

/-- **An exchange takes a step.** -/
theorem exchange {x x' : Exchange} {client : Client} (hx : s.exchange? x.id = some x)
    (hstep : x.Step s.client x' client) : (s.replace x' client).Orderly := by
  obtain ⟨ch, hch, hl⟩ := h.channel hx
  have hscript := h.script hx
  have hopen : ∀ {stage : ExchangeStage}, x.stage = stage → { x with stage := stage }.isOver =
      x.isOver := by
    rintro stage rfl
    rfl
  have hqueue : ∀ {stage : ExchangeStage}, x.stage = stage →
      x.toQueue = Exchange.toQueue { x with stage := stage } := by
    rintro stage rfl
    rfl
  cases hstep with
  | pass hs =>
      refine h.replace hx rfl rfl h.isOpen h.capacity rfl (fun _ _ => rfl) hch ?_ nofun
      rw [hl, ← hopen hs]
      rfl
  | queue hs hput =>
      obtain ⟨-, -, rfl⟩ := Outbox.put?_eq_ok_iff.1 hput
      refine h.replace hx rfl rfl h.isOpen h.capacity rfl (fun _ _ => rfl) hch ?_ ?_
      · rw [hl, ← hopen hs]
        rfl
      · intro f hf
        refine hscript f ?_
        rw [hqueue hs]
        exact List.mem_cons_of_mem _ hf
  | giveUp hs he =>
      exact h.replace hx rfl rfl h.isOpen h.capacity rfl
        (fun i hi => Client.channel?_unlisten_of_ne hi) (Client.channel?_unlisten_self hch) rfl nofun
  | take hs hc hq hmore =>
      refine h.replace hx rfl rfl h.isOpen h.capacity rfl ?_
        (Client.channel?_modify_self hch fun _ => rfl) ?_ ?_
      · exact fun i hi => Client.channel?_modify_of_ne (by exact fun _ => rfl) hi
      · exact hl
      · exact hscript
  | @finish _ _ rest hs hc hq hwhole =>
      have hch' := Client.channel?_modify_self hch
        (f := fun ch => { ch with queue := rest }) fun _ => rfl
      refine h.replace hx rfl rfl h.isOpen h.capacity rfl ?_ (Client.channel?_unlisten_self hch') rfl
        nofun
      intro i hi
      rw [Client.channel?_unlisten_of_ne hi]
      exact Client.channel?_modify_of_ne (by exact fun _ => rfl) hi
  | cut hs hc =>
      exact h.replace hx rfl rfl h.isOpen h.capacity rfl
        (fun i hi => Client.channel?_unlisten_of_ne hi) (Client.channel?_unlisten_self hch) rfl nofun

end Orderly

end DeviceGateway.Exchanges
