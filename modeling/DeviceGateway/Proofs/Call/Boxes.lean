import DeviceGateway.Call.Inbox
import DeviceGateway.Call.Outbox

/-!
# Inboxes and outboxes

What putting in and taking out come to, by cases and with all that is known in each of them
(`Inbox.Takes`, `Inbox.Puts`, `Outbox.Sends`). Whoever uses a box goes through these cases and does
not look into the operation again.
-/

namespace DeviceGateway

/-! ## Frames that could be made -/

/-- A frame that could be made is made of its parts. -/
theorem Frame.of_make {kind : FrameKind} {id : UInt64} {payload : Bytes} {f : Frame}
    (h : Frame.make kind id payload = .ok f) :
    f.kind = kind ∧ f.callId = id ∧ f.payload = payload := by
  unfold Frame.make at h
  split at h
  · cases h
    exact ⟨rfl, rfl, rfl⟩
  · cases h

/-- Only what is too large makes no frame. -/
theorem Frame.make_eq_error_iff {kind : FrameKind} {id : UInt64} {payload : Bytes}
    {e : FrameFault} :
    Frame.make kind id payload = .error e ↔
      Frame.maxPayload < payload.length ∧ e = .tooLarge payload.length := by
  unfold Frame.make
  constructor
  · intro h
    split at h
    · cases h
    · next hlong =>
      cases h
      exact ⟨Nat.lt_of_not_le hlong, rfl⟩
  · rintro ⟨hlong, rfl⟩
    exact dif_neg (Nat.not_le.2 hlong)

/-- What is not too large makes a frame. -/
theorem Frame.exists_make_eq_ok_iff {kind : FrameKind} {id : UInt64} {payload : Bytes} :
    (∃ f, Frame.make kind id payload = .ok f) ↔ payload.length ≤ Frame.maxPayload := by
  constructor
  · rintro ⟨f, hf⟩
    rw [← (Frame.of_make hf).2.2]
    exact f.payload_le
  · intro hfits
    exact ⟨_, dif_pos hfits⟩

/-! ## Inboxes -/

namespace Inbox

/-- **What comes out of an inbox**: the next message, or the end after the last one. -/
inductive Takes (b : Inbox) : Option Bytes → Inbox → Prop where
  | message {m : Bytes} {rest : List Bytes} (hqueue : b.queue = m :: rest) :
      Takes b (some m) { b with queue := rest }
  | ending (hqueue : b.queue = []) (hsending : b.sending = false) : Takes b none b

/-- **What putting a message in comes to**: nobody will read it, or there is room for it. -/
inductive Puts (b : Inbox) (m : Bytes) : Inbox → Prop where
  | dropped (hclosed : b.sending = false ∨ b.reading = false) : Puts b m b
  | kept (hsending : b.sending = true) (hreading : b.reading = true)
      (hroom : b.queue.length < capacity) : Puts b m { b with queue := b.queue ++ [m] }

variable {b b' : Inbox}

theorem takes_of_take? {m : Option Bytes} (h : b.take? = some (m, b')) : b.Takes m b' := by
  unfold take? at h
  split at h
  · next hqueue =>
    cases h
    exact .message hqueue
  · next hqueue =>
    split at h
    · cases h
    · next hsending =>
      cases h
      exact .ending hqueue (eq_false_of_ne_true hsending)

/-- Whoever waits for a message finds none, and more may come. -/
theorem take?_eq_none_iff : b.take? = none ↔ b.queue = [] ∧ b.sending = true := by
  unfold take?
  split
  · next hqueue => simp [hqueue]
  · next hqueue =>
    split
    · next hsending => simp [hqueue, hsending]
    · next hsending => simp [hsending]

theorem sending_take? {m : Option Bytes} (h : b.take? = some (m, b')) : b'.sending = b.sending := by
  cases takes_of_take? h <;> rfl

theorem reading_take? {m : Option Bytes} (h : b.take? = some (m, b')) : b'.reading = b.reading := by
  cases takes_of_take? h <;> rfl

theorem queue_of_take? {m : Bytes} (h : b.take? = some (some m, b')) : b.queue = m :: b'.queue := by
  cases takes_of_take? h with
  | message hqueue => exact hqueue

theorem puts_of_put? {m : Bytes} (h : b.put? m = some b') : b.Puts m b' := by
  unfold put? at h
  split at h
  · next hclosed =>
    cases h
    exact .dropped (by simpa using hclosed)
  · next hopen =>
    simp only [Bool.or_eq_true, Bool.not_eq_true', not_or, Bool.not_eq_false] at hopen
    split at h
    · next hroom =>
      cases h
      exact .kept hopen.1 hopen.2 hroom
    · cases h

/-- Only an inbox that is full makes its sender wait, and only one that is read. -/
theorem put?_eq_none_iff {m : Bytes} :
    b.put? m = none ↔ b.sending = true ∧ b.reading = true ∧ capacity ≤ b.queue.length := by
  unfold put?
  cases b.sending <;> cases b.reading <;> simp

theorem sending_put? {m : Bytes} (h : b.put? m = some b') : b'.sending = b.sending := by
  cases puts_of_put? h <;> rfl

theorem reading_put? {m : Bytes} (h : b.put? m = some b') : b'.reading = b.reading := by
  cases puts_of_put? h <;> rfl

/-- An inbox that is read and expects more takes a message, as soon as there is room. -/
theorem eq_of_put? {m : Bytes} (hs : b.sending = true) (hr : b.reading = true)
    (h : b.put? m = some b') : b' = { b with queue := b.queue ++ [m] } := by
  cases puts_of_put? h with
  | dropped hclosed => simp [hs, hr] at hclosed
  | kept => rfl

end Inbox

/-! ## Outboxes -/

namespace Outbox

variable {b b' : Outbox}

theorem put?_eq_ok_iff {f : Frame} :
    b.put? f = some (.ok b') ↔
      b.isOpen = true ∧ b.queue.length < b.capacity ∧ b' = { b with queue := b.queue ++ [f] } := by
  unfold put?
  cases b.isOpen with
  | false => simp
  | true =>
      by_cases hroom : b.queue.length < b.capacity
      · simp [hroom, eq_comm]
      · simp [hroom]

theorem put?_eq_error_iff {f : Frame} {e : GatewayError} :
    b.put? f = some (.error e) ↔ b.isOpen = false ∧ e = .channelClosed := by
  unfold put?
  cases b.isOpen with
  | false => simp [eq_comm]
  | true => by_cases hroom : b.queue.length < b.capacity <;> simp [hroom]

theorem put?_of_room (ho : b.isOpen = true) (hroom : b.queue.length < b.capacity)
    (f : Frame) : b.put? f = some (.ok { b with queue := b.queue ++ [f] }) :=
  put?_eq_ok_iff.2 ⟨ho, hroom, rfl⟩

theorem put?_of_closed {f : Frame} (hc : b.isOpen = false) : b.put? f ≠ some (.ok b') := by
  intro hput
  rw [(put?_eq_ok_iff.1 hput).1] at hc
  cases hc

/-- **What sending a message comes to**: it is too large, nobody writes any more, or it is put in. -/
inductive Sends (b : Outbox) (id : UInt64) (payload : Bytes) :
    Except GatewayError Unit → Outbox → Prop where
  | tooLarge (hlong : Frame.maxPayload < payload.length) :
      Sends b id payload (.error (FrameFault.tooLarge payload.length).toError) b
  | closed (hfits : payload.length ≤ Frame.maxPayload) (hclosed : b.isOpen = false) :
      Sends b id payload (.error .channelClosed) b
  | sent {b' : Outbox} (hfits : payload.length ≤ Frame.maxPayload)
      (hput : b.put? ⟨.message, id, payload, hfits⟩ = some (.ok b')) : Sends b id payload (.ok ()) b'

theorem sends_of_send? {id : UInt64} {payload : Bytes} {result : Except GatewayError Unit}
    (h : b.send? id payload = some (result, b')) : b.Sends id payload result b' := by
  unfold send? Frame.message Frame.make at h
  by_cases hfits : payload.length ≤ Frame.maxPayload
  · rw [dif_pos hfits] at h
    dsimp only at h
    split at h
    · cases h
    · next e hput =>
      cases h
      obtain ⟨hclosed, rfl⟩ := put?_eq_error_iff.1 hput
      exact .closed hfits hclosed
    · next hput =>
      cases h
      exact .sent hfits hput
  · rw [dif_neg hfits] at h
    cases h
    exact .tooLarge (Nat.lt_of_not_le hfits)

/-- Where there is room, a message is sent, or it is too large for a frame. -/
theorem isSome_send? (ho : b.isOpen = true) (hroom : b.queue.length < b.capacity)
    (id : UInt64) (m : Bytes) : (b.send? id m).isSome = true := by
  unfold send?
  split
  · rfl
  · next f _ =>
    rw [put?_of_room ho hroom f]
    rfl

/-- Sending puts in one message of the call, or nothing. -/
theorem put?_of_send? {id : UInt64} {payload : Bytes} {result : Except GatewayError Unit}
    (h : b.send? id payload = some (result, b')) :
    b' = b ∨ ∃ f : Frame, f.kind = .message ∧ f.callId = id ∧ b.put? f = some (.ok b') := by
  cases sends_of_send? h with
  | tooLarge | closed => exact .inl rfl
  | sent hfits hput => exact .inr ⟨_, rfl, rfl, hput⟩

end Outbox

end DeviceGateway
