import DeviceGateway.Proofs.Client.Passing

/-!
# Calls that wait for each other

What has arrived for one call gets to its receiver only behind what arrived before it for the others,
and if one of them does not take its frames, only as far as its channel has room for them. Everything
that has arrived for a call can be delivered exactly if what arrived before it finds room
(`deliverable_iff`). Where the reader waits for a consumer, nothing gets to anybody any more until
that one does something (`WaitsFor.run`).
-/

namespace DeviceGateway

/-! ## What gets to a receiver -/

namespace Callers

open DeviceGateway.Frame

variable {k : Checksum} {s t u : Callers} {m : Move} {ms before : List Move} {id i : UInt64}
  {front : List Frame}

theorem bounded_of_step (h : s.client.Bounded) (hstep : Step k s m t) : t.client.Bounded := by
  cases hstep with
  | start => exact h.register
  | giveUp | drop => exact h.modify (by exact fun _ => rfl) fun _ _ => Nat.zero_le _
  | @take id ch f rest ho hc hq =>
      refine h.modify (by exact fun _ => rfl) fun _ _ => ?_
      have hfull := h id
      rw [Client.buffered_of_channel? hc, hq] at hfull
      exact Nat.le_of_succ_le hfull
  | @hear f rest =>
      intro i
      show ((Client.route _ f).buffered i).length ≤ _
      rw [(Client.route_spares _ f i).2]
      exact h i
  | leave =>
      intro i
      show (Client.buffered (Client.leave _) i).length ≤ _
      rw [Client.buffered, Client.channel?_leave, Option.map_map]
      exact h i
  | deliver hr hc hl hroom => exact h.delivers (.put hr hc hl hroom)
  | _ => exact h

theorem bounded_of_run (h : s.client.Bounded) (hrun : s.run? k ms = some t) :
    t.client.Bounded :=
  run?_induction (P := fun t => t.client.Bounded) bounded_of_step h hrun

/-- What a step puts before the receiver of a call: the frame that the reader gives up, if the
receiver is there. -/
def puts (id : UInt64) (s : Callers) : Move → List Frame
  | .deliver => if s.client.isListening id then s.client.heldFor id else []
  | _ => []

/-- **What is delivered to the receiver of a call** in a run. -/
def delivered (k : Checksum) (id : UInt64) : Callers → List Move → List Frame := along (puts id) k

/-- Whether a step is one of the reader, or of the consumer of a call. -/
def Move.isFor (id : UInt64) : Move → Bool
  | .read | .deliver => true
  | .take i => i == id
  | _ => false

/-- **The reader and the consumer of a call can bring about a state**, and deliver some frames to its
receiver on the way. -/
def Brings (k : Checksum) (s : Callers) (id : UInt64) (fs : List Frame) (t : Callers) : Prop :=
  ∃ ms, (∀ m ∈ ms, m.isFor id = true) ∧ s.run? k ms = some t ∧ s.delivered k id ms = fs

/-- **Everything that is due to a call can be delivered** without the consumers of other calls. -/
def CanDeliver (k : Checksum) (s : Callers) (id : UInt64) : Prop :=
  ∃ t, Brings k s id (s.client.due id (s.client.wire k)) t

theorem isListening_of_isOpen (h : s.isOpen id = true) : s.client.isListening id = true := by
  rw [isOpen, Bool.and_eq_true] at h
  exact h.2

/-! ### No further than there is room -/

/-- **Frames within reach** for a call are due to it behind frames that the reader can get past. -/
def InReach (k : Checksum) (s : Callers) (id : UInt64) (fs : List Frame) : Prop :=
  fs = [] ∨ ∃ front, s.client.Passable k id front ∧ fs <+: s.client.due id front

/-- These steps let nobody stop listening, and open no call. -/
theorem keeps_of_isFor (hstep : Step k s m t) (hm : m.isFor id = true) :
    t.opening = s.opening ∧ ∀ i, t.client.isListening i = s.client.isListening i := by
  cases hstep with
  | @hear f rest => exact ⟨rfl, fun i => (Client.route_spares _ f i).1⟩
  | leave =>
      refine ⟨rfl, fun i => ?_⟩
      show (Client.leave _).isListening i = _
      rw [Client.isListening, Client.channel?_leave, Option.any_map]
      rfl
  | deliver hr hc hl hroom =>
      exact ⟨rfl, fun i => (Client.due_of_delivers (.put hr hc hl hroom) i []).2.2.1⟩
  | take => exact ⟨rfl, s.client.isListening_modify (by exact fun _ => ⟨rfl, rfl⟩) _⟩
  | discard | learn => exact ⟨rfl, fun _ => rfl⟩
  | _ => cases hm

/-- The reader is through with the frame that it held. -/
theorem inReach_of_delivers {c : Client} {more : List Frame} (hb : s.client.Bounded)
    (hl : s.client.isListening id = true) (h : s.client.Delivers c)
    (hmore : InReach k { s with client := c } id more) :
    InReach k s id (s.puts id .deliver ++ more) := by
  have hputs : s.puts id .deliver = s.client.heldFor id := if_pos hl
  have hr : c.reader = .reading := (Client.due_of_delivers h id []).1
  have hdue : ∀ front, s.client.due id front = s.client.heldFor id ++ c.due id front :=
    fun front => (Client.due_of_delivers h id front).2.2.2.1
  rw [hputs]
  rcases hmore with rfl | ⟨front, hp, hmore⟩
  · have hp := (hb.delivers h).passable_nil hr k id
    refine .inr ⟨[], (Client.passable_iff_of_delivers h).1 hp, ?_⟩
    rw [hdue, List.append_nil]
    exact List.prefix_append _ _
  · refine .inr ⟨front, (Client.passable_iff_of_delivers h).1 hp, ?_⟩
    rw [hdue]
    exact (List.prefix_append_right_inj _).2 hmore

theorem inReach_of_step {more : List Frame} (hb : s.client.Bounded)
    (hl : s.client.isListening id = true) (hm : m.isFor id = true) (hstep : Step k s m t)
    (hmore : InReach k t id more) : InReach k s id (s.puts id m ++ more) := by
  cases hstep with
  | @hear f rest hr hd =>
      rcases hmore with hnone | ⟨front, hp, hdue⟩
      · exact .inl hnone
      · refine .inr ⟨f :: front, (Client.passable_route_iff hr hd).1 hp, ?_⟩
        rw [Client.due_route (by exact hr)] at hdue
        exact hdue
  | leave =>
      rcases hmore with hnone | ⟨front, hp, -⟩
      · exact .inl hnone
      · exact absurd rfl hp.reader
  | deliver hr hc hlistening hroom =>
      exact inReach_of_delivers hb hl (.put hr hc hlistening hroom) hmore
  | discard hr hno => exact inReach_of_delivers hb hl (.drop hr hno) hmore
  | @take i ch f rest =>
      obtain rfl : i = id := by simpa [Move.isFor] using hm
      rcases hmore with hnone | ⟨front, hp, hdue⟩
      · exact .inl hnone
      · refine .inr ⟨front, (s.client.passable_taken_iff rest).1 hp, ?_⟩
        rw [s.client.due_taken rest] at hdue
        exact hdue
  | learn => exact hmore
  | _ => cases hm

/-- **What a run of these steps delivers was within reach.** -/
theorem inReach_of_run (hb : s.client.Bounded) (hl : s.client.isListening id = true)
    (hms : ∀ m ∈ ms, m.isFor id = true) (hrun : s.run? k ms = some t) :
    InReach k s id (s.delivered k id ms) := by
  induction ms generalizing s with
  | nil => exact .inl rfl
  | cons m ms ih =>
      obtain ⟨u, hm, hrest⟩ := Option.bind_eq_some_iff.1 hrun
      have hstep := step_of_step? hm
      have hfor := hms m List.mem_cons_self
      have hmore := ih (bounded_of_step hb hstep) (((keeps_of_isFor hstep hfor).2 id).trans hl)
        (fun m' hm' => hms m' (List.mem_cons_of_mem _ hm')) hrest
      rw [delivered, along_cons _ hm]
      exact inReach_of_step hb hl hfor hstep hmore

/-! ### As far as there is room -/

namespace Brings

variable {fs gs : List Frame}

theorem refl (k : Checksum) (s : Callers) (id : UInt64) : Brings k s id [] s := by
  refine ⟨[], ?_, rfl, rfl⟩
  intro m hm
  cases hm

theorem single (hm : m.isFor id = true) (hstep : s.step? k m = some t) :
    Brings k s id (s.puts id m) t := by
  refine ⟨[m], ?_, ?_, ?_⟩
  · intro m' hm'
    rwa [List.mem_singleton.1 hm']
  · rw [run?_cons hstep]
    rfl
  · rw [delivered, along_cons _ hstep]
    exact List.append_nil _

theorem trans (h : Brings k s id fs t) (h' : Brings k t id gs u) : Brings k s id (fs ++ gs) u := by
  obtain ⟨ms, hms, hrun, rfl⟩ := h
  obtain ⟨more, hmore, hrun', rfl⟩ := h'
  refine ⟨ms ++ more, ?_, (run?_append hrun).trans hrun', along_append _ hrun⟩
  intro m hm
  exact (List.mem_append.1 hm).elim (hms m) (hmore m)

theorem keeps (h : Brings k s id fs t) (hb : s.client.Bounded) (ho : s.isOpen id = true) :
    t.client.Bounded ∧ t.isOpen id = true := by
  obtain ⟨ms, hms, hrun, -⟩ := h
  refine ⟨bounded_of_run hb hrun, ?_⟩
  induction ms generalizing s with
  | nil =>
      cases hrun
      exact ho
  | cons m ms ih =>
      obtain ⟨u, hm, hrest⟩ := Option.bind_eq_some_iff.1 hrun
      have hstep := step_of_step? hm
      obtain ⟨hopening, hlistening⟩ := keeps_of_isFor hstep (hms m List.mem_cons_self)
      have hopen : u.isOpen id = s.isOpen id := by
        rw [isOpen, hopening]
        exact congrArg _ (hlistening id)
      exact ih (bounded_of_step hb hstep) (hopen.trans ho)
        (fun m' hm' => hms m' (List.mem_cons_of_mem _ hm')) hrest

/-- **The reader has given up the frame that it held**, and can get past the same frames as before. -/
def Released (k : Checksum) (s : Callers) (id : UInt64) (front : List Frame) (t : Callers) : Prop :=
  Brings k s id (s.client.heldFor id) t ∧ t.client.reader = .reading ∧
    t.client.Passable k id front ∧
    s.client.due id front = s.client.heldFor id ++ t.client.due id front

theorem released_of_room {f : Frame} (hl : s.client.isListening id = true)
    (hp : s.client.Passable k id front) (hr : s.client.reader = .delivering f)
    (hroom : s.client.isListening f.callId = true →
      (s.client.buffered f.callId).length < Client.capacity) : ∃ t, Released k s id front t := by
  obtain ⟨c, hc, hdelivers⟩ := Client.exists_delivers hr hroom
  obtain ⟨hreading, -, -, hdue, -⟩ := Client.due_of_delivers hdelivers id front
  have hstep : s.step? k .deliver = some { s with client := c } := by
    rw [step?, hc]
    rfl
  have hputs : s.puts id .deliver = s.client.heldFor id := if_pos hl
  refine ⟨{ s with client := c }, ?_, hreading, ?_, hdue⟩
  · rw [← hputs]
    exact single rfl hstep
  · exact (Client.passable_iff_of_delivers hdelivers).2 hp

/-- The consumer of a call makes room in its channel. -/
theorem of_full (hb : s.client.Bounded) (ho : s.isOpen id = true)
    (hfull : Client.capacity ≤ (s.client.buffered id).length) :
    ∃ rest, rest.length < Client.capacity ∧
      Brings k s id [] { s with client := s.client.modify id ({ · with queue := rest }) } := by
  obtain ⟨ch, hc, -⟩ := exists_of_isOpen ho
  have hlimit := hb id
  rw [Client.buffered_of_channel? hc] at hfull hlimit
  cases hq : ch.queue with
  | nil =>
      rw [hq] at hfull
      cases hfull
  | cons f rest =>
      rw [hq] at hlimit
      refine ⟨rest, hlimit, single (m := .take id) (beq_self_eq_true id) ?_⟩
      rw [step?, if_pos ho, receive?_of_queue hc hq]
      rfl

/-- If the frame is one of the call itself and its channel is full, the consumer takes one first. -/
theorem released_of_full {f : Frame} (hb : s.client.Bounded) (ho : s.isOpen f.callId = true)
    (hp : s.client.Passable k f.callId front) (hr : s.client.reader = .delivering f)
    (hfull : Client.capacity ≤ (s.client.buffered f.callId).length) :
    ∃ t, Released k s f.callId front t := by
  obtain ⟨rest, hlimit, htake⟩ := of_full (k := k) hb ho hfull
  obtain ⟨hb', ho'⟩ := htake.keeps hb ho
  have hqueue : (s.client.modify f.callId ({ · with queue := rest })).buffered f.callId = rest := by
    obtain ⟨ch, hc, -⟩ := exists_of_isOpen ho
    exact Client.buffered_of_channel? (Client.channel?_modify_self hc (by exact fun _ => rfl))
  obtain ⟨t, hbrings, hreading, hpassable, hdue⟩ := released_of_room
    (isListening_of_isOpen ho') ((s.client.passable_taken_iff rest).2 hp) hr fun _ => by
      rw [hqueue]
      exact hlimit
  refine ⟨t, htake.trans hbrings, hreading, hpassable, ?_⟩
  rw [← s.client.due_taken rest]
  exact hdue

/-- **A reader that can get past some frames can get rid of the one that it holds.** -/
theorem exists_released (hb : s.client.Bounded) (ho : s.isOpen id = true)
    (hp : s.client.Passable k id front) : ∃ t, Released k s id front t := by
  cases hr : s.client.reader with
  | gone => exact absurd hr hp.reader
  | reading =>
      refine ⟨s, ?_, hr, hp, ?_⟩
      · rw [Client.heldFor_of_reading hr]
        exact refl k s id
      · rw [Client.heldFor_of_reading hr, List.nil_append]
  | delivering f =>
      by_cases hroom : s.client.isListening f.callId = true →
          (s.client.buffered f.callId).length < Client.capacity
      · exact released_of_room (isListening_of_isOpen ho) hp hr hroom
      · rw [Classical.not_imp] at hroom
        obtain rfl : f.callId = id := by
          by_contra hid
          have hfits := hp.room f.callId hid hroom.1
          rw [Client.due, Client.heldFor_own hr rfl, List.singleton_append, List.length_cons] at hfits
          omega
        exact released_of_full hb ho hp hr (Nat.le_of_not_lt hroom.2)

/-- **What is due behind frames that the reader can get past can be delivered.** -/
theorem of_passable (hb : s.client.Bounded) (ho : s.isOpen id = true)
    (hp : s.client.Passable k id front) : ∃ t, Brings k s id (s.client.due id front) t := by
  induction front generalizing s with
  | nil =>
      obtain ⟨t, hbrings, hr, -, hdue⟩ := exists_released hb ho hp
      refine ⟨t, ?_⟩
      rw [hdue, Client.due_of_reading hr, answering, ite_self, List.append_nil]
      exact hbrings
  | cons f front ih =>
      obtain ⟨t, hbrings, hr, hp', hdue⟩ := exists_released hb ho hp
      obtain ⟨hb', ho'⟩ := hbrings.keeps hb ho
      obtain ⟨rest, hd⟩ := Client.exists_decode_of_wire hp'.arrived
      have hread : t.client.read? k = some ({ t.client with unread := rest }.route f) := by
        simp only [Client.read?, hr, hd]
      have hstep : t.step? k .read =
          some { t with client := { t.client with unread := rest }.route f } := by
        rw [step?, hread]
        rfl
      have hthen : Brings k t id [] _ := single rfl hstep
      obtain ⟨hb'', ho''⟩ := hthen.keeps hb' ho'
      obtain ⟨u, hrest⟩ := ih hb'' ho'' ((Client.passable_route_iff hr hd).2 hp')
      refine ⟨u, ?_⟩
      rw [hdue]
      rw [Client.due_route (by exact hr)] at hrest
      exact hbrings.trans (hthen.trans hrest)

end Brings

/-! ### Who waits for whom -/

/-- **What has arrived for a call gets to its receiver without the consumers of other calls exactly
if they have room for what arrived before it.** The reader has to be there, and to be able to get
past frames behind which nothing more is due to the call. -/
theorem deliverable_iff (hreach : Callers.new.run? k before = some s) (ho : s.isOpen id = true) :
    s.CanDeliver k id ↔
      s.client.due id (s.client.wire k) = [] ∨
        ∃ front, s.client.Passable k id front ∧
          s.client.due id front = s.client.due id (s.client.wire k) := by
  have hnew : Callers.new.client.Bounded := fun _ => Nat.zero_le _
  have hb := bounded_of_run hnew hreach
  constructor
  · rintro ⟨t, ms, hms, hrun, hall⟩
    rcases inReach_of_run hb (isListening_of_isOpen ho) hms hrun with hnone | ⟨front, hp, hdue⟩
    · exact .inl (hall.symm.trans hnone)
    · rw [hall] at hdue
      refine .inr ⟨front, hp, ?_⟩
      exact (s.client.due_mono id hp.arrived).eq_of_length_le hdue.length_le
  · rintro (hnone | ⟨front, hp, hall⟩)
    · refine ⟨s, ?_⟩
      rw [hnone]
      exact .refl k s id
    · rw [CanDeliver, ← hall]
      exact Brings.of_passable hb ho hp

/-- **The reader waits for a consumer**: it holds a frame of the call, and the channel is full. -/
structure WaitsFor (s : Callers) (i : UInt64) : Prop where
  holds : ∃ f, s.client.reader = .delivering f ∧ f.callId = i
  full : ∃ ch, s.client.channel? i = some ch ∧ ch.listening = true ∧ Client.capacity ≤ ch.queue.length

/-- Whether a step may be what the reader waits for: the receiver of the call is asked for a frame or
dropped, or its caller finds that it cannot be opened. -/
def Move.concerns (i : UInt64) : Move → Bool
  | .take id | .drop id | .request id => id == i
  | _ => false

namespace WaitsFor

theorem of_same (h : s.WaitsFor i) (hr : t.client.reader = s.client.reader)
    (hc : t.client.channel? i = s.client.channel? i) : t.WaitsFor i := by
  refine ⟨?_, ?_⟩
  · rw [hr]
    exact h.holds
  · rw [hc]
    exact h.full

theorem step (h : s.WaitsFor i) (hstep : Step k s m t) (hm : m.concerns i = false) :
    t.WaitsFor i ∧ s.reads k m = [] ∧ ∀ id, s.puts id m = [] := by
  obtain ⟨f, hr, hf⟩ := h.holds
  obtain ⟨ch, hc, hl, hfull⟩ := h.full
  have hother : ∀ {id : UInt64}, (id == i) = false → i ≠ id := by
    intro id hid hi
    simp [hi] at hid
  cases hstep with
  | start =>
      refine ⟨h.of_same rfl ?_, rfl, fun _ => rfl⟩
      show (s.client.channels ++ [_]).find? _ = _
      rw [List.find?_append, show s.client.channels.find? (·.id == i) = some ch from hc, hc]
      rfl
  | hear hreading | leave hreading => cases hreading.symm.trans hr
  | deliver hdelivering hc' hl' hroom =>
      cases hdelivering.symm.trans hr
      cases hc'.symm.trans (hf ▸ hc)
      exact absurd hroom (Nat.not_lt_of_le hfull)
  | discard hdelivering hno =>
      cases hdelivering.symm.trans hr
      cases hl.symm.trans (hno ch (hf ▸ hc))
  | take =>
      refine ⟨h.of_same rfl ?_, rfl, fun _ => rfl⟩
      exact Client.channel?_modify_of_ne (by exact fun _ => rfl) (hother hm)
  | giveUp | drop =>
      exact ⟨h.of_same rfl (Client.channel?_unlisten_of_ne (hother hm)), rfl, fun _ => rfl⟩
  | _ => exact ⟨h.of_same rfl rfl, rfl, fun _ => rfl⟩

/-- **A reader that waits for a consumer waits until that one does something**, whatever else
happens. Until then no frame is read, and none gets to any receiver. -/
theorem run (h : s.WaitsFor i) (hrun : s.run? k ms = some t)
    (hms : ∀ m ∈ ms, m.concerns i = false) :
    t.WaitsFor i ∧ s.framesRead k ms = [] ∧ ∀ id, s.delivered k id ms = [] := by
  induction ms generalizing s with
  | nil =>
      cases hrun
      exact ⟨h, rfl, fun _ => rfl⟩
  | cons m ms ih =>
      obtain ⟨u, hm, hrest⟩ := Option.bind_eq_some_iff.1 hrun
      obtain ⟨hu, hread, hputs⟩ := h.step (step_of_step? hm) (hms m List.mem_cons_self)
      obtain ⟨ht, hread', hputs'⟩ := ih hu hrest fun m' hm' => hms m' (List.mem_cons_of_mem _ hm')
      refine ⟨ht, ?_, fun id => ?_⟩
      · rw [framesRead, along_cons _ hm, hread]
        exact hread'
      · rw [delivered, along_cons _ hm, hputs]
        exact hputs' id

end WaitsFor

/-- Some messages of call 1, and the status of call 2 behind them. -/
def messagesAhead (n : Nat) : List Frame :=
  List.replicate n ⟨.message, 1, [], Nat.zero_le _⟩ ++ [⟨.status, 2, [], Nat.zero_le _⟩]

/-- Two calls are opened, and these frames arrive. -/
def twoCalls (k : Checksum) (n : Nat) : List Move :=
  [.start ⟨"filesystem", "download", []⟩, .request 1, .start ⟨"device", "ping", []⟩, .request 2,
    .write, .write, .arrive ((messagesAhead n).flatMap (·.toBytes k))]

theorem answering_messagesAhead (n : Nat) :
    (answering 1 (messagesAhead n)).length = n ∧ (answering 2 (messagesAhead n)).length = 1 := by
  induction n with
  | zero => exact ⟨rfl, rfl⟩
  | succ n ih =>
      rw [messagesAhead, List.replicate_succ]
      exact ⟨congrArg Nat.succ ih.1, ih.2⟩

/-- Without its status nothing answers call 2. -/
theorem eq_messagesAhead {n : Nat} (h : front <+: messagesAhead n) (hne : answering 2 front ≠ []) :
    front = messagesAhead n := by
  rcases List.prefix_concat_iff.1 h with hall | hpart
  · exact hall
  · refine absurd ?_ hne
    have hnone : ∀ n, answering 2 (List.replicate n ⟨.message, 1, [], Nat.zero_le _⟩) = [] := by
      intro n
      induction n with
      | zero => rfl
      | succ n ih => exact ih
    exact List.prefix_nil.1 (hnone n ▸ answering_mono 2 hpart)

/-- Both calls have routes and receivers then, and no others have. Nothing has been read yet. -/
theorem twoCalls_reaches (k : Checksum) (n : Nat) :
    ∃ s, Callers.new.run? k (twoCalls k n) = some s ∧ s.isOpen 1 = true ∧ s.isOpen 2 = true ∧
      s.client.wire k = messagesAhead n ∧ s.client.reader = .reading ∧
      s.client.buffered 1 = [] ∧ (∀ i, i ≠ 2 → s.client.isListening i = true → i = 1) ∧
      ∀ fs, s.client.due 1 fs = answering 1 fs ∧ s.client.due 2 fs = answering 2 fs := by
  have hall : (drain k ((messagesAhead n).flatMap (·.toBytes k) ++ [])).frames = messagesAhead n := by
    rw [drain_toBytes (messagesAhead n) (decode_eq_of_front (.short (by decide)))]
  rw [List.append_nil] at hall
  refine ⟨_, rfl, rfl, rfl, hall, rfl, rfl, fun i hi hl => ?_, fun fs => ⟨rfl, rfl⟩⟩
  obtain ⟨ch, hch, -⟩ := (Option.any_eq_true _ _).1 hl
  have hmem := Client.mem_ids_of_channel? hch
  rw [show Client.ids _ = [1, 2] from rfl] at hmem
  simpa [hi] using hmem

/-- **As many messages as a channel has room for** do not keep the status of the other call from its
receiver. -/
theorem status_behind_64_messages :
    ∃ k s, Callers.new.run? k (twoCalls k 64) = some s ∧ s.isOpen 2 = true ∧ s.CanDeliver k 2 := by
  obtain ⟨s, hrun, -, ho, hwire, hr, hempty, honly, hdue⟩ := twoCalls_reaches ⟨fun _ => 0, rfl⟩ 64
  refine ⟨⟨fun _ => 0, rfl⟩, s, hrun, ho, (deliverable_iff hrun ho).2 (.inr ⟨messagesAhead 64, ?_, ?_⟩)⟩
  · refine ⟨?_, ?_, ?_⟩
    · rw [hr]
      intro hgone
      cases hgone
    · exact ⟨[], by rw [hwire, List.append_nil]⟩
    · intro i hi hl
      obtain rfl := honly i hi hl
      rw [hempty, (hdue _).1, (answering_messagesAhead 64).1]
      decide
  · rw [hwire]

/-- **One message more, and the status does not get to its receiver** as long as nobody takes a
message of the first call. -/
theorem status_behind_65_messages :
    ∃ k s, Callers.new.run? k (twoCalls k 65) = some s ∧ s.isOpen 1 = true ∧ s.isOpen 2 = true ∧
      s.client.due 2 (s.client.wire k) ≠ [] ∧ ¬ s.CanDeliver k 2 := by
  obtain ⟨s, hrun, ho₁, ho₂, hwire, -, -, -, hdue⟩ := twoCalls_reaches ⟨fun _ => 0, rfl⟩ 65
  have hsome : s.client.due 2 (s.client.wire ⟨fun _ => 0, rfl⟩) ≠ [] := by
    intro hnone
    have hone := (answering_messagesAhead 65).2
    rw [← (hdue _).2, ← hwire, hnone] at hone
    cases hone
  refine ⟨⟨fun _ => 0, rfl⟩, s, hrun, ho₁, ho₂, hsome, ?_⟩
  rintro ⟨t, ms, hms, hrun', hall⟩
  have hb := bounded_of_run (fun _ => Nat.zero_le _) hrun
  rcases inReach_of_run hb (isListening_of_isOpen ho₂) hms hrun' with hnone | ⟨front, hp, hpart⟩
  · exact hsome (hall.symm.trans hnone)
  · rw [hall] at hpart
    have hfront : front = messagesAhead 65 := by
      refine eq_messagesAhead (hwire ▸ hp.arrived) fun hnone => ?_
      rw [(hdue front).2, hnone] at hpart
      exact hsome (List.prefix_nil.1 hpart)
    -- All 65 messages would have to find room.
    have hfits := hp.room 1 (by decide) (isListening_of_isOpen ho₁)
    rw [(hdue front).1, hfront, (answering_messagesAhead 65).1] at hfits
    exact absurd (Nat.le_trans (Nat.le_add_left _ _) hfits) (by decide)

end Callers

end DeviceGateway
