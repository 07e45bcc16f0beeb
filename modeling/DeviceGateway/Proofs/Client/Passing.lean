import DeviceGateway.Proofs.Client.Routing
import DeviceGateway.Proofs.Frame.Stream

/-!
# How far a reader gets

One reader takes the frames of all calls to their channels, one after the other, and waits where a
channel is full. What it still takes to a call (`Client.due`) depends on how far it gets, and that is
a matter of counting: it gets past frames exactly if every other call that somebody listens to has
room for all that is due to it among them (`Client.Passable`). Each thing the reader does leaves both
accounts right.
-/

namespace DeviceGateway

namespace Frame

/-- What answers a call among more frames begins with what answers it among the first. -/
theorem answering_mono (id : UInt64) {fs gs : List Frame} (h : fs <+: gs) :
    answering id fs <+: answering id gs := by
  obtain ⟨more, rfl⟩ := h
  induction fs with
  | nil => exact List.nil_prefix
  | cons f fs ih =>
      simp only [List.cons_append, answering]
      split
      · split
        · exact List.prefix_rfl
        · exact (List.prefix_cons_inj f).2 ih
      · exact ih

end Frame

/-! ## What is due to a call -/

namespace Client

open DeviceGateway.Frame

variable {c : Client} {id i : UInt64} {f : Frame} {ch : ReplyChannel}

/-- Whether the reader has a route for a call. -/
def isRouted (c : Client) (id : UInt64) : Bool := (c.channel? id).any (·.routed)

/-- Whether anybody takes the frames of a call. -/
def isListening (c : Client) (id : UInt64) : Bool := (c.channel? id).any (·.listening)

/-- **What is due to a call** among frames that the reader has not read: the frame that it holds, if
it is one of the call, and those that answer the call. -/
def due (c : Client) (id : UInt64) (fs : List Frame) : List Frame :=
  c.heldFor id ++ if c.isRouted id then answering id fs else []

theorem isRouted_of_channel? (h : c.channel? id = some ch) : c.isRouted id = ch.routed := by
  rw [isRouted, h, Option.any_some]

theorem isListening_of_channel? (h : c.channel? id = some ch) : c.isListening id = ch.listening := by
  rw [isListening, h, Option.any_some]

theorem due_mono (c : Client) (id : UInt64) {fs gs : List Frame} (h : fs <+: gs) :
    c.due id fs <+: c.due id gs := by
  unfold due
  split
  · exact (List.prefix_append_right_inj _).2 (answering_mono id h)
  · exact List.prefix_rfl

theorem due_of_reading (hr : c.reader = .reading) (id : UInt64) (fs : List Frame) :
    c.due id fs = if c.isRouted id then answering id fs else [] := by
  rw [due, heldFor_of_reading hr, List.nil_append]

/-- **Taking a frame to its channel changes nothing in what is due**, to any call. -/
theorem due_route (hr : c.reader = .reading) (f : Frame) (i : UInt64) (fs : List Frame) :
    (c.route f).due i fs = c.due i (f :: fs) := by
  rw [due_of_reading hr]
  by_cases hid : f.callId = i
  · subst hid
    cases hroute : c.isRouted f.callId with
    | false =>
        have hsame : c.route f = c := by
          refine route_of_unrouted ?_
          intro ch hch
          rwa [isRouted_of_channel? hch] at hroute
        rw [hsame, due_of_reading hr, hroute]
        rfl
    | true =>
        obtain ⟨ch, hch, hrouted⟩ := (Option.any_eq_true _ _).1 hroute
        have hafter : (c.route f).channel? f.callId = some (ch.after f) := by
          rw [route_of_routed hch hrouted]
          exact channel?_modify_self hch fun ch => ch.id_after f
        have hheld : (c.route f).heldFor f.callId = [f] := by
          rw [route_of_routed hch hrouted]
          exact heldFor_own rfl rfl
        rw [due, hheld, isRouted_of_channel? hafter, answering, if_pos rfl, ReplyChannel.after]
        by_cases hk : f.kind = .status
        · simp [hk]
        · simp [hk, hrouted]
  · have hheld : (c.route f).heldFor i = [] := by
      rcases reader_route c f with h | h
      · exact heldFor_of_reading (h.trans hr)
      · exact heldFor_other h hid
    rw [due, hheld, isRouted, channel?_route_of_ne hid, answering, if_neg hid]
    rfl

theorem buffered_of_channel? (h : c.channel? id = some ch) : c.buffered id = ch.queue := by
  rw [buffered, h]
  rfl

/-- A change to one channel that leaves its number, and whether anybody takes its frames. -/
theorem isListening_modify (c : Client) {g : ReplyChannel → ReplyChannel}
    (hg : ∀ ch, (g ch).id = ch.id ∧ (g ch).listening = ch.listening) (id i : UInt64) :
    (c.modify id g).isListening i = c.isListening i := by
  rw [isListening, channel?_modify c id fun ch => (hg ch).1, isListening]
  split
  · cases c.channel? i with
    | none => rfl
    | some ch => exact (hg ch).2
  · rfl

theorem isRouted_modify (c : Client) {g : ReplyChannel → ReplyChannel}
    (hg : ∀ ch, (g ch).id = ch.id ∧ (g ch).routed = ch.routed) (id i : UInt64) :
    (c.modify id g).isRouted i = c.isRouted i := by
  rw [isRouted, channel?_modify c id fun ch => (hg ch).1, isRouted]
  split
  · cases c.channel? i with
    | none => rfl
    | some ch => exact (hg ch).2
  · rfl

theorem buffered_modify_of_ne (c : Client) {g : ReplyChannel → ReplyChannel}
    (hg : ∀ ch, (g ch).id = ch.id) (hi : i ≠ id) : (c.modify id g).buffered i = c.buffered i := by
  rw [buffered, channel?_modify_of_ne hg hi, buffered]

/-- A frame that is taken to its channel is not in it yet. -/
theorem route_spares (c : Client) (f : Frame) (i : UInt64) :
    (c.route f).isListening i = c.isListening i ∧ (c.route f).buffered i = c.buffered i := by
  cases hroute : c.isRouted f.callId with
  | false =>
      rw [route_of_unrouted]
      · exact ⟨rfl, rfl⟩
      · intro ch hch
        rwa [isRouted_of_channel? hch] at hroute
  | true =>
      obtain ⟨ch, hch, hrouted⟩ := (Option.any_eq_true _ _).1 hroute
      have hafter := channel?_modify_self hch (f := (·.after f)) fun ch => ch.id_after f
      rw [route_of_routed hch hrouted]
      refine ⟨c.isListening_modify (fun ch => ⟨ch.id_after f, ch.listening_after f⟩) _ i, ?_⟩
      by_cases hi : i = f.callId
      · subst hi
        rw [show ∀ d : Client, ({ d with reader := .delivering f } : Client).buffered f.callId =
          d.buffered f.callId from fun _ => rfl, buffered_of_channel? hafter,
          buffered_of_channel? hch, ReplyChannel.queue_after]
      · exact c.buffered_modify_of_ne (fun ch => ch.id_after f) hi

/-- **The reader gives up the frame that it holds**: to the channel of its call, or to nobody. What
is due to a call is then less by this frame. -/
theorem due_of_delivers {c' : Client} (h : c.Delivers c') (i : UInt64) (fs : List Frame) :
    c'.reader = .reading ∧ c'.unread = c.unread ∧ c'.isListening i = c.isListening i ∧
      c.due i fs = c.heldFor i ++ c'.due i fs ∧
      c'.buffered i = c.buffered i ++ if c.isListening i then c.heldFor i else [] := by
  cases h with
  | @put f ch hr hc hl hroom =>
      let g (ch : ReplyChannel) : ReplyChannel := { ch with queue := ch.queue ++ [f] }
      refine ⟨rfl, rfl, c.isListening_modify (g := g) (fun _ => ⟨rfl, rfl⟩) f.callId i, ?_, ?_⟩
      · refine Eq.trans ?_ (congrArg (c.heldFor i ++ ·) (due_of_reading rfl i fs).symm)
        rw [due, ← c.isRouted_modify (g := g) (fun _ => ⟨rfl, rfl⟩) f.callId i]
        rfl
      · by_cases hi : f.callId = i
        · subst hi
          have hafter := channel?_modify_self hc (f := g) fun _ => rfl
          rw [heldFor_own hr rfl, isListening_of_channel? hc, if_pos hl, buffered_of_channel? hc]
          exact buffered_of_channel? hafter
        · rw [heldFor_other hr hi, ite_self, List.append_nil]
          exact c.buffered_modify_of_ne (g := g) (fun _ => rfl) (Ne.symm hi)
  | @drop f hr hno =>
      refine ⟨rfl, rfl, rfl, ?_, ?_⟩
      · refine Eq.trans ?_ (congrArg (c.heldFor i ++ ·) (due_of_reading rfl i fs).symm)
        rfl
      · by_cases hi : f.callId = i
        · subst hi
          have hdeaf : c.isListening f.callId = false := by
            rw [Bool.eq_false_iff]
            intro hl
            obtain ⟨ch, hch, hlistening⟩ := (Option.any_eq_true _ _).1 hl
            cases hlistening.symm.trans (hno ch hch)
          rw [hdeaf, if_neg Bool.false_ne_true, List.append_nil]
          rfl
        · rw [heldFor_other hr hi, ite_self, List.append_nil]
          rfl

/-- The reader can give up the frame that it holds where there is room, or nobody to take it. -/
theorem exists_delivers (hr : c.reader = .delivering f)
    (hroom : c.isListening f.callId = true → (c.buffered f.callId).length < capacity) :
    ∃ c', c.deliver? = some c' ∧ c.Delivers c' := by
  have hsome : ∃ c', c.deliver? = some c' := by
    simp only [deliver?, hr]
    cases hc : c.channel? f.callId with
    | none => exact ⟨_, rfl⟩
    | some ch =>
        rw [isListening_of_channel? hc, buffered_of_channel? hc] at hroom
        dsimp only
        split
        · exact ⟨_, rfl⟩
        · next hl =>
          rw [if_pos (hroom (by simpa using hl))]
          exact ⟨_, rfl⟩
  obtain ⟨c', hc'⟩ := hsome
  exact ⟨c', hc', delivers_of_deliver? hc'⟩

/-! ### How far the reader gets -/

/-- The frames that have arrived and have not been read. -/
def wire (k : Checksum) (c : Client) : List Frame := (drain k c.unread).frames

/-- **The reader can get past some frames** without the consumers of other calls: the channels of
these have room for all that is due to them. -/
structure Passable (k : Checksum) (c : Client) (id : UInt64) (front : List Frame) : Prop where
  reader : c.reader ≠ .gone
  arrived : front <+: c.wire k
  room : ∀ i, i ≠ id → c.isListening i = true →
    (c.buffered i).length + (c.due i front).length ≤ capacity

variable {k : Checksum} {rest : Bytes} {front : List Frame}

theorem wire_of_frame (hd : decode k c.unread = .frame f rest) :
    c.wire k = f :: (drain k rest).frames := by
  rw [wire, drain_eq, hd]
  rfl

theorem exists_decode_of_wire {fs : List Frame} (h : f :: fs <+: c.wire k) :
    ∃ rest, decode k c.unread = .frame f rest := by
  cases hd : decode k c.unread with
  | frame g rest =>
      rw [wire_of_frame hd, List.cons_prefix_cons] at h
      exact ⟨rest, by rw [h.1]⟩
  | fault | more =>
      rw [wire, drain_eq, hd] at h
      cases List.prefix_nil.1 h

/-- **A frame that is read is one of those to get past.** -/
theorem passable_route_iff (hr : c.reader = .reading) (hd : decode k c.unread = .frame f rest) :
    (({ c with unread := rest } : Client).route f).Passable k id front ↔
      c.Passable k id (f :: front) := by
  have hreading : ({ c with unread := rest } : Client).reader = .reading := hr
  have hspares := route_spares { c with unread := rest } f
  have hwire : (({ c with unread := rest } : Client).route f).wire k = (drain k rest).frames := by
    rw [wire, (route_keeps _ f).1]
  have hnot : c.reader ≠ .gone := by
    rw [hr]
    intro hgone
    cases hgone
  have hthere : (({ c with unread := rest } : Client).route f).reader ≠ .gone :=
    (route_leaves _ f).2.2 hnot
  have harrived : f :: front <+: c.wire k ↔ front <+: (drain k rest).frames := by
    rw [wire_of_frame hd, List.prefix_cons_inj]
  have hroom : ∀ i, ((({ c with unread := rest } : Client).route f).buffered i).length +
      ((({ c with unread := rest } : Client).route f).due i front).length =
        (c.buffered i).length + (c.due i (f :: front)).length := by
    intro i
    rw [due_route hreading, (hspares i).2]
    rfl
  constructor
  · intro h
    refine ⟨hnot, harrived.2 (hwire ▸ h.arrived), ?_⟩
    intro i hi hl
    rw [← hroom]
    exact h.room i hi ((hspares i).1.trans hl)
  · intro h
    refine ⟨hthere, hwire ▸ harrived.1 h.arrived, ?_⟩
    intro i hi hl
    rw [hroom]
    exact h.room i hi ((hspares i).1.symm.trans hl)

/-- **A frame that the reader gives up was to be got past as well.** -/
theorem passable_iff_of_delivers {c' : Client} (h : c.Delivers c') :
    c'.Passable k id front ↔ c.Passable k id front := by
  have hthere : c.reader ≠ .gone := by
    cases h with
    | put hr | drop hr =>
        rw [hr]
        intro hgone
        cases hgone
  have hthere' : c'.reader ≠ .gone := by
    rw [(due_of_delivers h id front).1]
    intro hgone
    cases hgone
  have hwire : c'.wire k = c.wire k := by
    rw [wire, (due_of_delivers h id front).2.1, wire]
  have hroom : ∀ i, c.isListening i = true →
      (c'.buffered i).length + (c'.due i front).length =
        (c.buffered i).length + (c.due i front).length := by
    intro i hl
    obtain ⟨-, -, -, hdue, hbuffered⟩ := due_of_delivers h i front
    rw [hdue, hbuffered, if_pos hl, List.length_append, List.length_append, Nat.add_assoc]
  have hsame : ∀ i, c'.isListening i = c.isListening i :=
    fun i => (due_of_delivers h i front).2.2.1
  constructor
  · intro hp
    refine ⟨hthere, hwire ▸ hp.arrived, fun i hi hl => ?_⟩
    rw [← hroom i hl]
    exact hp.room i hi ((hsame i).trans hl)
  · intro hp
    refine ⟨hthere', hwire ▸ hp.arrived, fun i hi hl => ?_⟩
    rw [hsame] at hl
    rw [hroom i hl]
    exact hp.room i hi hl

/-- What is taken from a channel was not due any more. -/
theorem due_taken (c : Client) (queue fs : List Frame) (i : UInt64) :
    (c.modify id ({ · with queue })).due i fs = c.due i fs := by
  rw [due, c.isRouted_modify (g := ({ · with queue })) (by exact fun _ => ⟨rfl, rfl⟩) id, due]
  rfl

/-- Nobody else has to do with what the consumer of the call takes. -/
theorem passable_taken_iff (c : Client) (queue : List Frame) :
    (c.modify id ({ · with queue })).Passable k id front ↔ c.Passable k id front := by
  have hlistening := c.isListening_modify (g := ({ · with queue })) (by exact fun _ => ⟨rfl, rfl⟩) id
  have hothers : ∀ i, i ≠ id → (c.modify id ({ · with queue })).buffered i = c.buffered i :=
    fun i hi => c.buffered_modify_of_ne (by exact fun _ => rfl) hi
  constructor
  · intro h
    refine ⟨h.reader, h.arrived, fun i hi hl => ?_⟩
    rw [← hothers i hi, ← c.due_taken queue front i]
    exact h.room i hi ((hlistening i).trans hl)
  · intro h
    refine ⟨h.reader, h.arrived, fun i hi hl => ?_⟩
    rw [hothers i hi, c.due_taken queue front i]
    exact h.room i hi ((hlistening i).symm.trans hl)

/-- **No channel holds more than it has room for.** -/
def Bounded (c : Client) : Prop := ∀ id, (c.buffered id).length ≤ capacity

theorem Bounded.modify (h : c.Bounded) {g : ReplyChannel → ReplyChannel}
    (hg : ∀ ch, (g ch).id = ch.id)
    (hq : ∀ ch, c.channel? id = some ch → (g ch).queue.length ≤ capacity) :
    (c.modify id g).Bounded := by
  intro i
  by_cases hi : i = id
  · subst hi
    cases hc : c.channel? i with
    | none =>
        rw [buffered, channel?_modify c i hg, if_pos rfl, hc]
        exact Nat.zero_le _
    | some ch =>
        rw [buffered_of_channel? (channel?_modify_self hc hg)]
        exact hq ch hc
  · rw [c.buffered_modify_of_ne hg hi]
    exact h i

/-- The frame that the reader gives up finds room. -/
theorem Bounded.delivers {c' : Client} (h : c.Bounded) (hd : c.Delivers c') : c'.Bounded := by
  cases hd with
  | @put f ch hr hc hl hroom =>
      refine Bounded.modify (g := fun ch => { ch with queue := ch.queue ++ [f] }) h
        (fun _ => rfl) fun ch' hc' => ?_
      cases hc.symm.trans hc'
      rw [List.length_append]
      exact hroom
  | drop => exact h

/-- A reader that holds nothing has nothing to get past yet. -/
theorem Bounded.passable_nil (h : c.Bounded) (hr : c.reader = .reading) (k : Checksum)
    (id : UInt64) : c.Passable k id [] := by
  refine ⟨?_, List.nil_prefix, fun i _ _ => ?_⟩
  · rw [hr]
    intro hgone
    cases hgone
  · rw [due_of_reading hr, answering, ite_self]
    exact h i

theorem Bounded.register (h : c.Bounded) : c.register.2.Bounded := by
  intro i
  cases hc : c.channel? i with
  | some ch =>
      have hstays : c.register.2.channel? i = some ch := by
        show (c.channels ++ [_]).find? _ = _
        rw [List.find?_append, show c.channels.find? (·.id == i) = some ch from hc]
        rfl
      rw [buffered_of_channel? hstays, ← buffered_of_channel? hc]
      exact h i
  | none =>
      have hnew : c.register.2.buffered i = [] := by
        rw [buffered]
        show (((c.channels ++ [_]).find? _).map _).getD [] = []
        rw [List.find?_append, show c.channels.find? (·.id == i) = none from hc]
        by_cases hi : c.nextId = i
        · simp [hi]
        · simp [hi]
      rw [hnew]
      exact Nat.zero_le _

end Client

end DeviceGateway
