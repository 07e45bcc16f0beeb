import DeviceGateway.Proofs.Client.Callers

/-!
# Routing

The frames that answer a call are those with its number that are read after it was registered, up to
the first status (`Frame.answering`). Each of them has been taken from the receiver, waits in its
channel or is held by the reader, and the route is there until the status is read or the reader
leaves (`Account`). So a receiver yields exactly these frames, in the order in which they were read,
and then its end (`receivers_are_exact`).
-/

namespace DeviceGateway

/-! ## The frames that answer a call -/

namespace Frame

variable {id : UInt64} {f : Frame} {fs : List Frame}

/-- **The frames that answer a call**: those with its number, up to the first status. -/
def answering (id : UInt64) : List Frame → List Frame
  | [] => []
  | f :: fs =>
    if f.callId = id then if f.kind = .status then [f] else f :: answering id fs
    else answering id fs

/-- Whether the status of a call is among some frames. -/
def answered (id : UInt64) (fs : List Frame) : Bool :=
  fs.any fun f => decide (f.callId = id) && decide (f.kind = .status)

theorem answered_concat (id : UInt64) (fs : List Frame) (f : Frame) :
    answered id (fs ++ [f]) =
      (answered id fs || decide (f.callId = id) && decide (f.kind = .status)) := by
  simp only [answered, List.any_append, List.any_cons, List.any_nil, Bool.or_false]

theorem answered_concat_other (hf : f.callId ≠ id) : answered id (fs ++ [f]) = answered id fs := by
  rw [answered_concat, decide_eq_false hf, Bool.false_and, Bool.or_false]

theorem answering_concat_other (hf : f.callId ≠ id) :
    answering id (fs ++ [f]) = answering id fs := by
  induction fs with
  | nil => simp only [List.nil_append, answering, if_neg hf]
  | cons g fs ih => simp only [List.cons_append, answering, ih]

/-- Nothing answers a call after its status. -/
theorem answering_of_answered (h : answered id fs = true) (gs : List Frame) :
    answering id (fs ++ gs) = answering id fs := by
  induction fs with
  | nil => cases h
  | cons g fs ih =>
      rw [answered, List.any_cons, Bool.or_eq_true] at h
      simp only [List.cons_append, answering]
      by_cases hg : g.callId = id
      · by_cases hk : g.kind = .status
        · simp only [if_pos hg, if_pos hk]
        · simp only [if_pos hg, if_neg hk]
          rcases h with h | h
          · simp [hk] at h
          · rw [ih h]
      · simp only [if_neg hg]
        rcases h with h | h
        · simp [hg] at h
        · exact ih h

/-- **Until then every frame with its number does.** -/
theorem answering_concat (h : answered id fs = false) (hf : f.callId = id) :
    answering id (fs ++ [f]) = answering id fs ++ [f] := by
  induction fs with
  | nil =>
      simp only [List.nil_append, answering, if_pos hf]
      split <;> rfl
  | cons g fs ih =>
      rw [answered, List.any_cons, Bool.or_eq_false_iff] at h
      simp only [List.cons_append, answering]
      by_cases hg : g.callId = id
      · by_cases hk : g.kind = .status
        · simp [hg, hk] at h
        · simp only [if_pos hg, if_neg hk, List.cons_append]
          rw [ih h.2]
      · simp only [if_neg hg]
        exact ih h.2

end Frame

/-! ## What the reader holds for a call -/

namespace Client

variable {c : Client} {id : UInt64} {f : Frame}

/-- The frame that the reader holds, if it is one of a call. -/
def heldFor (c : Client) (id : UInt64) : List Frame := c.held.filter (·.callId = id)

theorem heldFor_of_reading (h : c.reader = .reading) : c.heldFor id = [] := by
  rw [heldFor, held_of_reading h, List.filter_nil]

theorem heldFor_own (h : c.reader = .delivering f) (hf : f.callId = id) : c.heldFor id = [f] := by
  rw [heldFor, held_of_delivering h, List.filter_cons_of_pos (by simpa using hf), List.filter_nil]

theorem heldFor_other (h : c.reader = .delivering f) (hf : f.callId ≠ id) : c.heldFor id = [] := by
  rw [heldFor, held_of_delivering h, List.filter_cons_of_neg (by simpa using hf), List.filter_nil]

theorem heldFor_of_gone (h : c.reader = .gone) : c.heldFor id = [] := by
  simp only [heldFor, held, h, List.filter_nil]

theorem heldFor_eq_nil_iff : c.heldFor id = [] ↔ c.isDelivering id = false := by
  unfold heldFor held isDelivering
  cases c.reader with
  | delivering f => simp
  | _ => simp

end Client

namespace Callers

open DeviceGateway.Frame

variable {k : Checksum} {s t u : Callers} {m : Move} {ms before after : List Move} {id : UInt64}
  {left : Prop} {read taken : List Frame} {ends : Nat} {ch : ReplyChannel}

/-- What a receiver has yielded: the frames that were taken, and after them its end. -/
def given (taken : List Frame) (ends : Nat) : List (Option Frame) :=
  taken.map some ++ List.replicate ends none

/-! ## The account of a call -/

/-- **Where the frames are that answer a call**, and whether there is a route for more: `taken` was
taken from the receiver, which has shown its end so many times. Whether the reader had left before
the call was started is what `left` says. -/
structure Account (id : UInt64) (left : Prop) (read taken : List Frame) (ends : Nat)
    (ch : ReplyChannel) (s : Callers) : Prop where
  channel : s.client.channel? id = some ch
  routed : ch.routed = true ↔ answered id read = false ∧ (s.client.reader = .gone → left)
  whole : ch.listening = true → taken ++ (ch.queue ++ s.client.heldFor id) = answering id read
  part : taken <+: answering id read
  ended : 0 < ends → taken = answering id read ∧ ch.routed = false
  gone : left → s.client.reader = .gone

namespace Account

/-- What leaves the channel and the reader alone changes nothing. -/
theorem of_same (h : Account id left read taken ends ch s)
    (hc : t.client.channel? id = s.client.channel? id) (hr : t.client.reader = s.client.reader) :
    Account id left read taken ends ch t := by
  have hheld : t.client.heldFor id = s.client.heldFor id := by
    simp only [Client.heldFor, Client.held, hr]
  refine ⟨hc.trans h.channel, ?_, ?_, h.part, h.ended, ?_⟩
  · rw [hr]
    exact h.routed
  · rw [hheld]
    exact h.whole
  · rw [hr]
    exact h.gone

/-- Nobody wants the frames any more. -/
theorem unlisten (h : Account id left read taken ends ch s)
    (hc : t.client.channel? id = some { ch with listening := false, queue := [] })
    (hr : t.client.reader = s.client.reader) :
    Account id left read taken ends { ch with listening := false, queue := [] } t := by
  refine ⟨hc, ?_, ?_, h.part, h.ended, ?_⟩
  · rw [hr]
    exact h.routed
  · intro hl
    cases hl
  · rw [hr]
    exact h.gone

/-- **A frame is taken** from the receiver. -/
theorem take {f : Frame} {rest : List Frame} (h : Account id left read taken ends ch s)
    (hl : ch.listening = true) (hq : ch.queue = f :: rest) :
    ends = 0 ∧ Account id left read (taken ++ [f]) ends { ch with queue := rest }
      { s with client := s.client.modify id ({ · with queue := rest }) } := by
  have hwhole := h.whole hl
  rw [hq] at hwhole
  have hnone : ends = 0 := by
    -- After the end there would be nothing to take.
    rcases Nat.eq_zero_or_pos ends with hzero | hpos
    · exact hzero
    · rw [← (h.ended hpos).1] at hwhole
      have := congrArg List.length hwhole
      simp only [List.length_append, List.length_cons] at this
      omega
  have hall : taken ++ [f] ++ (rest ++ s.client.heldFor id) = answering id read := by
    rw [← hwhole, List.append_assoc]
    rfl
  refine ⟨hnone, Client.channel?_modify_self h.channel (by exact fun _ => rfl), h.routed, ?_, ?_, ?_,
    h.gone⟩
  · intro _
    exact hall
  · exact ⟨_, hall⟩
  · intro hpos
    rw [hnone] at hpos
    cases hpos

/-- **The receiver shows its end** only when everything was taken. -/
theorem learn (h : Account id left read taken ends ch s) (hl : ch.listening = true)
    (hq : ch.queue = []) (hr : ch.routed = false) (hd : s.client.isDelivering id = false) :
    Account id left read taken (ends + 1) ch s := by
  have hwhole := h.whole hl
  rw [hq, Client.heldFor_eq_nil_iff.2 hd, List.append_nil, List.append_nil] at hwhole
  exact ⟨h.channel, h.routed, h.whole, h.part, fun _ => ⟨hwhole, hr⟩, h.gone⟩

/-! ### The reader -/

/-- As long as the reader is there, the route is there until the status is read. -/
theorem present (h : Account id left read taken ends ch s) (hr : s.client.reader ≠ .gone) :
    ¬ left ∧ (ch.routed = true ↔ answered id read = false) := by
  refine ⟨fun hleft => hr (h.gone hleft), ?_⟩
  rw [h.routed]
  simp [hr]

theorem of_present (hpresent : ¬ left) (hc : t.client.channel? id = some ch)
    (hr : t.client.reader ≠ .gone) (hrouted : ch.routed = true ↔ answered id read = false)
    (hwhole : ch.listening = true → taken ++ (ch.queue ++ t.client.heldFor id) = answering id read)
    (hpart : taken <+: answering id read)
    (hended : 0 < ends → taken = answering id read ∧ ch.routed = false) :
    Account id left read taken ends ch t := by
  refine ⟨hc, ?_, hwhole, hpart, hended, fun hleft => absurd hleft hpresent⟩
  rw [hrouted]
  simp [hr]

/-- **The reader reads a frame of the call**: while there is a route, it is held for the channel. -/
theorem hear_own {f : Frame} {c : Client} (h : Account id left read taken ends ch s)
    (hr : s.client.reader = .reading) (hc : c.channel? id = some ch) (hid : f.callId = id)
    (hroute : ch.routed = true) :
    Account id left (read ++ [f]) taken ends (ch.after f) { s with client := c.route f } := by
  obtain ⟨hpresent, hrouted⟩ := h.present (by simp [hr])
  have hopen := hrouted.1 hroute
  have hafter := Client.channel?_modify_self hc fun ch => ch.id_after f
  have hstill : ends = 0 := by
    rcases Nat.eq_zero_or_pos ends with hzero | hpos
    · exact hzero
    · cases hroute.symm.trans (h.ended hpos).2
  rw [Client.route_of_routed (hid ▸ hc) hroute, hid]
  refine of_present hpresent hafter (fun hgone => by cases hgone) ?_ ?_ ?_ ?_
  · rw [answered_concat, hopen, decide_eq_true hid]
    unfold ReplyChannel.after
    split
    · next hk => simp [hk]
    · next hk => simp [hk, hroute]
  · intro hl
    rw [ReplyChannel.listening_after] at hl
    have hwhole := h.whole hl
    rw [Client.heldFor_of_reading hr, List.append_nil] at hwhole
    rw [Client.heldFor_own rfl hid, ReplyChannel.queue_after, answering_concat hopen hid, ← hwhole,
      List.append_assoc]
  · rw [answering_concat hopen hid]
    exact h.part.trans (List.prefix_append _ _)
  · intro hpos
    rw [hstill] at hpos
    cases hpos

/-- **A frame of the call after its status is dropped.** -/
theorem hear_late {f : Frame} {c : Client} (h : Account id left read taken ends ch s)
    (hr : s.client.reader = .reading) (hc : c.channel? id = some ch) (hcr : c.reader = .reading)
    (hid : f.callId = id) (hroute : ch.routed = false) :
    answered id read = true ∧ c.route f = c ∧
      Account id left (read ++ [f]) taken ends ch { s with client := c } := by
  obtain ⟨hpresent, hrouted⟩ := h.present (by simp [hr])
  have hover : answered id read = true := by
    cases hcase : answered id read with
    | true => rfl
    | false => cases hroute.symm.trans (hrouted.2 hcase)
  have hsame : c.route f = c := by
    refine Client.route_of_unrouted ?_
    intro ch' hch'
    rw [hid, hc] at hch'
    cases hch'
    exact hroute
  refine ⟨hover, hsame, of_present hpresent hc (by simp [hcr]) ?_ ?_ ?_ ?_⟩
  · rw [answered_concat, hover, hroute]
    simp
  · intro hl
    rw [answering_of_answered hover, Client.heldFor_of_reading hcr, ← Client.heldFor_of_reading hr]
    exact h.whole hl
  · rw [answering_of_answered hover]
    exact h.part
  · rw [answering_of_answered hover]
    exact h.ended

/-- A frame of another call leaves the account as it is. -/
theorem hear_other {f : Frame} {c : Client} (h : Account id left read taken ends ch s)
    (hr : s.client.reader = .reading) (hc : c.channel? id = some ch) (hcr : c.reader = .reading)
    (hid : f.callId ≠ id) :
    Account id left (read ++ [f]) taken ends ch { s with client := c.route f } := by
  obtain ⟨hpresent, hrouted⟩ := h.present (by simp [hr])
  have hreader : (c.route f).reader = .reading ∨ (c.route f).reader = .delivering f :=
    hcr ▸ Client.reader_route c f
  have hnone : (c.route f).heldFor id = [] := by
    rcases hreader with h | h
    · exact Client.heldFor_of_reading h
    · exact Client.heldFor_other h hid
  have hthere : (c.route f).reader ≠ .gone := by
    intro hgone
    rcases hreader with h | h <;> cases h.symm.trans hgone
  refine of_present hpresent ((Client.channel?_route_of_ne hid).trans hc) hthere ?_ ?_ ?_ ?_
  · rw [answered_concat_other hid, hrouted]
  · intro hl
    rw [answering_concat_other hid, hnone, ← Client.heldFor_of_reading hr]
    exact h.whole hl
  · rw [answering_concat_other hid]
    exact h.part
  · rw [answering_concat_other hid]
    exact h.ended

theorem hear {f : Frame} {c : Client} (h : Account id left read taken ends ch s)
    (hr : s.client.reader = .reading) (hc : c.channel? id = some ch) (hcr : c.reader = .reading) :
    ∃ ch', Account id left (read ++ [f]) taken ends ch' { s with client := c.route f } := by
  by_cases hid : f.callId = id
  · cases hroute : ch.routed with
    | true => exact ⟨_, h.hear_own hr hc hid hroute⟩
    | false =>
        obtain ⟨-, hsame, hlate⟩ := h.hear_late hr hc hcr hid hroute
        rw [hsame]
        exact ⟨ch, hlate⟩
  · exact ⟨ch, h.hear_other hr hc hcr hid⟩

/-- **The reader leaves.** -/
theorem leave {c : Client} (h : Account id left read taken ends ch s)
    (hr : s.client.reader = .reading) (hc : c.channel? id = some ch) :
    Account id left read taken ends { ch with routed := false } { s with client := c.leave } := by
  have hpresent := (h.present (by simp [hr])).1
  refine ⟨?_, ?_, ?_, h.part, fun hpos => ⟨(h.ended hpos).1, rfl⟩, fun _ => rfl⟩
  · rw [Client.channel?_leave, hc]
    rfl
  · simp [hpresent, Client.leave]
  · intro hl
    rw [Client.heldFor_of_gone rfl, ← Client.heldFor_of_reading hr]
    exact h.whole hl

/-- **The frame that the reader holds goes into its channel.** -/
theorem deliver {f : Frame} (h : Account id left read taken ends ch s)
    (hr : s.client.reader = .delivering f) :
    ∃ ch', Account id left read taken ends ch'
      { s with client :=
        { s.client.modify f.callId fun ch => { ch with queue := ch.queue ++ [f] } with
          reader := .reading } } := by
  obtain ⟨hpresent, hrouted⟩ := h.present (by simp [hr])
  by_cases hid : f.callId = id
  · have hafter := Client.channel?_modify_self h.channel
      (f := fun ch => { ch with queue := ch.queue ++ [f] }) fun _ => rfl
    rw [hid]
    refine ⟨_, of_present hpresent hafter (fun hgone => by cases hgone) hrouted ?_ h.part h.ended⟩
    intro hl
    have hwhole := h.whole hl
    rw [Client.heldFor_own hr hid] at hwhole
    rw [Client.heldFor_of_reading rfl, List.append_nil]
    exact hwhole
  · have hother := (Client.channel?_modify_of_ne (c := s.client)
      (f := fun ch => { ch with queue := ch.queue ++ [f] }) (fun _ => rfl) (Ne.symm hid)).trans
      h.channel
    refine ⟨ch, of_present hpresent hother (fun hgone => by cases hgone) hrouted ?_ h.part h.ended⟩
    rw [Client.heldFor_of_reading rfl, ← Client.heldFor_other hr hid]
    exact h.whole

/-- The frame that the reader holds is dropped, for nobody wants it. -/
theorem discard {f : Frame} (h : Account id left read taken ends ch s)
    (hr : s.client.reader = .delivering f)
    (hno : ∀ ch, s.client.channel? f.callId = some ch → ch.listening = false) :
    Account id left read taken ends ch { s with client := { s.client with reader := .reading } } := by
  obtain ⟨hpresent, hrouted⟩ := h.present (by simp [hr])
  refine of_present hpresent h.channel (fun hgone => by cases hgone) hrouted ?_ h.part h.ended
  intro hl
  by_cases hid : f.callId = id
  · cases hl.symm.trans (hno ch (hid ▸ h.channel))
  · rw [Client.heldFor_of_reading rfl, ← Client.heldFor_other hr hid]
    exact h.whole hl

/-! ### Any step -/

/-- **What a step adds to the account.** -/
def Grows (id : UInt64) (left : Prop) (k : Checksum) (read taken : List Frame) (ends : Nat)
    (s : Callers) (m : Move) (t : Callers) : Prop :=
  ∃ taken' ends' ch', given taken ends ++ s.yields id m = given taken' ends' ∧
    Account id left (read ++ s.reads k m) taken' ends' ch' t

/-- Nothing is read, and the receiver yields nothing. -/
theorem grows_of_quiet (hy : s.yields id m = []) (hr : s.reads k m = [])
    (h : Account id left read taken ends ch t) : Grows id left k read taken ends s m t := by
  refine ⟨taken, ends, ch, ?_, ?_⟩
  · rw [hy, List.append_nil]
  · rw [hr, List.append_nil]
    exact h

/-- The receiver yields nothing. -/
theorem grows_of_read {f : Frame} (hy : s.yields id m = []) (hr : s.reads k m = [f])
    (h : ∃ ch', Account id left (read ++ [f]) taken ends ch' t) :
    Grows id left k read taken ends s m t := by
  obtain ⟨ch', h⟩ := h
  refine ⟨taken, ends, ch', ?_, ?_⟩
  · rw [hy, List.append_nil]
  · rw [hr]
    exact h

theorem unlisten_any (h : Account id left read taken ends ch s) (i : UInt64)
    (opening : List (UInt64 × CallRequest)) :
    ∃ ch', Account id left read taken ends ch' { s with client := s.client.unlisten i, opening } := by
  by_cases hi : i = id
  · subst hi
    exact ⟨_, h.unlisten (Client.channel?_unlisten_self h.channel) rfl⟩
  · exact ⟨ch, h.of_same (Client.channel?_unlisten_of_ne (Ne.symm hi)) rfl⟩

/-- **A receiver is asked for the next frame.** -/
theorem grows_take {i : UInt64} (h : Account id left read taken ends ch s)
    (hstep : Step k s (.take i) t) : Grows id left k read taken ends s (.take i) t := by
  have listens : ∀ {ch' : ReplyChannel}, s.isOpen i = true → s.client.channel? i = some ch' →
      ch'.listening = true := by
    intro ch' ho hc
    obtain ⟨ch'', hc', hl⟩ := exists_of_isOpen ho
    cases hc.symm.trans hc'
    exact hl
  have hread : s.reads k (.take i) = [] := rfl
  by_cases hi : i = id
  · subst hi
    cases hstep with
    | @take _ ch' f rest ho hc hq =>
        have hl := listens ho hc
        cases hc.symm.trans h.channel
        obtain ⟨hnone, hafter⟩ := h.take hl hq
        refine ⟨taken ++ [f], ends, { ch with queue := rest }, ?_, ?_⟩
        · simp only [yields, receive?_of_queue hc hq, hnone, given, if_true, Option.map_some,
            Option.toList_some, List.replicate_zero, List.append_nil, List.map_append,
            List.map_cons, List.map_nil]
        · rw [hread, List.append_nil]
          exact hafter
    | @learn _ ch' ho hc hq hr hd =>
        have hl := listens ho hc
        cases hc.symm.trans h.channel
        have hend : s.client.receive? i = some (none, s.client) := by
          simp only [Client.receive?, hc, hq, hr, hd, Bool.or_self, Bool.false_eq_true, if_false]
        refine ⟨taken, ends + 1, ch, ?_, ?_⟩
        · simp only [yields, hend, given, if_true, Option.map_some, Option.toList_some,
            List.replicate_succ', List.append_assoc]
        · rw [hread, List.append_nil]
          exact h.learn hl hq hr hd
  · have hquiet : s.yields id (.take i) = [] := by simp only [yields, if_neg hi]
    cases hstep with
    | take =>
        refine grows_of_quiet hquiet rfl (h.of_same ?_ rfl)
        exact Client.channel?_modify_of_ne (by exact fun _ => rfl) (Ne.symm hi)
    | learn => exact grows_of_quiet hquiet rfl h

/-- **Every step keeps the account.** -/
theorem step (h : Account id left read taken ends ch s) (hstep : Step k s m t) :
    Grows id left k read taken ends s m t := by
  cases hstep with
  | start =>
      refine grows_of_quiet rfl rfl (h.of_same ?_ rfl)
      show (s.client.channels ++ [_]).find? _ = _
      rw [List.find?_append, show s.client.channels.find? (·.id == id) = some ch from h.channel,
        h.channel]
      rfl
  | giveUp | drop =>
      obtain ⟨ch', hafter⟩ := h.unlisten_any _ (s.openingBut _)
      exact grows_of_quiet rfl rfl hafter
  | take ho hc hq => exact h.grows_take (.take ho hc hq)
  | learn ho hc hq hr hd => exact h.grows_take (.learn ho hc hq hr hd)
  | @hear f rest hr hd =>
      have hread : s.reads k .read = [f] := by simp only [reads, hd]
      exact grows_of_read rfl hread (h.hear hr h.channel hr)
  | leave hr hd =>
      have hread : s.reads k .read = [] := by
        cases hf : Frame.decode k s.client.unread with
        | frame f rest => exact absurd hf (hd f rest)
        | fault | more => simp only [reads, hf]
      exact grows_of_quiet rfl hread (h.leave hr h.channel)
  | deliver hr hc hl hroom =>
      obtain ⟨ch', hafter⟩ := h.deliver hr
      exact grows_of_quiet rfl rfl hafter
  | discard hr hno => exact grows_of_quiet rfl rfl (h.discard hr hno)
  | _ => exact grows_of_quiet rfl rfl (h.of_same rfl rfl)

/-- **Every run keeps the account.** -/
theorem run (h : Account id left read taken ends ch s) (hrun : s.run? k ms = some t) :
    ∃ taken' ends' ch', given taken ends ++ s.yielded k id ms = given taken' ends' ∧
      Account id left (read ++ s.framesRead k ms) taken' ends' ch' t := by
  induction ms generalizing s read taken ends ch with
  | nil =>
      cases hrun
      refine ⟨taken, ends, ch, ?_, ?_⟩
      · rw [yielded, along, List.append_nil]
      · rw [framesRead, along, List.append_nil]
        exact h
  | cons m ms ih =>
      obtain ⟨u, hm, hrest⟩ := Option.bind_eq_some_iff.1 hrun
      obtain ⟨taken₁, ends₁, ch₁, hgiven₁, h₁⟩ := h.step (step_of_step? hm)
      obtain ⟨taken₂, ends₂, ch₂, hgiven₂, h₂⟩ := ih h₁ hrest
      refine ⟨taken₂, ends₂, ch₂, ?_, ?_⟩
      · rw [yielded, along_cons _ hm, ← List.append_assoc, hgiven₁]
        exact hgiven₂
      · rw [framesRead, along_cons _ hm, ← List.append_assoc]
        exact h₂

/-! ### When nothing can be handed over -/

/-- **There is no route** when the status was read, or the reader has left since. -/
theorem routed_eq_false_iff (h : Account id left read taken ends ch s) :
    ch.routed = false ↔ answered id read = true ∨ ¬ left ∧ s.client.reader = .gone := by
  rw [← Bool.not_eq_true, h.routed, not_and_or, Bool.not_eq_false, Classical.not_imp]
  exact or_congr Iff.rfl and_comm

/-- **The receiver that somebody has was given everything.** -/
theorem complete (h : Account id left read taken ends ch s) (ho : s.isOpen id = true)
    (hrest : s.AtRest) :
    taken = answering id read ∧ ch.queue = [] ∧ s.client.isDelivering id = false := by
  obtain ⟨ch', hc, hl⟩ := exists_of_isOpen ho
  cases hc.symm.trans h.channel
  have hq : ch.queue = [] := by
    cases hq : ch.queue with
    | nil => rfl
    | cons f rest => exact absurd (receive?_of_queue hc hq) (hrest.2 id f _ ho)
  have hd : s.client.isDelivering id = false := by
    cases hr : s.client.reader with
    | reading | gone => simp only [Client.isDelivering, hr]
    | delivering f =>
        -- There would be room for the frame.
        refine eq_false_of_ne_true fun hdel => ?_
        simp only [Client.isDelivering, hr, beq_iff_eq] at hdel
        obtain ⟨ch', hc', -, hfull⟩ := full_of_deliver? hr hrest.1
        rw [hdel, hc] at hc'
        cases hc'
        rw [hq] at hfull
        cases hfull
  have hwhole := h.whole hl
  rw [hq, Client.heldFor_eq_nil_iff.2 hd, List.append_nil, List.append_nil] at hwhole
  exact ⟨hwhole, hq, hd⟩

end Account

/-! ## What receivers yield -/

/-- **Whether a call is over**, some steps after its start: its status was read, or the reader has
left. -/
def IsOver (k : Checksum) (id : UInt64) (t : Callers) (after : List Move) (u : Callers) : Prop :=
  answered id (t.framesRead k after) = true ∨ t.client.reader ≠ .gone ∧ u.client.reader = .gone

/-- **The receiver of a call is exact**: what it yields, some steps after the start of the call. -/
structure IsExact (k : Checksum) (id : UInt64) (t : Callers) (after : List Move) (u : Callers) :
    Prop where
  /-- When the route is registered, nothing was queued that opens the call. -/
  registered : ∀ f ∈ t.client.outbox.queue ++ t.written, f.kind = .call → f.callId ≠ id
  /-- The receiver has yielded frames that answer the call, in the order in which they were read, and
  its end only after all of them. -/
  yielded : ∃ taken ends, t.yielded k id after = given taken ends ∧
    taken <+: answering id (t.framesRead k after) ∧
    (0 < ends → taken = answering id (t.framesRead k after) ∧ IsOver k id t after u)
  /-- A frame of an unknown call, or of this one when its status was read, reaches nobody. -/
  dropped : ∀ f rest, u.client.reader = .reading →
    Frame.decode k u.client.unread = .frame f rest →
    (f.callId ∉ u.client.ids ∨ f.callId = id ∧ answered id (t.framesRead k after) = true) →
    u.step? k .read = some { u with client := { u.client with unread := rest } }
  /-- When nothing can be handed over, the receiver has yielded every frame that answers the call. It
  shows its end then if the call is over, and has to wait if it is not. -/
  complete : u.isOpen id = true → u.AtRest →
    (∃ ends, t.yielded k id after = given (answering id (t.framesRead k after)) ends) ∧
    (IsOver k id t after u → u.client.receive? id = some (none, u.client)) ∧
    (¬ IsOver k id t after u → u.client.receive? id = none)
  /-- It takes only handing over until nothing can be handed over, and then the reader holds nothing,
  unless a call is being opened. -/
  progress : ∃ more v, (∀ m ∈ more, m.handsOver = true) ∧ u.run? k more = some v ∧ v.AtRest ∧
    t.framesRead k (after ++ more) = t.framesRead k after ∧ v.isOpen = u.isOpen ∧
    (u.opening = [] → v.client.held = [])

/-- The account of a call that has just been started. -/
theorem Account.of_start (hs : s.Registered) (hfresh : s.client.nextId ∉ s.client.ids)
    (r : CallRequest) :
    Account s.client.nextId (s.client.reader = .gone) [] [] 0 ⟨s.client.nextId, [], true, true⟩
      (s.start r) := by
  have hnone : s.client.channel? s.client.nextId = none := by
    cases hc : s.client.channel? s.client.nextId with
    | none => rfl
    | some ch => exact absurd (Client.mem_ids_of_channel? hc) hfresh
  have hheld : (s.start r).client.heldFor s.client.nextId = [] := by
    refine List.filter_eq_nil_iff.2 ?_
    intro f hf hid
    refine hfresh ?_
    rw [← of_decide_eq_true hid]
    exact hs.held f hf
  refine ⟨?_, ?_, ?_, List.prefix_rfl, ?_, fun hleft => hleft⟩
  · show s.client.register.2.channel? _ = _
    rw [Client.channel?_register hnone, if_pos rfl]
  · refine ⟨fun _ => ⟨rfl, fun hgone => hgone⟩, fun _ => rfl⟩
  · intro _
    rw [hheld]
    rfl
  · intro hpos
    cases hpos

/-- **Receivers are exact**: whatever the callers, the reader and the writer of a client do before
and after the start of a call, in any order. -/
theorem receivers_are_exact {r : CallRequest} (hbefore : Callers.new.run? k before = some s)
    (hstart : s.step? k (.start r) = some t) (hafter : t.run? k after = some u)
    (hfew : u.client.channels.length < UInt64.size) : IsExact k s.client.nextId t after u := by
  have hs := Registered.new.run hbefore
  have ht := hs.step (step_of_step? hstart)
  have hu := ht.run hafter
  have hidsu := hu.nodup hfew
  cases hstart
  have hfresh := hs.next_not_mem r (Nat.lt_of_le_of_lt (run_length_le hafter) hfew)
  obtain ⟨taken, ends, ch, hgiven, h⟩ := (Account.of_start hs hfresh r).run hafter
  rw [List.nil_append] at h
  refine ⟨?_, ⟨taken, ends, hgiven, h.part, ?_⟩, ?_, ?_, ?_⟩
  · intro f hf hk hid
    exact hfresh (hid ▸ hs.sent f hf hk)
  · intro hpos
    obtain ⟨hall, hroute⟩ := h.ended hpos
    exact ⟨hall, h.routed_eq_false_iff.1 hroute⟩
  · intro f rest hr hd hnobody
    have hsame : ({ u.client with unread := rest } : Client).route f =
        { u.client with unread := rest } := by
      rcases hnobody with hunknown | ⟨hid, hover⟩
      · refine Client.route_of_unrouted ?_
        intro ch' hch'
        exact absurd (Client.mem_ids_of_channel? hch') hunknown
      · refine Client.route_of_unrouted ?_
        intro ch' hch'
        cases (hid ▸ h.channel : u.client.channel? f.callId = some ch).symm.trans hch'
        exact h.routed_eq_false_iff.2 (.inl hover)
    have hread : u.client.read? k = some (({ u.client with unread := rest } : Client).route f) := by
      simp only [Client.read?, hr, hd]
    rw [step?, hread, hsame]
    rfl
  · intro ho hrest
    obtain ⟨hall, hq, hd⟩ := h.complete ho hrest
    refine ⟨⟨ends, ?_⟩, ?_, ?_⟩
    · rw [← hall]
      exact hgiven
    · intro hover
      have hroute := h.routed_eq_false_iff.2 hover
      simp only [Client.receive?, h.channel, hq, hroute, hd, Bool.or_self, Bool.false_eq_true,
        if_false]
    · intro hover
      have hroute := eq_true_of_ne_false fun hroute => hover (h.routed_eq_false_iff.1 hroute)
      simp only [Client.receive?, h.channel, hq, hroute, Bool.true_or, if_true]
  · -- What the reader holds is handed over without reading another frame.
    obtain ⟨more, v, hmore, hrun, hrest⟩ := exists_rest k hidsu
    obtain ⟨hopen, hopening, hread⟩ := run_keeps_of_handsOver hrun hmore
    refine ⟨more, v, hmore, hrun, hrest, ?_, hopen, ?_⟩
    · have happend : framesRead k (s.start r) (after ++ more) =
          framesRead k (s.start r) after ++ framesRead k u more := along_append _ hafter
      rw [happend, hread, List.append_nil]
    · intro hnone
      exact hrest.held (hopening.trans hnone)

/-- One call that is answered with a message and a status. The server sends another message behind
them, and one of a call that nobody has started. -/
def oneCallAnswered (k : Checksum) : List Move :=
  let message (id : UInt64) : Frame := ⟨.message, id, [], Nat.zero_le _⟩
  let status : Frame := ⟨.status, 1, [], Nat.zero_le _⟩
  [.request 1, .write, .arrive ([message 1, message 2, status, message 1].flatMap (·.toBytes k)),
    .read, .deliver, .read, .read, .take 1, .deliver, .read, .take 1, .take 1]

/-- Its receiver yields the message, the status, and its end. -/
theorem one_call_is_answered :
    ∃ k s t u, Callers.new.run? k [] = some s ∧ s.step? k (.start ⟨"device", "ping", []⟩) = some t ∧
      t.run? k (oneCallAnswered k) = some u ∧ u.client.channels.length < UInt64.size ∧
      (t.yielded k 1 (oneCallAnswered k)).map (·.map (·.kind)) =
        [some .message, some .status, none] ∧
      IsExact k 1 t (oneCallAnswered k) u := by
  refine ⟨⟨fun _ => 0, rfl⟩, _, _, _, rfl, rfl, rfl, by decide, rfl, ?_⟩
  have hbefore : Callers.new.run? ⟨fun _ => 0, rfl⟩ [] = some Callers.new := rfl
  exact receivers_are_exact hbefore rfl rfl (by decide)

end Callers

end DeviceGateway
