import Mathlib.Data.List.Nodup
import DeviceGateway.Proofs.Client.Steps

/-!
# After the reader has left

A reader that leaves takes away the routes that are there. A call that was begun before gets what is
buffered for it and then its end (`Ends`), with an error unless its status is among that. But
nobody looks at the reader when a call is begun: a call that is begun later has a route that nobody
uses and nobody takes away, and once its frames are queued it waits for ever (`WaitsForEver`).
So a client whose reader has left is rid of its routes if and only if no call was begun since
(`calls_since_the_reader_left`).
-/

namespace DeviceGateway

/-! ## Numbers and channels -/

/-- What is known by a number that nothing else has is found under it. -/
theorem find?_of_mem_of_nodup {α : Type} {key : α → UInt64} {l : List α} (hl : (l.map key).Nodup)
    {a : α} (ha : a ∈ l) : l.find? (key · == key a) = some a := by
  obtain ⟨b, hb⟩ : ∃ b, l.find? (key · == key a) = some b :=
    Option.isSome_iff_exists.1 (List.find?_isSome.2 ⟨a, ha, beq_self_eq_true _⟩)
  have hkey : key b = key a := eq_of_beq (List.find?_some (p := (key · == key a)) hb)
  rwa [List.inj_on_of_nodup_map hl (List.mem_of_find?_eq_some hb) ha hkey] at hb

namespace Client

variable {c : Client} {id : UInt64} {ch : ReplyChannel}

/-- The frames that are buffered for a call. -/
def buffered (c : Client) (id : UInt64) : List Frame := ((c.channel? id).map (·.queue)).getD []

/-- The numbers of the channels, in the order in which they were taken. -/
def ids (c : Client) : List UInt64 := c.channels.map (·.id)

theorem ids_modify (c : Client) (id : UInt64) {f : ReplyChannel → ReplyChannel}
    (hf : ∀ ch, (f ch).id = ch.id) : (c.modify id f).ids = c.ids := by
  rw [ids, ids, modify, List.map_map]
  refine List.map_congr_left fun ch _ => ?_
  rw [Function.comp_apply]
  split
  · exact hf ch
  · rfl

theorem ids_unlisten (c : Client) (id : UInt64) : (c.unlisten id).ids = c.ids := by
  refine ids_modify c id ?_
  exact fun _ => rfl

theorem ids_route (c : Client) (f : Frame) : (c.route f).ids = c.ids := by
  unfold route
  split
  · rfl
  · split
    · dsimp only
      split
      · exact ids_modify c f.callId (f := ({ · with routed := false })) fun _ => rfl
      · rfl
    · rfl

theorem ids_leave (c : Client) : c.leave.ids = c.ids := by
  rw [ids, ids, leave, List.map_map]
  rfl

/-- A channel is found under its number, if no other has it. -/
theorem channel?_of_mem (hids : c.ids.Nodup) (h : ch ∈ c.channels) : c.channel? ch.id = some ch :=
  find?_of_mem_of_nodup hids h

end Client

namespace Exchange

variable {x x' : Exchange} {c c' : Client}

theorem Step.ids (h : x.Step c x' c') : c'.ids = c.ids ∧ c'.nextId = c.nextId := by
  cases h with
  | pass | queue => exact ⟨rfl, rfl⟩
  | giveUp | cut => exact ⟨Client.ids_unlisten c x.id, rfl⟩
  | take => exact ⟨Client.ids_modify c x.id (by exact fun _ => rfl), rfl⟩
  | finish =>
      exact ⟨(Client.ids_unlisten _ x.id).trans
        (Client.ids_modify c x.id (by exact fun _ => rfl)), rfl⟩

/-- Whether a change to a channel keeps its route, and buffers nothing where nothing is. -/
def Spares (g : ReplyChannel → ReplyChannel) (ch : ReplyChannel) : Prop :=
  (g ch).routed = ch.routed ∧ (ch.queue = [] → (g ch).queue = [])

theorem spares_at {g : ReplyChannel → ReplyChannel} {ch : ReplyChannel} {id : UInt64}
    (h : ch.id = id → Spares g ch) : Spares (fun ch => if ch.id = id then g ch else ch) ch := by
  by_cases hid : ch.id = id
  · simp only [Spares, if_pos hid]
    exact h hid
  · simp only [Spares, if_neg hid]
    exact ⟨trivial, fun h => h⟩

/-- **What a step of an exchange does to channels**: routes stay as they are, and where nothing is
buffered nothing comes. -/
theorem Step.channels (h : x.Step c x' c') (hids : c.ids.Nodup) :
    ∃ g : ReplyChannel → ReplyChannel, c'.channels = c.channels.map g ∧
      ∀ ch ∈ c.channels, Spares g ch := by
  have same : ∃ g : ReplyChannel → ReplyChannel, c.channels = c.channels.map g ∧
      ∀ ch ∈ c.channels, Spares g ch :=
    ⟨fun ch => ch, (List.map_id' _).symm, fun _ _ => ⟨rfl, fun h => h⟩⟩
  have unlistened : ∀ c : Client, ∃ g : ReplyChannel → ReplyChannel,
      (c.unlisten x.id).channels = c.channels.map g ∧ ∀ ch, Spares g ch :=
    fun c => ⟨_, rfl, fun ch => spares_at fun _ => ⟨rfl, fun _ => rfl⟩⟩
  cases h with
  | pass => exact same
  | queue => exact same
  | giveUp =>
      obtain ⟨g, hg, hspares⟩ := unlistened c
      exact ⟨g, hg, fun ch _ => hspares ch⟩
  | cut =>
      obtain ⟨g, hg, hspares⟩ := unlistened c
      exact ⟨g, hg, fun ch _ => hspares ch⟩
  | @take own f rest hs hc hq =>
      refine ⟨_, rfl, fun ch hch => spares_at fun hid => ⟨rfl, fun hempty => ?_⟩⟩
      have hown := Client.channel?_of_mem hids hch
      rw [hid, hc] at hown
      cases hown
      rw [hq] at hempty
      cases hempty
  | finish =>
      refine ⟨_, List.map_map, fun ch _ => ?_⟩
      unfold Spares
      rw [Function.comp_apply]
      by_cases hid : ch.id = x.id
      · simp only [hid, if_true]
        exact ⟨trivial, fun _ => trivial⟩
      · simp only [if_neg hid]
        exact ⟨trivial, fun h => h⟩

end Exchange

namespace Exchanges

variable {k : Checksum} {s s' : Exchanges} {m : Move} {ms : List Move} {n : Nat} {x : Exchange}
  {id : UInt64}

/-- The numbers of the first calls. -/
def numbers (n : Nat) : List UInt64 := (List.range n).map fun i => UInt64.ofNat (i + 1)

theorem numbers_succ (n : Nat) : numbers (n + 1) = numbers n ++ [UInt64.ofNat (n + 1)] := by
  rw [numbers, List.range_succ, List.map_append]
  rfl

/-- No number is taken twice as long as there are enough of them. -/
theorem nodup_numbers (hn : n < UInt64.size) : (numbers n).Nodup := by
  refine List.nodup_range.map_on fun i hi j hj heq => ?_
  rw [List.mem_range] at hi hj
  have := congrArg UInt64.toNat heq
  rw [UInt64.toNat_ofNat_of_lt' (by omega), UInt64.toNat_ofNat_of_lt' (by omega)] at this
  omega

/-- **Exchanges and channels side by side**: both are numbered in the order in which the calls were
begun. -/
structure Numbered (s : Exchanges) : Prop where
  next : s.client.nextId = UInt64.ofNat (s.exchanges.length + 1)
  exchanges : s.exchanges.map (·.id) = numbers s.exchanges.length
  channels : s.client.ids = numbers s.exchanges.length

namespace Numbered

theorem new : Exchanges.new.Numbered := ⟨rfl, rfl, rfl⟩

theorem begin (h : s.Numbered) (kind : ExchangeKind)
    (script : UInt64 → List (Except FrameFault Frame)) : (s.begin kind script).Numbered := by
  have hlen : (s.begin kind script).exchanges.length = s.exchanges.length + 1 :=
    List.length_append
  refine ⟨?_, ?_, ?_⟩
  · show s.client.nextId + 1 = _
    rw [h.next, hlen, ← UInt64.ofNat_one, ← UInt64.ofNat_add]
  · rw [hlen, numbers_succ, ← h.next, ← h.exchanges]
    exact List.map_append
  · rw [hlen, numbers_succ, ← h.next, ← h.channels]
    exact List.map_append

/-- What does not touch numbers keeps them. -/
theorem of_same (h : s.Numbered) (hn : s'.client.nextId = s.client.nextId)
    (hx : s'.exchanges.map (·.id) = s.exchanges.map (·.id)) (hc : s'.client.ids = s.client.ids) :
    s'.Numbered := by
  have hlen : s'.exchanges.length = s.exchanges.length := by
    rw [← List.length_map (f := (·.id)), hx, List.length_map]
  exact ⟨by rw [hn, hlen, h.next], by rw [hx, hlen, h.exchanges], by rw [hc, hlen, h.channels]⟩

theorem step (h : s.Numbered) (hstep : Step k s m s') : s'.Numbered := by
  cases hstep with
  | request => exact h.begin _ _
  | upload => exact h.begin _ _
  | @exchange x x' client hx hstep =>
      have hids : ∀ y : Exchange, (if y.id = x'.id then x' else y).id = y.id := by
        intro y
        split
        · next hy => exact hy.symm
        · rfl
      refine h.of_same hstep.ids.2 ?_ hstep.ids.1
      rw [replace, List.map_map]
      exact List.map_congr_left fun y _ => hids y
  | @hear f rest =>
      exact h.of_same (Client.route_leaves _ f).1 rfl (Client.ids_route _ f)
  | fault => exact h.of_same rfl rfl (Client.ids_leave _)
  | ending => exact h.of_same rfl rfl (Client.ids_leave _)
  | @deliver f =>
      exact h.of_same rfl rfl
        (Client.ids_modify _ _ (f := fun ch => { ch with queue := ch.queue ++ [f] }) fun _ => rfl)
  | drop => exact h.of_same rfl rfl rfl
  | write => exact h.of_same rfl rfl rfl
  | failWriting => exact h.of_same rfl rfl rfl
  | arrive => exact h.of_same rfl rfl rfl
  | hangUp => exact h.of_same rfl rfl rfl

theorem nodup (h : s.Numbered) (hfew : s.exchanges.length < UInt64.size) : s.client.ids.Nodup :=
  h.channels ▸ nodup_numbers hfew

end Numbered

/-! ## When the reader leaves -/

/-- The reader is gone after a step only if it was gone before, or it has just read the end. -/
theorem Step.leaves (h : Step k s m s') (hr : s.client.reader ≠ .gone)
    (hr' : s'.client.reader = .gone) : m = .read ∧ s'.client.routes = [] := by
  have unrouted : ∀ c : Client, c.leave.routes = [] := by
    intro c
    rw [Client.routes, Client.leave, List.map_eq_nil_iff, List.filter_eq_nil_iff]
    intro ch hch
    obtain ⟨_, -, rfl⟩ := List.mem_map.1 hch
    exact Bool.false_ne_true
  cases h with
  | fault => exact ⟨rfl, unrouted _⟩
  | ending => exact ⟨rfl, unrouted _⟩
  | hear => exact absurd hr' ((Client.route_leaves _ _).2.2 hr)
  | exchange _ hstep => exact absurd (hstep.others.2 ▸ hr') hr
  | deliver => cases hr'
  | drop => cases hr'
  | _ => exact absurd hr' hr

/-- **Where a run stands when the reader leaves**: it reads the end, and no route is left. -/
theorem exists_departure (hrun : s.run? k ms = some s') (hr : s.client.reader ≠ .gone)
    (hr' : s'.client.reader = .gone) :
    ∃ before after left, ms = before ++ .read :: after ∧
      s.run? k (before ++ [.read]) = some left ∧ left.client.reader = .gone ∧
      left.client.routes = [] ∧ left.run? k after = some s' := by
  induction ms generalizing s with
  | nil =>
      cases hrun
      exact absurd hr' hr
  | cons m ms ih =>
      obtain ⟨t, hstep, hrest⟩ := Option.bind_eq_some_iff.1 hrun
      by_cases ht : t.client.reader = .gone
      · obtain ⟨rfl, hroutes⟩ := (step_of_step? hstep).leaves hr ht
        refine ⟨[], ms, t, rfl, ?_, ht, hroutes, hrest⟩
        rw [List.nil_append, run?, hstep]
        rfl
      · obtain ⟨before, after, left, rfl, hleft, hgone, hroutes, hafter⟩ := ih hrest ht
        refine ⟨m :: before, after, left, rfl, ?_, hgone, hroutes, hafter⟩
        rw [List.cons_append, run?, hstep]
        exact hleft

/-- **A client whose reader left when so many calls had been begun**: their routes are gone, and
those of later calls are there, with nothing buffered. -/
structure LeftAt (n : Nat) (s : Exchanges) : Prop where
  gone : s.client.reader = .gone
  begun : n ≤ s.exchanges.length
  early : ∀ ch ∈ s.client.channels.take n, ch.routed = false
  late : ∀ ch ∈ s.client.channels.drop n, ch.routed = true ∧ ch.queue = []

namespace LeftAt

/-- The reader has just left. -/
theorem of_routes (hs : s.Numbered) (hgone : s.client.reader = .gone)
    (hroutes : s.client.routes = []) : s.LeftAt s.exchanges.length := by
  have hlen : s.client.channels.length = s.exchanges.length := by
    rw [← List.length_map (f := ReplyChannel.id), ← List.length_map (f := Exchange.id),
      hs.exchanges, ← hs.channels]
    rfl
  refine ⟨hgone, Nat.le_refl _, fun ch hch => ?_, fun ch hch => ?_⟩
  · rw [Client.routes, List.map_eq_nil_iff, List.filter_eq_nil_iff] at hroutes
    exact eq_false_of_ne_true (hroutes ch (List.mem_of_mem_take hch))
  · rw [← hlen, List.drop_length] at hch
    exact absurd hch List.not_mem_nil

theorem of_same (h : s.LeftAt n) (hr : s'.client.reader = s.client.reader)
    (hx : s'.exchanges = s.exchanges) (hc : s'.client.channels = s.client.channels) :
    s'.LeftAt n :=
  ⟨hr ▸ h.gone, hx ▸ h.begun, hc ▸ h.early, hc ▸ h.late⟩

/-- **A call that is begun has a route**, though there is no reader. -/
theorem begin (h : s.LeftAt n) (hs : s.Numbered) (kind : ExchangeKind)
    (script : UInt64 → List (Except FrameFault Frame)) : (s.begin kind script).LeftAt n := by
  have hlen : n ≤ s.client.channels.length := by
    rw [← List.length_map (f := ReplyChannel.id)]
    show n ≤ s.client.ids.length
    rw [hs.channels, ← hs.exchanges, List.length_map]
    exact h.begun
  have hchannels : (s.begin kind script).client.channels =
      s.client.channels ++ [⟨s.client.nextId, [], true, true⟩] := rfl
  refine ⟨h.gone, ?_, ?_, ?_⟩
  · show n ≤ (s.exchanges ++ [_]).length
    rw [List.length_append]
    exact Nat.le_add_right_of_le h.begun
  · rw [hchannels, List.take_append_of_le_length hlen]
    exact h.early
  · rw [hchannels, List.drop_append_of_le_length hlen]
    intro ch hch
    rcases List.mem_append.1 hch with hch | hch
    · exact h.late ch hch
    · rw [List.mem_singleton.1 hch]
      exact ⟨rfl, rfl⟩

theorem step (h : s.LeftAt n) (hs : s.Numbered) (hfew : s.exchanges.length < UInt64.size)
    (hstep : Step k s m s') : s'.LeftAt n := by
  have nobody : ∀ {stage : ReaderStage}, s.client.reader = stage → stage = .gone :=
    fun hr => hr.symm.trans h.gone
  cases hstep with
  | request => exact h.begin hs _ _
  | upload => exact h.begin hs _ _
  | @exchange x x' client hx hstep =>
      obtain ⟨g, hg, hspares⟩ := hstep.channels (hs.nodup hfew)
      refine ⟨hstep.others.2.trans h.gone, ?_, fun ch hch => ?_, fun ch hch => ?_⟩
      · exact Nat.le_trans h.begun (Nat.le_of_eq (List.length_map _).symm)
      · replace hch : ch ∈ client.channels.take n := hch
        rw [hg, ← List.map_take] at hch
        obtain ⟨old, hold, rfl⟩ := List.mem_map.1 hch
        exact (hspares old (List.mem_of_mem_take hold)).1.trans (h.early old hold)
      · replace hch : ch ∈ client.channels.drop n := hch
        rw [hg, ← List.map_drop] at hch
        obtain ⟨old, hold, rfl⟩ := List.mem_map.1 hch
        obtain ⟨hrouted, hqueue⟩ := h.late old hold
        have hspare := hspares old (List.mem_of_mem_drop hold)
        exact ⟨hspare.1.trans hrouted, hspare.2 hqueue⟩
  | hear hr => cases nobody hr
  | fault hr => cases nobody hr
  | ending hr => cases nobody hr
  | deliver hr => cases nobody hr
  | drop hr => cases nobody hr
  | write => exact h.of_same rfl rfl rfl
  | failWriting => exact h.of_same rfl rfl rfl
  | arrive => exact h.of_same rfl rfl rfl
  | hangUp => exact h.of_same rfl rfl rfl

/-- **The routes that are left are those of the calls begun since.** -/
theorem routes (h : s.LeftAt n) (hs : s.Numbered) :
    s.client.routes = (s.exchanges.drop n).map (·.id) := by
  have hearly : (s.client.channels.take n).filter (·.routed) = [] :=
    List.filter_eq_nil_iff.2 fun ch hch => by
      rw [h.early ch hch]
      exact Bool.false_ne_true
  have hlate : (s.client.channels.drop n).filter (·.routed) = s.client.channels.drop n :=
    List.filter_eq_self.2 fun ch hch => (h.late ch hch).1
  have hsplit : s.client.channels.filter (·.routed) = s.client.channels.drop n := by
    conv_lhs => rw [← List.take_append_drop n s.client.channels]
    rw [List.filter_append, hearly, hlate, List.nil_append]
  rw [Client.routes, hsplit, List.map_drop, List.map_drop, hs.exchanges, ← hs.channels]
  rfl

end LeftAt

theorem run_length_le (hrun : s.run? k ms = some s') : s.exchanges.length ≤ s'.exchanges.length :=
  run?_induction (P := fun t => s.exchanges.length ≤ t.exchanges.length)
    (fun h hstep => Nat.le_trans h hstep.length_le) (Nat.le_refl _) hrun

theorem Numbered.run (h : s.Numbered) (hrun : s.run? k ms = some s') : s'.Numbered :=
  run?_induction (fun h hstep => h.step hstep) h hrun

/-- What the reader left behind stays, whatever goes on without it. -/
theorem LeftAt.run (h : s.LeftAt n) (hs : s.Numbered) (hrun : s.run? k ms = some s')
    (hfew : s'.exchanges.length < UInt64.size) : s'.LeftAt n := by
  induction ms generalizing s with
  | nil =>
      cases hrun
      exact h
  | cons m ms ih =>
      obtain ⟨t, hstep, hrest⟩ := Option.bind_eq_some_iff.1 hrun
      have hstep := step_of_step? hstep
      have hbound := Nat.le_trans hstep.length_le (run_length_le hrest)
      exact ih (h.step hs (Nat.lt_of_le_of_lt hbound hfew) hstep) (hs.step hstep) hrest

end Exchanges

/-! ## Calls that come to an end -/

namespace Answer

/-- **The answer is an error** to whoever waits for it: for the one reply, among the items of a
stream, and for a transfer. -/
structure Fails (a : Answer) : Prop where
  reply : ∃ e, a.reply = .error e
  items : ∃ e, a.items = a.messages.map .ok ++ [.error e]
  transfer : ∃ e, a.transfer = .error e

theorem fails_of_result {a : Answer} {e : GatewayError} (h : a.ending.result = .error e) :
    a.Fails := by
  refine ⟨⟨e, ?_⟩, ⟨e, ?_⟩, ?_⟩
  · simp only [reply, h]
  · simp only [items, h]
  · simp only [transfer, h]
    split
    · next fault _ => exact ⟨fault.toError, rfl⟩
    · exact ⟨e, rfl⟩

/-- **Without a status an answer is an error.** -/
theorem fails_of_no_status {fs : List Frame} (h : ∀ f ∈ fs, f.kind ≠ .status) :
    (ofFrames fs).Fails := by
  have hending : ∃ e, (ofFrames fs).ending.result = .error e := by
    induction fs with
    | nil => exact ⟨_, rfl⟩
    | cons f fs ih =>
        have hf := h f List.mem_cons_self
        obtain ⟨e, he⟩ := ih fun g hg => h g (List.mem_cons_of_mem _ hg)
        unfold ofFrames
        cases hk : f.kind with
        | message => exact ⟨e, he⟩
        | status => exact absurd hk hf
        | call => exact ⟨_, rfl⟩
        | halfClose => exact ⟨_, rfl⟩
        | cancel => exact ⟨_, rfl⟩
  obtain ⟨e, he⟩ := hending
  exact fails_of_result he

end Answer

namespace Exchanges

variable {k : Checksum} {s s' : Exchanges} {m : Move} {ms : List Move} {n : Nat} {x : Exchange}
  {id : UInt64}

/-- **An exchange comes to its end**: it takes what is buffered for it, and is over one step after
that at the latest. Without a status among its frames it ends with an error. -/
def Ends (k : Checksum) (s : Exchanges) (x : Exchange) : Prop :=
  ∃ n s' x' a, n ≤ (s.client.buffered x.id).length + 1 ∧
    s.run? k (List.replicate n (.step x.id)) = some s' ∧ s'.exchange? x.id = some x' ∧
    x'.answer? = some (.ok a) ∧
    ((∀ f ∈ x.received ++ s.client.buffered x.id, f.kind ≠ .status) → a.Fails)

/-- **An exchange waits for ever**: nothing that can happen changes it or lets it take a step. -/
def WaitsForEver (k : Checksum) (s : Exchanges) (x : Exchange) : Prop :=
  ∀ ms s', s.run? k ms = some s' → s'.exchange? x.id = some x ∧ s'.act? x.id = none

/-- **An exchange gives up** at its next step, with an error. -/
def GivesUp (s : Exchanges) (x : Exchange) : Prop :=
  ∃ s' x' e, s.act? x.id = some s' ∧ s'.exchange? x.id = some x' ∧ x'.answer? = some (.error e)

/-- **The step of an exchange**, as a step of the client. -/
theorem act_of_step? {x' : Exchange} {client : Client} (hx : s.exchange? x.id = some x)
    (h : x.step? s.client = some (x', client)) :
    s.act? x.id = some (s.replace x' client) ∧
      (s.replace x' client).exchange? x.id = some x' := by
  have hid := (Exchange.step_of_step? h).same.1
  refine ⟨?_, ?_⟩
  · rw [act?, show s.exchanges.find? (·.id == x.id) = some x from hx]
    simp only [h, Option.map_some, replace, hid]
  · rw [exchange?_replace (hid ▸ hx), if_pos hid.symm]

theorem step?_of_reading {c : Client} (hs : x.stage = .reading) : x.step? c = x.takeNext? c := by
  simp only [Exchange.step?, hs]

/-- An exchange whose channel has no route takes what is buffered, or the first part of it. -/
theorem exists_end {q : List Frame} {ch : ReplyChannel} (hx : s.exchange? x.id = some x)
    (hs : x.stage = .reading) (hc : s.client.channel? x.id = some ch) (hq : ch.queue = q)
    (hrouted : ch.routed = false) (hgone : s.client.reader = .gone) :
    ∃ n s' x' taken, n ≤ q.length + 1 ∧ s.run? k (List.replicate n (.step x.id)) = some s' ∧
      s'.exchange? x.id = some x' ∧ x'.stage = .finished none ∧
      x'.received = x.received ++ taken ∧ taken <+: q := by
  induction q generalizing s x ch with
  | nil =>
      have hidle : s.client.isDelivering x.id = false := by simp only [Client.isDelivering, hgone]
      have hnothing : s.client.receive? x.id = some (none, s.client) := by
        simp only [Client.receive?, hc, hq, hrouted, hidle, Bool.or_self, Bool.false_eq_true,
          if_false]
      have hstep : x.step? s.client = some (x.close none s.client) := by
        simp only [step?_of_reading hs, Exchange.takeNext?, hnothing]
      obtain ⟨hact, hover⟩ := act_of_step? hx hstep
      refine ⟨1, _, _, [], Nat.le_refl _, ?_, hover, rfl, (List.append_nil _).symm, List.prefix_rfl⟩
      rw [List.replicate_one, run?, step?, hact]
      rfl
  | cons f rest ih =>
      let next : Exchange := { x with received := x.received ++ [f] }
      let client := s.client.modify x.id fun ch => { ch with queue := rest }
      have hread : s.client.receive? x.id = some (some f, client) := by
        simp only [Client.receive?, hc, hq, client]
      have hstep : x.step? s.client =
          some (if next.isSatisfied then next.close none client else (next, client)) := by
        simp only [step?_of_reading hs, Exchange.takeNext?, hread, next]
      by_cases hdone : next.isSatisfied = true
      · rw [if_pos hdone] at hstep
        obtain ⟨hact, hover⟩ := act_of_step? hx hstep
        refine ⟨1, _, _, [f], by omega, ?_, hover, rfl, rfl, ⟨rest, rfl⟩⟩
        rw [List.replicate_one, run?, step?, hact]
        rfl
      · rw [if_neg hdone] at hstep
        obtain ⟨hact, hnext⟩ := act_of_step? hx hstep
        have hchannel : (s.replace next client).client.channel? next.id =
            some { ch with queue := rest } :=
          Client.channel?_modify_self hc (by exact fun _ => rfl)
        obtain ⟨n, s', x', taken, hn, hrun, hx', hend, hreceived, htaken⟩ :=
          ih (x := next) hnext hs hchannel rfl hrouted hgone
        refine ⟨n + 1, s', x', f :: taken, ?_, ?_, hx', hend, ?_, ?_⟩
        · rw [List.length_cons]
          omega
        · rw [List.replicate_succ, run?, step?, hact]
          exact hrun
        · rw [hreceived, List.append_assoc]
          rfl
        · exact List.cons_prefix_cons.2 ⟨rfl, htaken⟩

theorem ends_of_unrouted {ch : ReplyChannel} (hx : s.exchange? x.id = some x)
    (hs : x.stage = .reading) (hc : s.client.channel? x.id = some ch) (hrouted : ch.routed = false)
    (hgone : s.client.reader = .gone) : s.Ends k x := by
  have hbuffered : s.client.buffered x.id = ch.queue := by simp only [Client.buffered, hc]; rfl
  obtain ⟨n, s', x', taken, hn, hrun, hx', hend, hreceived, htaken⟩ :=
    exists_end (k := k) hx hs hc rfl hrouted hgone
  refine ⟨n, s', x', .ofFrames x'.received, hbuffered ▸ hn, hrun, hx', ?_, fun hno => ?_⟩
  · simp only [Exchange.answer?, hend]
  · refine Answer.fails_of_no_status fun f hf => hno f ?_
    rw [hreceived, List.mem_append] at hf
    rw [hbuffered, List.mem_append]
    exact hf.imp_right fun hf => htaken.subset hf

/-! ## Calls that wait for ever -/

/-- **An exchange for which nothing comes any more**, though its channel has a route. -/
structure Stranded (s : Exchanges) (x : Exchange) : Prop where
  gone : s.client.reader = .gone
  exchange : s.exchange? x.id = some x
  reading : x.stage = .reading
  channel : ∃ ch, s.client.channel? x.id = some ch ∧ ch.routed = true ∧ ch.queue = []

namespace Stranded

/-- Nothing that leaves the exchange and its channel alone helps. -/
theorem of_same (h : s.Stranded x) (hr : s'.client.reader = s.client.reader)
    (hx : s'.exchange? x.id = s.exchange? x.id)
    (hc : s'.client.channel? x.id = s.client.channel? x.id) : s'.Stranded x :=
  ⟨hr ▸ h.gone, hx ▸ h.exchange, h.reading, hc ▸ h.channel⟩

theorem begin (h : s.Stranded x) (kind : ExchangeKind)
    (script : UInt64 → List (Except FrameFault Frame)) : (s.begin kind script).Stranded x := by
  obtain ⟨ch, hc, hch⟩ := h.channel
  refine h.of_same rfl ?_ ?_
  · show (s.exchanges ++ [_]).find? _ = _
    rw [List.find?_append, show s.exchanges.find? (·.id == x.id) = some x from h.exchange,
      h.exchange]
    rfl
  · show (s.client.channels ++ [_]).find? _ = _
    rw [List.find?_append, show s.client.channels.find? (·.id == x.id) = some ch from hc, hc]
    rfl

/-- **It cannot take a step itself.** -/
theorem no_step (h : s.Stranded x) {x' : Exchange} {c' : Client} : ¬ x.Step s.client x' c' := by
  obtain ⟨ch, hc, hrouted, hqueue⟩ := h.channel
  intro hstep
  cases hstep with
  | pass hs => cases hs.symm.trans h.reading
  | queue hs => cases hs.symm.trans h.reading
  | giveUp hs => cases hs.symm.trans h.reading
  | take hs hc' hq =>
      cases hc.symm.trans hc'
      cases hqueue.symm.trans hq
  | finish hs hc' hq =>
      cases hc.symm.trans hc'
      cases hqueue.symm.trans hq
  | cut hs hnone => cases hrouted.symm.trans (hnone ch hc).2.1

theorem act?_eq_none (h : s.Stranded x) : s.act? x.id = none := by
  rw [act?, show s.exchanges.find? (·.id == x.id) = some x from h.exchange]
  dsimp only
  cases hstep : x.step? s.client with
  | none => rfl
  | some r => exact absurd (Exchange.step_of_step? hstep) h.no_step

/-- **Nothing that can happen helps it.** -/
theorem step (h : s.Stranded x) (hstep : Step k s m s') : s'.Stranded x := by
  have nobody : ∀ {stage : ReaderStage}, s.client.reader = stage → stage = .gone :=
    fun hr => hr.symm.trans h.gone
  cases hstep with
  | request => exact h.begin _ _
  | upload => exact h.begin _ _
  | @exchange y y' client hy hstep =>
      by_cases hid : x.id = y.id
      · rw [← hid, h.exchange] at hy
        cases hy
        exact absurd hstep h.no_step
      · have hy' : s.exchange? y'.id = some y := hstep.same.1 ▸ hy
        refine h.of_same hstep.others.2 ?_ (hstep.others.1 x.id hid)
        rw [exchange?_replace hy', if_neg (hstep.same.1 ▸ hid)]
  | hear hr => cases nobody hr
  | fault hr => cases nobody hr
  | ending hr => cases nobody hr
  | deliver hr => cases nobody hr
  | drop hr => cases nobody hr
  | write => exact h.of_same rfl rfl rfl
  | failWriting => exact h.of_same rfl rfl rfl
  | arrive => exact h.of_same rfl rfl rfl
  | hangUp => exact h.of_same rfl rfl rfl

theorem waitsForEver (h : s.Stranded x) : s.WaitsForEver k x := by
  intro ms s' hrun
  have h' : s'.Stranded x :=
    run?_induction (P := fun t => t.Stranded x) (fun h hstep => h.step hstep) h hrun
  exact ⟨h'.exchange, h'.act?_eq_none⟩

end Stranded

/-- Without a writer no frame can be queued. -/
theorem givesUp_of_closed {f : Except FrameFault Frame} {rest : List (Except FrameFault Frame)}
    (hx : s.exchange? x.id = some x) (hs : x.stage = .queuing (f :: rest))
    (hclosed : s.client.outbox.isOpen = false) : s.GivesUp x := by
  have hstep : ∃ e, x.step? s.client = some (x.close (some e) s.client) := by
    cases f with
    | error fault =>
        exact ⟨fault.toError, by simp only [Exchange.step?, hs, Exchange.queueNext?, Client.queue?]⟩
    | ok f =>
        refine ⟨.channelClosed, ?_⟩
        simp only [Exchange.step?, hs, Exchange.queueNext?, Client.queue?, Outbox.put?, hclosed,
          Bool.not_false, if_true]
  obtain ⟨e, hstep⟩ := hstep
  obtain ⟨hact, hover⟩ := act_of_step? hx hstep
  exact ⟨_, _, e, hact, hover, rfl⟩

/-! ## The calls of a client whose reader has left -/

/-- **A run whose reader has left**, and the client as the reader left it. -/
structure ReaderLeft (k : Checksum) (ms : List Move) (left s : Exchanges) : Prop where
  departure : ∃ before after, ms = before ++ .read :: after ∧
    Exchanges.new.run? k (before ++ [.read]) = some left ∧ left.run? k after = some s
  gone : left.client.reader = .gone
  unrouted : left.client.routes = []
  /-- The routes that are there are those of the calls begun since. -/
  routes : s.client.routes = (s.exchanges.drop left.exchanges.length).map (·.id)
  /-- The receiver of a call begun before has a frame or the end. -/
  closed : ∀ x ∈ s.exchanges.take left.exchanges.length, (s.client.receive? x.id).isSome = true
  ends : ∀ x ∈ s.exchanges.take left.exchanges.length, x.stage = .reading → s.Ends k x
  /-- The receiver of a call begun since has to wait. -/
  silent : ∀ x ∈ s.exchanges.drop left.exchanges.length, s.client.receive? x.id = none
  waits : ∀ x ∈ s.exchanges.drop left.exchanges.length, x.stage = .reading → s.WaitsForEver k x
  givesUp : ∀ x ∈ s.exchanges, ∀ f rest, x.stage = .queuing (f :: rest) →
    s.client.outbox.isOpen = false → s.GivesUp x

theorem Numbered.exchange?_of_mem (h : s.Numbered) (hfew : s.exchanges.length < UInt64.size)
    (hx : x ∈ s.exchanges) : s.exchange? x.id = some x :=
  find?_of_mem_of_nodup (h.exchanges ▸ nodup_numbers hfew) hx

/-- **What becomes of calls when the reader has left.** A call begun before comes to its end, and a
call begun since waits for ever as soon as its frames are queued: its route is never taken away. -/
theorem calls_since_the_reader_left (hrun : Exchanges.new.run? k ms = some s)
    (hgone : s.client.reader = .gone) (hfew : s.exchanges.length < UInt64.size) :
    ∃ left, ReaderLeft k ms left s := by
  obtain ⟨before, after, left, hms, hleft, hleftgone, hunrouted, hafter⟩ :=
    exists_departure hrun (by decide) hgone
  have hnumbered := Numbered.new.run hleft
  have hs := hnumbered.run hafter
  have hat := (LeftAt.of_routes hnumbered hleftgone hunrouted).run hnumbered hafter hfew
  have hidle : ∀ id, s.client.isDelivering id = false := fun id => by
    simp only [Client.isDelivering, hgone]
  have hsame : s.exchanges.map (·.id) = s.client.ids := hs.exchanges.trans hs.channels.symm
  have hfind : ∀ ch ∈ s.client.channels, s.client.channel? ch.id = some ch :=
    fun ch => Client.channel?_of_mem (hs.nodup hfew)
  -- Exchanges and channels have their numbers in the same order, so each finds its own.
  have hearly : ∀ x ∈ s.exchanges.take left.exchanges.length,
      ∃ ch, s.client.channel? x.id = some ch ∧ ch.routed = false := by
    intro x hx
    have hid := List.mem_map_of_mem (f := (·.id)) hx
    rw [List.map_take, hsame, Client.ids, ← List.map_take] at hid
    obtain ⟨ch, hch, hid⟩ := List.mem_map.1 hid
    exact ⟨ch, hid ▸ hfind ch (List.mem_of_mem_take hch), hat.early ch hch⟩
  have hlate : ∀ x ∈ s.exchanges.drop left.exchanges.length,
      ∃ ch, s.client.channel? x.id = some ch ∧ ch.routed = true ∧ ch.queue = [] := by
    intro x hx
    have hid := List.mem_map_of_mem (f := (·.id)) hx
    rw [List.map_drop, hsame, Client.ids, ← List.map_drop] at hid
    obtain ⟨ch, hch, hid⟩ := List.mem_map.1 hid
    exact ⟨ch, hid ▸ hfind ch (List.mem_of_mem_drop hch), hat.late ch hch⟩
  refine ⟨left, ⟨before, after, hms, hleft, hafter⟩, hleftgone, hunrouted, hat.routes hs, ?_, ?_, ?_,
    ?_, ?_⟩
  · intro x hx
    obtain ⟨ch, hc, hrouted⟩ := hearly x hx
    simp only [Client.receive?, hc, hrouted, hidle, Bool.or_self, Bool.false_eq_true, if_false]
    split <;> rfl
  · intro x hx hreading
    obtain ⟨ch, hc, hrouted⟩ := hearly x hx
    have hfound := hs.exchange?_of_mem hfew (List.mem_of_mem_take hx)
    exact ends_of_unrouted hfound hreading hc hrouted hgone
  · intro x hx
    obtain ⟨ch, hc, hrouted, hqueue⟩ := hlate x hx
    simp only [Client.receive?, hc, hqueue, hrouted, Bool.true_or, if_true]
  · intro x hx hreading
    have hfound := hs.exchange?_of_mem hfew (List.mem_of_mem_drop hx)
    exact Stranded.waitsForEver ⟨hgone, hfound, hreading, hlate x hx⟩
  · intro x hx f rest hqueuing hclosed
    exact givesUp_of_closed (hs.exchange?_of_mem hfew hx) hqueuing hclosed

/-- One request before the server hangs up, and one after. -/
def requestsAroundTheEnd : List Move :=
  let ping : CallRequest := ⟨"device", "ping", []⟩
  [.request .reply ping, .step 1, .step 1, .hangUp, .read, .request .reply ping, .step 2, .step 2]

/-- The first of two requests fails, and the second one is without an end. -/
theorem two_requests_around_the_end :
    ∃ s, Exchanges.new.run? .standard requestsAroundTheEnd = some s ∧ s.client.reader = .gone ∧
      s.exchanges.length < UInt64.size ∧ ∃ left, ReaderLeft .standard requestsAroundTheEnd left s :=
  ⟨_, rfl, rfl, by decide, calls_since_the_reader_left rfl rfl (by decide)⟩

/-- **A call after the end has a route that nobody takes away**, and waits for ever: the server has
sent octets that are no frame, the first request has failed, and the reader is gone. -/
theorem a_request_after_the_end_waits_for_ever :
    ∃ s x y, Exchanges.new.run? .standard
        [.request .reply ⟨"device", "ping", []⟩, .step 1, .step 1, .write,
          .arrive (List.replicate 24 255), .read, .step 1,
          .request .reply ⟨"device", "ping", []⟩, .step 2, .step 2, .write] = some s ∧
      s.client.reader = .gone ∧ s.exchange? 1 = some x ∧
      x.reply? = some (.error .channelClosed) ∧ s.client.routes = [2] ∧
      s.exchange? 2 = some y ∧ y.reply? = none ∧ s.WaitsForEver .standard y :=
  ⟨_, _, _, rfl, rfl, rfl, rfl, rfl, rfl, rfl,
    Stranded.waitsForEver ⟨rfl, rfl, rfl, _, rfl, rfl, rfl⟩⟩

end Exchanges

end DeviceGateway
