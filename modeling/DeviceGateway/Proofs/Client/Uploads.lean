import Mathlib.Data.List.TakeWhile
import DeviceGateway.Proofs.Client.Departure

/-!
# Uploads that are given up

An exchange queues the frames of its script up to the first that cannot be made, and gives up there
(`Exchange.Follows`). What was queued under its number is that and nothing else, whatever other
exchanges, the reader and the writer do (`Exchanges.Carries`). So an upload over a connection that
can be written ends with the end of its messages if all of them fit a frame. If one does not, the
call stays open: neither the end of the messages nor that the call is cancelled is queued
(`uploads_left_open`).
-/

namespace DeviceGateway

namespace Exchange

variable {x x' : Exchange} {c c' : Client} {script : List (Except FrameFault Frame)}

/-! ## Following a script -/

/-- **How far an exchange is with its script**: the frames up to here are queued. It is at the next,
it has given up at one that could not be made, or all of them are queued. -/
inductive Follows (script : List (Except FrameFault Frame)) (x : Exchange) : Prop
  | queuing {rest : List (Except FrameFault Frame)} (hscript : script = x.queued.map .ok ++ rest)
      (hs : x.stage = .queuing rest) (hr : x.received = []) : Follows script x
  | spoiled {fault : FrameFault} {rest : List (Except FrameFault Frame)}
      (hscript : script = x.queued.map .ok ++ .error fault :: rest)
      (hs : x.stage = .finished (some fault.toError)) (hr : x.received = []) : Follows script x
  | queued (hscript : script = x.queued.map .ok) (hs : x.stage = .reading ∨ x.stage = .finished none) :
      Follows script x

theorem follows_begin (id : UInt64) (kind : ExchangeKind)
    (script : List (Except FrameFault Frame)) : (begin id kind script).Follows script :=
  .queuing rfl rfl rfl

/-- **A step goes on with the script**, as long as the outbox is open. -/
theorem Follows.step (h : x.Follows script) (ho : c.outbox.isOpen = true)
    (hstep : x.step? c = some (x', c')) : x'.Follows script := by
  cases h with
  | @queuing rest hscript hs hr =>
      cases rest with
      | nil =>
          simp only [step?, hs, Option.some.injEq, Prod.mk.injEq] at hstep
          obtain ⟨rfl, -⟩ := hstep
          rw [List.append_nil] at hscript
          exact .queued hscript (.inl rfl)
      | cons f rest =>
          simp only [step?, hs, queueNext?] at hstep
          split at hstep
          · cases hstep
          · next hqueue =>
            cases hstep
            cases Client.queues_of_queue? hqueue with
            | spoiled => exact .spoiled hscript rfl hr
            | closed hclosed => cases ho.symm.trans hclosed
          · next hqueue =>
            cases hstep
            cases Client.queues_of_queue? hqueue with
            | queued =>
                refine .queuing ?_ rfl hr
                rw [hscript]
                simp [Except.toOption]
  | spoiled hscript hs hr =>
      simp only [step?, hs] at hstep
      cases hstep
  | queued hscript hs =>
      rcases hs with hs | hs
      · simp only [step?, hs] at hstep
        cases step_of_takeNext? hs hstep with
        | pass hs' | queue hs' | giveUp hs' => cases hs.symm.trans hs'
        | take => exact .queued hscript (.inl hs)
        | finish | cut => exact .queued hscript (.inr rfl)
      · simp only [step?, hs] at hstep
        cases hstep

/-- **What a step queues** is of the script, and everybody sees it in the outbox. -/
theorem Step.account (h : x.Step c x' c') :
    ∃ new, x'.queued = x.queued ++ new ∧
      c'.outbox = { c.outbox with queue := c.outbox.queue ++ new } ∧
      (∀ f ∈ new, .ok f ∈ x.toQueue) ∧ x'.toQueue ⊆ x.toQueue := by
  have nothing : x'.queued = x.queued → c'.outbox = c.outbox → x'.toQueue ⊆ x.toQueue →
      ∃ new, x'.queued = x.queued ++ new ∧
        c'.outbox = { c.outbox with queue := c.outbox.queue ++ new } ∧
        (∀ f ∈ new, .ok f ∈ x.toQueue) ∧ x'.toQueue ⊆ x.toQueue := by
    intro hqueued hout hsub
    refine ⟨[], ?_, ?_, ?_, hsub⟩
    · rw [hqueued, List.append_nil]
    · rw [hout, List.append_nil]
    · intro f hf
      cases hf
  cases h with
  | @queue f rest outbox hs hput =>
      obtain ⟨-, -, rfl⟩ := Outbox.put?_eq_ok_iff.1 hput
      refine ⟨[f], rfl, rfl, ?_, ?_⟩
      · intro g hg
        rw [List.mem_singleton.1 hg]
        simp only [toQueue, hs]
        exact List.mem_cons_self
      · simp only [toQueue, hs]
        exact List.subset_cons_self _ _
  | take => exact nothing rfl rfl (List.Subset.refl _)
  | _ => exact nothing rfl rfl (List.nil_subset _)

end Exchange

namespace Exchanges

variable {k : Checksum} {s s' t : Exchanges} {m : Move} {ms before : List Move} {id : UInt64}
  {x : Exchange} {script : List (Except FrameFault Frame)}

/-! ## Frames of all exchanges -/

/-- The frames that were queued, in the order in which they were. -/
def sent (s : Exchanges) : List Frame := s.written ++ s.client.outbox.queue

/-- **Every exchange queues frames of its own**: none has the number of another, and none that of an
exchange that is still to come. -/
structure Tidy (s : Exchanges) : Prop where
  numbered : s.Numbered
  own : ∀ x ∈ s.exchanges, ∀ f, .ok f ∈ x.toQueue → f.callId = x.id
  sent : ∀ f ∈ s.sent, f.callId ∈ s.exchanges.map (·.id)

theorem length_begin (s : Exchanges) (kind : ExchangeKind)
    (script : UInt64 → List (Except FrameFault Frame)) :
    (s.begin kind script).exchanges.length = s.exchanges.length + 1 := List.length_append

theorem Numbered.next_not_mem (h : s.Numbered) (hfew : s.exchanges.length + 1 < UInt64.size) :
    s.client.nextId ∉ s.exchanges.map (·.id) := by
  have hnodup := nodup_numbers hfew
  rw [numbers_succ] at hnodup
  rw [h.next, h.exchanges]
  intro hmem
  exact (List.nodup_append.1 hnodup).2.2 _ hmem _ (List.mem_singleton_self _) rfl

/-- The next number is free. -/
theorem Numbered.free (h : s.Numbered) (hfew : s.exchanges.length + 1 < UInt64.size) :
    s.exchange? s.client.nextId = none := by
  refine List.find?_eq_none.2 ?_
  intro x hx hid
  refine h.next_not_mem hfew ?_
  rw [← eq_of_beq hid]
  exact List.mem_map_of_mem hx

/-- What an exchange with a number does, and nothing else happens. -/
theorem exists_of_act? (h : s.act? id = some s') :
    ∃ x x' client, s.exchange? id = some x ∧ x.step? s.client = some (x', client) ∧ x'.id = id ∧
      x.id = id ∧ s' = s.replace x' client := by
  unfold act? at h
  cases hx : s.exchanges.find? (·.id == id) with
  | none =>
      rw [hx] at h
      cases h
  | some x =>
      rw [hx] at h
      obtain ⟨⟨x', client⟩, hstep, rfl⟩ := Option.map_eq_some_iff.1 h
      have hid : x.id = id := id_of_exchange? hx
      have hid' : x'.id = id := (Exchange.step_of_step? hstep).same.1.trans hid
      refine ⟨x, x', client, hx, hstep, hid', hid, ?_⟩
      rw [replace, hid']

theorem ids_replace (s : Exchanges) (x : Exchange) (client : Client) :
    (s.replace x client).exchanges.map (·.id) = s.exchanges.map (·.id) := by
  rw [replace, List.map_map]
  refine List.map_congr_left ?_
  intro y _
  rw [Function.comp_apply]
  split
  · next hy => exact hy.symm
  · rfl

namespace Tidy

theorem new : Exchanges.new.Tidy := by
  refine ⟨.new, ?_, ?_⟩
  · intro x hx
    cases hx
  · intro f hf
    cases hf

theorem begin {kind : ExchangeKind} {script : UInt64 → List (Except FrameFault Frame)}
    (h : s.Tidy) (hs : ∀ f, .ok f ∈ script s.client.nextId → f.callId = s.client.nextId) :
    (s.begin kind script).Tidy := by
  refine ⟨h.numbered.begin kind script, ?_, ?_⟩
  · intro x hx
    rcases List.mem_append.1 hx with hx | hx
    · exact h.own x hx
    · rw [List.mem_singleton.1 hx]
      exact hs
  · intro f hf
    have hids : (s.begin kind script).exchanges.map (·.id) = s.exchanges.map (·.id) ++ [_] :=
      List.map_append
    rw [hids]
    exact List.mem_append_left _ (h.sent f hf)

/-- What begins no exchange and queues nothing keeps this. -/
theorem of_same (h : s.Tidy) (hn : s'.Numbered) (hx : s'.exchanges = s.exchanges)
    (hsent : s'.sent ⊆ s.sent) : s'.Tidy := by
  refine ⟨hn, ?_, ?_⟩
  · rw [hx]
    exact h.own
  · rw [hx]
    intro f hf
    exact h.sent f (hsent hf)

theorem exchange {x x' : Exchange} {client : Client} (h : s.Tidy) (hx : s.exchange? x.id = some x)
    (hstep : x.Step s.client x' client) (hn : (s.replace x' client).Numbered) :
    (s.replace x' client).Tidy := by
  obtain ⟨new, -, hout, hnew, hsub⟩ := hstep.account
  have hmem := List.mem_of_find?_eq_some hx
  have hown := h.own x hmem
  refine ⟨hn, ?_, ?_⟩
  · intro y hy f hf
    obtain ⟨z, hz, rfl⟩ := List.mem_map.1 hy
    split at hf
    · next hzx =>
      rw [if_pos hzx, hstep.same.1]
      exact hown f (hsub hf)
    · next hzx =>
      rw [if_neg hzx]
      exact h.own z hz f hf
  · intro f hf
    rw [ids_replace]
    simp only [Exchanges.sent, replace, hout, ← List.append_assoc] at hf
    rcases List.mem_append.1 hf with hf | hf
    · exact h.sent f hf
    · rw [hown f (hnew f hf)]
      exact List.mem_map_of_mem hmem

end Tidy

theorem Tidy.step (h : s.Tidy) (hstep : Step k s m s') : s'.Tidy := by
  have hn := h.numbered.step hstep
  cases hstep with
  | request => exact h.begin fun f => Exchange.callId_of_mem_request
  | upload => exact h.begin fun f => Exchange.callId_of_mem_upload
  | exchange hx hstep => exact h.exchange hx hstep hn
  | hear =>
      refine h.of_same hn rfl ?_
      intro f hf
      simp only [Exchanges.sent, (Client.route_leaves _ _).2.1] at hf
      exact hf
  | @write f rest hq =>
      refine h.of_same hn rfl ?_
      simp [Exchanges.sent, hq]
  | failWriting =>
      refine h.of_same hn rfl ?_
      intro f hf
      exact List.mem_append_left _ (by simpa [Exchanges.sent, Outbox.close] using hf)
  | _ => exact h.of_same hn rfl (List.Subset.refl _)

theorem Tidy.run (h : s.Tidy) (hrun : s.run? k ms = some t) : t.Tidy :=
  run?_induction (fun h hstep => h.step hstep) h hrun

/-! ## The frames of one exchange -/

/-- **The frames that were queued under a number.** -/
def framesFor (s : Exchanges) (id : UInt64) : List Frame := s.sent.filter (·.callId == id)

/-- **An exchange carries its script** over a connection that can be written. -/
structure Carries (id : UInt64) (script : List (Except FrameFault Frame)) (x : Exchange)
    (s : Exchanges) : Prop where
  here : s.exchange? id = some x
  follows : x.Follows script
  frames : s.framesFor id = x.queued
  isOpen : s.client.outbox.isOpen = true

namespace Carries

theorem of_same (h : Carries id script x s) (hx : s'.exchange? id = s.exchange? id)
    (hsent : s'.sent = s.sent) (ho : s'.client.outbox.isOpen = s.client.outbox.isOpen) :
    Carries id script x s' := by
  refine ⟨hx.trans h.here, h.follows, ?_, ho.trans h.isOpen⟩
  rw [framesFor, hsent]
  exact h.frames

theorem begin {kind : ExchangeKind} {more : UInt64 → List (Except FrameFault Frame)}
    (h : Carries id script x s) (hs : s.Numbered) (hfew : s.exchanges.length + 1 < UInt64.size) :
    Carries id script x (s.begin kind more) := by
  refine h.of_same ?_ rfl rfl
  rw [exchange?_begin (hs.free hfew), if_neg]
  rintro rfl
  cases h.here.symm.trans (hs.free hfew)

theorem filter_own {new : List Frame} (h : ∀ f ∈ new, f.callId = id) :
    new.filter (·.callId == id) = new := by
  refine List.filter_eq_self.2 ?_
  intro f hf
  exact beq_iff_eq.2 (h f hf)

theorem filter_other {new : List Frame} {i : UInt64} (hi : i ≠ id) (h : ∀ f ∈ new, f.callId = i) :
    new.filter (·.callId == id) = [] := by
  refine List.filter_eq_nil_iff.2 ?_
  intro f hf heq
  exact hi ((h f hf).symm.trans (eq_of_beq heq))

/-- **A step of an exchange**, this one or another. -/
theorem act (h : Carries id script x s) (hs : s.Tidy) {i : UInt64} (hact : s.act? i = some s') :
    ∃ x', Carries id script x' s' := by
  obtain ⟨y, y', client, hy, hstep, hid', hid, rfl⟩ := exists_of_act? hact
  obtain ⟨new, hqueued, hout, hnew, -⟩ := (Exchange.step_of_step? hstep).account
  have hy' : s.exchange? y'.id = some y := by
    rw [hid']
    exact hy
  have hget := exchange?_replace hy' client id
  have hown : ∀ f ∈ new, f.callId = i := by
    intro f hf
    rw [← hid]
    exact hs.own y (List.mem_of_find?_eq_some hy) f (hnew f hf)
  have hopen : (s.replace y' client).client.outbox.isOpen = true := by
    show client.outbox.isOpen = true
    rw [hout]
    exact h.isOpen
  have hframes : (s.replace y' client).framesFor id =
      s.framesFor id ++ new.filter (·.callId == id) := by
    simp only [framesFor, sent, replace, hout, ← List.append_assoc, List.filter_append]
  by_cases hi : i = id
  · subst hi
    cases h.here.symm.trans hy
    refine ⟨y', ?_, h.follows.step h.isOpen hstep, ?_, hopen⟩
    · rw [hget, if_pos hid'.symm]
    · rw [hframes, h.frames, filter_own hown, hqueued]
  · refine ⟨x, ?_, h.follows, ?_, hopen⟩
    · rw [hget, if_neg]
      · exact h.here
      · rintro rfl
        exact hi hid'.symm
    · rw [hframes, filter_other hi hown, List.append_nil]
      exact h.frames

theorem step (h : Carries id script x s) (hs : s.Tidy) (hm : s.step? k m = some s')
    (hwrites : m ≠ .failWriting) (hfew : s'.exchanges.length < UInt64.size) :
    ∃ x', Carries id script x' s' := by
  cases step_of_step? hm with
  | request | upload =>
      rw [length_begin] at hfew
      exact ⟨x, h.begin hs.numbered hfew⟩
  | exchange => exact h.act hs hm
  | @hear f rest =>
      have hout := (Client.route_leaves { s.client with unread := rest } f).2.1
      exact ⟨x, h.of_same rfl (by simp only [sent, hout]) (by rw [hout])⟩
  | write hq => exact ⟨x, h.of_same rfl (by simp [sent, hq]) rfl⟩
  | failWriting => exact absurd rfl hwrites
  | _ => exact ⟨x, h.of_same rfl rfl rfl⟩

theorem run (h : Carries id script x s) (hs : s.Tidy) (hrun : s.run? k ms = some t)
    (hwrites : Move.failWriting ∉ ms) (hfew : t.exchanges.length < UInt64.size) :
    ∃ x', Carries id script x' t := by
  induction ms generalizing s x with
  | nil =>
      cases hrun
      exact ⟨x, h⟩
  | cons m ms ih =>
      obtain ⟨u, hm, hrest⟩ := Option.bind_eq_some_iff.1 hrun
      rw [List.mem_cons, not_or] at hwrites
      have hfew' := Nat.lt_of_le_of_lt (run_length_le hrest) hfew
      obtain ⟨x', h'⟩ := h.step hs hm (Ne.symm hwrites.1) hfew'
      exact ih h' (hs.step (step_of_step? hm)) hrest hwrites.2

end Carries

/-! ## Uploads -/

/-- **A call is left open**: no status has come, and the last frame that was queued for it neither
ends its messages nor cancels it. -/
def LeavesOpen (s : Exchanges) (x : Exchange) : Prop :=
  (∀ f ∈ x.received, f.kind ≠ .status) ∧
    ∃ f, (s.framesFor x.id).getLast? = some f ∧ f.kind ≠ .halfClose ∧ f.kind ≠ .cancel

/-- **How an upload that is over has ended**: what was queued for it is its script up to the first
frame that cannot be made, and the call is left open exactly if its request fits a frame and one of
its messages does not. Then the caller is told of such a message. -/
structure UploadEnds (service method : String) (messages : List Bytes) (x : Exchange)
    (s : Exchanges) : Prop where
  frames : (s.framesFor x.id).map .ok =
    (Exchange.upload x.id service method messages).takeWhile (·.isOk)
  leavesOpen : s.LeavesOpen x ↔
    (Payload.toBytes (⟨service, method, []⟩ : CallRequest)).length ≤ Frame.maxPayload ∧
      ∃ m ∈ messages, Frame.maxPayload < m.length
  told : s.LeavesOpen x → ∃ m ∈ messages, Frame.maxPayload < m.length ∧
    x.answer? = some (.error (.payloadTooLarge m.length Frame.maxPayload))

section

variable {service method : String} {messages : List Bytes}

theorem isOk_of_mem_map {fs : List Frame} :
    ∀ f ∈ (fs.map .ok : List (Except FrameFault Frame)), f.isOk = true := by
  intro f hf
  obtain ⟨g, -, rfl⟩ := List.mem_map.1 hf
  rfl

/-- What is queued before the end of an upload is its request and its messages. -/
theorem kind_of_front {fs : List Frame} {more : List (Except FrameFault Frame)}
    (h : Frame.call id ⟨service, method, []⟩ :: messages.map (Frame.message id) =
      fs.map .ok ++ more) : ∀ f ∈ fs, f.kind ≠ .halfClose ∧ f.kind ≠ .cancel := by
  intro f hf
  have hmem : .ok f ∈ Frame.call id ⟨service, method, []⟩ :: messages.map (Frame.message id) := by
    rw [h]
    exact List.mem_append_left _ (List.mem_map_of_mem hf)
  rcases List.mem_cons.1 hmem with hf | hf
  · rw [(Frame.of_make hf.symm).1]
    exact ⟨by decide, by decide⟩
  · obtain ⟨m, -, hf⟩ := List.mem_map.1 hf
    rw [(Frame.of_make hf).1]
    exact ⟨by decide, by decide⟩

/-- **Where an upload is given up**, it is before its end. -/
theorem front_of_spoiled {fs : List Frame} {fault : FrameFault}
    {rest : List (Except FrameFault Frame)}
    (h : Exchange.upload id service method messages = fs.map .ok ++ .error fault :: rest) :
    ∃ more, Frame.call id ⟨service, method, []⟩ :: messages.map (Frame.message id) =
      fs.map .ok ++ .error fault :: more := by
  unfold Exchange.upload at h
  rcases List.append_eq_append_iff.1 h with ⟨between, hfs, hend⟩ | ⟨between, hfront, hrest⟩
  · -- The last frame of the script can always be made.
    cases between with
    | nil => cases hend
    | cons f between =>
        have hlen := congrArg List.length hend
        simp at hlen
  · cases between with
    | nil => cases hrest
    | cons f between =>
        cases hrest
        exact ⟨between, hfront⟩

/-- The frame at which an upload is given up is its request, or a message. -/
theorem fault_of_spoiled {fs : List Frame} {fault : FrameFault}
    {more : List (Except FrameFault Frame)}
    (h : Frame.call id ⟨service, method, []⟩ :: messages.map (Frame.message id) =
      fs.map .ok ++ .error fault :: more) :
    (fs = [] ∧ Frame.call id ⟨service, method, []⟩ = .error fault) ∨
      fs ≠ [] ∧ ∃ m ∈ messages, Frame.message id m = .error fault := by
  cases fs with
  | nil => exact .inl ⟨rfl, (List.cons.inj h).1⟩
  | cons f fs =>
      refine .inr ⟨List.cons_ne_nil _ _, ?_⟩
      have hmem : .error fault ∈ messages.map (Frame.message id) := by
        rw [(List.cons.inj h).2]
        simp
      exact List.mem_map.1 hmem

theorem takeWhile_of_spoiled {fs : List Frame} {fault : FrameFault}
    {rest : List (Except FrameFault Frame)}
    (h : script = fs.map .ok ++ .error fault :: rest) :
    script.takeWhile (·.isOk) = fs.map .ok := by
  have hfault : ¬ (Except.error fault : Except FrameFault Frame).isOk = true := by
    rintro ⟨⟩
  rw [h, List.takeWhile_append_of_pos isOk_of_mem_map, List.takeWhile_cons_of_neg hfault,
    List.append_nil]

/-- **An upload that gives up** leaves the call open, if there is one. -/
theorem uploadEnds_of_spoiled {fault : FrameFault} {rest : List (Except FrameFault Frame)}
    (hframes : s.framesFor x.id = x.queued)
    (hscript : Exchange.upload x.id service method messages =
      x.queued.map .ok ++ .error fault :: rest)
    (hs : x.stage = .finished (some fault.toError)) (hr : x.received = []) :
    s.UploadEnds service method messages x := by
  obtain ⟨more, hfront⟩ := front_of_spoiled hscript
  have hanswer : x.answer? = some (.error fault.toError) := by
    simp only [Exchange.answer?, hs]
  have hsilent : ∀ f ∈ x.received, f.kind ≠ .status := by
    rw [hr]
    intro f hf
    cases hf
  rcases fault_of_spoiled hfront with ⟨hnone, hcall⟩ | ⟨hsome, m, hm, hmessage⟩
  · have hnot : ¬ s.LeavesOpen x := by
      rintro ⟨-, f, hf, -⟩
      rw [hframes, hnone] at hf
      cases hf
    refine ⟨?_, ?_, fun h => absurd h hnot⟩
    · rw [hframes, takeWhile_of_spoiled hscript]
    · refine iff_of_false hnot ?_
      rintro ⟨hfits, -⟩
      exact absurd hfits (Nat.not_le.2 (Frame.make_eq_error_iff.1 hcall).1)
  · obtain ⟨hlong, rfl⟩ := Frame.make_eq_error_iff.1 hmessage
    have hlast := List.getLast?_eq_some_getLast hsome
    have hleft : s.LeavesOpen x := by
      refine ⟨hsilent, x.queued.getLast hsome, ?_, ?_⟩
      · rw [hframes]
        exact hlast
      · exact kind_of_front hfront _ (List.getLast_mem hsome)
    refine ⟨?_, ?_, ?_⟩
    · rw [hframes, takeWhile_of_spoiled hscript]
    · refine iff_of_true hleft ⟨?_, m, hm, hlong⟩
      refine Nat.le_of_not_lt fun htoo => ?_
      -- The request would be the frame at which the upload was given up.
      have hcall : Frame.call x.id ⟨service, method, []⟩ = .error (.tooLarge _) :=
        Frame.make_eq_error_iff.2 ⟨htoo, rfl⟩
      obtain ⟨f, fs, hqueued⟩ := List.exists_cons_of_ne_nil hsome
      rw [hqueued, hcall] at hfront
      cases (List.cons.inj hfront).1
    · intro _
      exact ⟨m, hm, hlong, hanswer⟩

/-- **An upload that was queued to its end** is not left open. -/
theorem uploadEnds_of_queued (hframes : s.framesFor x.id = x.queued)
    (hscript : Exchange.upload x.id service method messages = x.queued.map .ok) :
    s.UploadEnds service method messages x := by
  have hlast : x.queued.getLast? = some (.halfClose x.id) := by
    have hend : (x.queued.map Except.ok).getLast? =
        some (.ok (.halfClose x.id) : Except FrameFault Frame) := by
      rw [← hscript]
      exact List.getLast?_concat
    rw [List.getLast?_map] at hend
    obtain ⟨f, hf, heq⟩ := Option.map_eq_some_iff.1 hend
    cases heq
    exact hf
  have hnot : ¬ s.LeavesOpen x := by
    rintro ⟨-, f, hf, hkind, -⟩
    rw [hframes, hlast] at hf
    cases hf
    exact hkind rfl
  refine ⟨?_, ?_, fun h => absurd h hnot⟩
  · rw [hframes, hscript, List.takeWhile_eq_self_iff.2 isOk_of_mem_map]
  · refine iff_of_false hnot ?_
    rintro ⟨-, m, hm, hlong⟩
    have hmem : Frame.message x.id m ∈ Exchange.upload x.id service method messages := by
      simp only [Exchange.upload, List.cons_append, List.mem_cons, List.mem_append]
      exact .inr (.inl (List.mem_map_of_mem hm))
    have hmessage : Frame.message x.id m = .error (.tooLarge m.length) :=
      Frame.make_eq_error_iff.2 ⟨hlong, rfl⟩
    rw [hscript, hmessage] at hmem
    have hok := isOk_of_mem_map _ hmem
    cases hok

end

/-- **Which uploads leave their call open.** Over a connection that can be written, whatever other
calls, the reader and the writer do meanwhile. -/
theorem uploads_left_open {service method : String} {messages : List Bytes}
    (hbefore : Exchanges.new.run? k before = some s) (ho : s.client.outbox.isOpen = true)
    (hupload : s.step? k (.upload service method messages) = some s')
    (hrun : s'.run? k ms = some t) (hwrites : Move.failWriting ∉ ms)
    (hfew : t.exchanges.length < UInt64.size) :
    ∃ x, t.exchange? s.client.nextId = some x ∧ x.id = s.client.nextId ∧
      (x.isOver = true → t.UploadEnds service method messages x) := by
  have hs := Tidy.new.run hbefore
  have hs' := hs.step (step_of_step? hupload)
  have hfew' := Nat.lt_of_le_of_lt (run_length_le hrun) hfew
  cases hupload
  have hlen : s.exchanges.length + 1 < UInt64.size := by
    rw [length_begin] at hfew'
    exact hfew'
  have hbegun : Carries s.client.nextId (Exchange.upload s.client.nextId service method messages)
      (.begin s.client.nextId .reply (Exchange.upload s.client.nextId service method messages))
      (s.begin .reply fun id => Exchange.upload id service method messages) := by
    refine ⟨?_, Exchange.follows_begin _ _ _, ?_, ho⟩
    · rw [exchange?_begin (hs.numbered.free hlen), if_pos rfl]
    · refine List.filter_eq_nil_iff.2 ?_
      intro f hf heq
      refine hs.numbered.next_not_mem hlen ?_
      rw [← eq_of_beq heq]
      exact hs.sent f hf
  obtain ⟨x, h⟩ := hbegun.run hs' hrun hwrites hfew
  have hid := id_of_exchange? h.here
  refine ⟨x, h.here, hid, ?_⟩
  intro hover
  have hframes := h.frames
  have hfollows := h.follows
  rw [← hid] at hframes hfollows
  cases hfollows with
  | queuing hscript hstage => simp [Exchange.isOver, hstage] at hover
  | spoiled hscript hstage hr => exact uploadEnds_of_spoiled hframes hscript hstage hr
  | queued hscript => exact uploadEnds_of_queued hframes hscript

/-- An upload of one octet, and the server hangs up when it has been written. -/
def oneUploadCutOff : List Move :=
  [.step 1, .step 1, .step 1, .step 1, .write, .write, .write, .hangUp, .read, .step 1]

/-- The upload has queued its end, and its caller learns that the connection was lost. -/
theorem one_upload_is_cut_off :
    ∃ s t x, Exchanges.new.run? .standard [] = some Exchanges.new ∧
      Exchanges.new.client.outbox.isOpen = true ∧
      Exchanges.new.step? .standard (.upload "filesystem" "upload" [[1]]) = some s ∧
      s.run? .standard oneUploadCutOff = some t ∧ Move.failWriting ∉ oneUploadCutOff ∧
      t.exchanges.length < UInt64.size ∧ t.exchange? 1 = some x ∧ x.isOver = true ∧
      t.UploadEnds "filesystem" "upload" [[1]] x := by
  have hbefore : Exchanges.new.run? .standard [] = some Exchanges.new := rfl
  have hwrites : Move.failWriting ∉ oneUploadCutOff := by
    simp [oneUploadCutOff]
  have hupload : Exchanges.new.step? .standard (.upload "filesystem" "upload" [[1]]) = some _ := rfl
  obtain ⟨x, hx, -, hends⟩ := uploads_left_open hbefore rfl hupload rfl hwrites (by decide)
  have hover : x.isOver = true := by
    cases hx
    rfl
  exact ⟨_, _, x, hbefore, rfl, hupload, rfl, hwrites, by decide, hx, hover, hends hover⟩

/-- One octet over the limit: the upload has failed, only its request is queued, and the writer
writes on. -/
theorem an_upload_given_up_stays_open :
    ∃ s t x, Exchanges.new.step? .standard
        (.upload "filesystem" "upload" [List.replicate (Frame.maxPayload + 1) 0]) = some s ∧
      s.run? .standard [.step 1, .write, .step 1] = some t ∧ t.client.outbox.isOpen = true ∧
      t.exchange? 1 = some x ∧
      x.reply? = some (.error (.payloadTooLarge 1048577 Frame.maxPayload)) ∧
      (t.framesFor 1).map (·.kind) = [.call] ∧ x.received = [] ∧ t.LeavesOpen x := by
  have hlen : (List.replicate (Frame.maxPayload + 1) (0 : UInt8)).length = 1048577 :=
    List.length_replicate
  generalize List.replicate (Frame.maxPayload + 1) (0 : UInt8) = m at hlen
  have hmessage : Frame.message 1 m = .error (.tooLarge 1048577) :=
    Frame.make_eq_error_iff.2 ⟨by rw [hlen]; decide, by rw [hlen]⟩
  let f : Frame := ⟨.call, 1, Payload.toBytes (⟨"filesystem", "upload", []⟩ : CallRequest), by decide⟩
  let s : Exchanges :=
    ⟨Client.new.register.2, [.begin 1 .reply [.ok f, .error (.tooLarge 1048577), .ok (.halfClose 1)]],
      []⟩
  have hscript : Exchange.upload 1 "filesystem" "upload" [m] =
      [.ok f, .error (.tooLarge 1048577), .ok (.halfClose 1)] := by
    rw [Exchange.upload, List.map_singleton, hmessage]
    rfl
  have hupload : Exchanges.new.step? .standard (.upload "filesystem" "upload" [m]) = some s := by
    show some (⟨_, [.begin 1 .reply (Exchange.upload 1 "filesystem" "upload" [m])], _⟩ :
      Exchanges) = some s
    rw [hscript]
    rfl
  have hsilent : ∀ f ∈ ([] : List Frame), f.kind ≠ .status := by
    intro f hf
    cases hf
  exact ⟨s, _, _, hupload, rfl, rfl, rfl, rfl, rfl, rfl, hsilent, f, rfl, by decide, by decide⟩

end Exchanges

end DeviceGateway
