import DeviceGateway.Proofs.Server.DuplicateCalls
import DeviceGateway.Proofs.Server.Joining
import DeviceGateway.Proofs.Server.Responses

/-!
# Numbers that are used again

A call tells its caller how it ended before it reports its end, and the loop may read further frames
before it takes notice of the report. In between, the caller may have the status already while the
number of the call is still in use: if a request comes under it then, the loop leaves. Nothing but
the order of the loop's steps decides that, for had it taken notice first, it would have accepted the
request (`leaves_over_number_in_use`, `closed_after_the_status`).
-/

namespace DeviceGateway

namespace Connection

variable {ω σ : Type} {s : Server ω σ} {c c' d : Connection ω σ} {id : UInt64}

/-! ## Where a call in the pool comes from -/

/-- **A call is in the pool since its request was read** in a run: in which state it began, and what
was done since. -/
structure InUseSince (s : Server ω σ) (c : Connection ω σ) (ms : List Move) (id : UInt64)
    (accepted : Except GatewayError (Job ω σ)) (c' : Connection ω σ) (since : List Move) : Prop where
  read : ∃ before c₁, ms = before ++ .read :: since ∧ c.run? s before = some c₁ ∧
    c₁.step? s .read = some c'
  new : c'.pool.call? id = some (.start id true (.opening accepted))
  ever : ∀ e ∈ c'.visited s since, e.pool.contains id = true
  last : c'.run? s since = c.run? s ms

theorem InUseSince.cons {m : Move} {ms since : List Move}
    {accepted : Except GatewayError (Job ω σ)} (hm : c.step? s m = some d)
    (h : InUseSince s d ms id accepted c' since) :
    InUseSince s c (m :: ms) id accepted c' since := by
  obtain ⟨⟨before, c₁, rfl, hbefore, hread⟩, hnew, hever, hlast⟩ := h
  refine ⟨⟨m :: before, c₁, rfl, run?_cons.2 ⟨d, hm, hbefore⟩, hread⟩, hnew, hever, hlast.trans ?_⟩
  rw [Connection.run?, hm]
  rfl

/-- A number comes into use when a request is read under it. -/
theorem accepted_of_step {m : Move} (hstep : Step s c m c') (hfree : c.pool.contains id = false)
    (hin : c'.pool.contains id = true) :
    m = .read ∧ ∃ accepted, c'.pool.call? id = some (.start id true (.opening accepted)) := by
  have hnone : c.pool.standing? id = none := by
    rwa [Pool.contains_eq, Option.isSome_eq_false_iff, Option.isNone_iff_eq_none] at hfree
  have still (hs : c'.pool.standing? id = none) : False := by
    rw [Pool.contains_eq, hs] at hin
    cases hin
  cases hstep with
  | @accept f rest r pool _ _ _ _ hl =>
      by_cases hi : id = f.callId
      · subst hi
        refine ⟨rfl, s.accept r, ?_⟩
        have hcall := Pool.call?_spawn hl f.callId
        rwa [if_pos rfl] at hcall
      · refine (still ?_).elim
        show pool.standing? id = none
        rw [Pool.standing?_spawn hl, Function.update_of_ne hi, hnone]
  | halfClose => exact (still ((congrFun (Pool.standing?_halfClose _ _) id).trans hnone)).elim
  | cancel => exact (still ((congrFun (Pool.standing?_cancel _ _) id).trans hnone)).elim
  | feed _ hf => exact (still ((congrFun (Pool.standing?_feed? hf) id).trans hnone)).elim
  | tear => exact (still ((congrFun (Pool.standing?_tear _ _) id).trans hnone)).elim
  | @notice i pool _ hn =>
      refine (still ?_).elim
      show pool.standing? id = none
      rw [Pool.standing?_notice hn]
      by_cases hi : id = i
      · rw [hi, Function.update_self]
      · rw [Function.update_of_ne hi, hnone]
  | @pool _ pool _ hp =>
      refine (still ?_).elim
      have hcall : c.pool.call? id = none := Option.map_eq_none_iff.1 hnone
      show pool.standing? id = none
      rw [Pool.standing?, Pool.call?_none_of_step hp hcall]
      rfl
  | _ => exact (still hnone).elim

/-- The last state of a run is one of those that it comes through. -/
theorem mem_visited_of_run? {ms : List Move} (hr : c.run? s ms = some d) : d ∈ c.visited s ms := by
  induction ms generalizing c with
  | nil =>
      cases hr
      exact mem_visited_self _ []
  | cons m ms ih =>
      obtain ⟨e, hm, hr⟩ := run?_cons.1 hr
      rw [visited_cons hm]
      exact List.mem_cons_of_mem _ (ih hr)

/-- **A number that is in use after a run** has been so all the time, or since a request was read
under it. -/
theorem inUseSince_of_run? {ms : List Move} (hr : c.run? s ms = some d)
    (hin : d.pool.contains id = true) :
    (∀ e ∈ c.visited s ms, e.pool.contains id = true) ∨
      ∃ accepted c' since, InUseSince s c ms id accepted c' since := by
  induction ms generalizing c with
  | nil =>
      cases hr
      refine .inl fun e he => ?_
      rw [visited, List.mem_singleton] at he
      rwa [he]
  | cons m ms ih =>
      obtain ⟨e, hm, hrest⟩ := run?_cons.1 hr
      rcases ih hrest with hall | ⟨accepted, c', since, hsince⟩
      · cases hc : c.pool.contains id with
        | true =>
            refine .inl fun k hk => ?_
            rw [visited_cons hm] at hk
            rcases List.mem_cons.1 hk with rfl | hk
            · exact hc
            · exact hall k hk
        | false =>
            obtain ⟨rfl, accepted, hnew⟩ :=
              accepted_of_step (step_of_step? hm) hc (hall e (mem_visited_self e ms))
            exact .inr ⟨accepted, e, ms, ⟨⟨[], c, rfl, rfl, hm⟩, hnew, hall, hrest.trans hr.symm⟩⟩
      · exact .inr ⟨accepted, c', since, hsince.cons hm⟩

/-- On a connection that has just been accepted no number is in use. -/
theorem inUseSince_of_start {world : ω} {ms : List Move} (hr : (start world).run? s ms = some d)
    (hin : d.pool.contains id = true) :
    ∃ accepted c' since, InUseSince s (start world) ms id accepted c' since := by
  refine (inUseSince_of_run? hr hin).resolve_left fun hall => ?_
  cases hall _ (mem_visited_self _ ms)

/-! ## Statuses among the frames of a call -/

theorem statuses_of_messageWords {fs : List Frame} {sent : List Bytes}
    (h : fs.map Frame.word = messageWords sent) : statuses id fs = 0 := by
  refine List.countP_eq_zero.2 fun f hf hstatus => ?_
  have hword : f.word ∈ messageWords sent := h ▸ List.mem_map_of_mem hf
  have hkind : f.kind = .message := kind_of_mem_messageWords hword
  rw [Frame.isStatusOf, hkind] at hstatus
  cases hstatus

theorem statuses_of_statusWord {fs : List Frame} {sent : List Bytes}
    {result : Except GatewayError Unit} (hown : ∀ f ∈ fs, f.callId = id)
    (h : fs.map Frame.word = messageWords sent ++ [statusWord result]) : statuses id fs = 1 := by
  obtain ⟨before, last, rfl, hbefore, hlast⟩ := List.map_eq_append_iff.1 h
  obtain ⟨f, rfl, hword⟩ : ∃ f, last = [f] ∧ f.word = statusWord result := by
    rwa [List.map_eq_singleton_iff] at hlast
  have hkind : f.kind = .status := congrArg Prod.fst hword
  have hid := hown f (List.mem_append_right _ (List.mem_singleton_self f))
  rw [statuses_append, statuses_of_messageWords hbefore, statuses, List.countP_singleton,
    Frame.isStatusOf, hkind, hid]
  simp

/-! ## Taking notice first -/

theorem step?_notice {pool : Pool ω σ} (hs : c.stage = .serving)
    (hn : c.pool.notice? = some (id, pool)) : c.step? s .notice = some { c with pool } := by
  rw [step?, if_pos (isServing_iff.2 hs), hn]
  rfl

/-- **The loop takes notice of all that has been reported.** -/
theorem notices_all (hc : c.Sound) (hs : c.stage = .serving) :
    ∃ d, c.run? s (List.replicate c.pool.events.length .notice) = some d ∧ d.Sound ∧
      d.stage = .serving ∧ d.unread = c.unread ∧ d.pool.events = [] ∧
      ∀ i, d.pool.standing? i = if i ∈ c.pool.events then none else c.pool.standing? i := by
  generalize hevents : c.pool.events = events
  induction events generalizing c with
  | nil => exact ⟨c, rfl, hc, hs, rfl, hevents, fun i => (if_neg List.not_mem_nil).symm⟩
  | cons id events ih =>
      have hnotice : c.pool.notice? = some (id, _) :=
        Pool.notice?_eq_some_iff.2 ⟨events, hevents, rfl⟩
      have hstep := step?_notice (s := s) hs hnotice
      obtain ⟨d, hr, hd, hserving, hunread, hnone, hstanding⟩ :=
        ih (hc.step (step_of_step? hstep)) hs rfl
      refine ⟨d, run?_cons.2 ⟨_, hstep, hr⟩, hd, hserving, hunread, hnone, fun i => ?_⟩
      rw [hstanding, Pool.standing?_notice hnotice]
      by_cases hi : i = id
      · subst hi
        rw [Function.update_self, ite_self, if_pos List.mem_cons_self]
      · simp only [Function.update_of_ne hi, List.mem_cons, hi, false_or]

/-- Reports of calls that are over, and the loop's notice of them. -/
def Move.isNoticeOf (id : UInt64) : Move → Bool
  | .notice => true
  | .pool (.report i) => i == id
  | _ => false

/-- **A number whose call is over becomes free** when the loop takes notice before it reads on. -/
theorem frees_number (hc : c.Sound) (hs : c.stage = .serving) (hover : c.isOver id = true) :
    ∃ ms d, (∀ m ∈ ms, m.isNoticeOf id = true) ∧ c.run? s ms = some d ∧ d.stage = .serving ∧
      d.unread = c.unread ∧ d.pool.contains id = false := by
  obtain ⟨d, hr, hd, hserving, hunread, hnone, hstanding⟩ := notices_all (s := s) hc hs
  have hquiet : ∀ m ∈ List.replicate c.pool.events.length Move.notice, m.isNoticeOf id = true := by
    intro m hm
    rw [List.eq_of_mem_replicate hm]
    rfl
  by_cases hreported : id ∈ c.pool.events
  · refine ⟨_, d, hquiet, hr, hserving, hunread, ?_⟩
    rw [Pool.contains_eq, hstanding, if_pos hreported]
    rfl
  · -- The call has not reported its end yet. There is room for the report now.
    have hstill : d.pool.standing? id = c.pool.standing? id := by
      rw [hstanding, if_neg hreported]
    obtain ⟨⟨sup, stage⟩, hstands, hstage⟩ := (Option.any_eq_true _ _).1 hover
    obtain ⟨call, hcall, hlook⟩ := Option.map_eq_some_iff.1 (hstill.trans hstands)
    cases hlook
    have hreporting : call.stage = .reporting := by
      refine reporting_of_over hstage (Bool.eq_false_iff.2 fun hgone => hreported ?_)
      rw [hc.kept.reported]
      exact ⟨_, hstands.trans (congrArg some (Prod.ext rfl (Pool.isGone_iff.1 hgone)))⟩
    have hroom : d.pool.events.length < Pool.eventCapacity := by
      rw [hnone]
      decide
    let e : Connection ω σ :=
      { d with pool := { d.pool.replace { call with stage := .gone } with events := [id] } }
    have hreport : d.step? s (.pool (.report id)) = some e := by
      rw [step?_report hcall hreporting hroom, hnone]
      rfl
    have hnotice : e.pool.notice? = some (id, _) := Pool.notice?_eq_some_iff.2 ⟨[], rfl, rfl⟩
    have hlast := step?_notice (s := s) (c := e) hserving hnotice
    refine ⟨List.replicate c.pool.events.length .notice ++ [.pool (.report id), .notice],
      { e with pool := { e.pool with events := [] }.processEnd id }, ?_,
      run?_append hr (run?_cons.2 ⟨e, hreport, run?_cons.2 ⟨_, hlast, rfl⟩⟩), hserving, hunread, ?_⟩
    · intro m hm
      rcases List.mem_append.1 hm with hm | hm
      · exact hquiet m hm
      · rcases List.mem_cons.1 hm with rfl | hm
        · exact beq_self_eq_true id
        · rw [List.mem_singleton.1 hm]
          rfl
    · rw [Pool.contains_eq, Pool.standing?_notice hnotice, Function.update_self]
      rfl

/-! ## Requests under a number that is used again -/

/-- **The call that a number is in use for has told its caller how it ended.** -/
def HasTold (s : Server ω σ) (world : ω) (ms : List Move) (id : UInt64) : Prop :=
  ∃ accepted c' since, InUseSince s (start world) ms id accepted c' since ∧
    0 < statuses id (c'.framesSaid s id since)

/-- What has been said of a call since its request was read. -/
theorem InUseSince.isAnswered {ms since : List Move} {accepted : Except GatewayError (Job ω σ)}
    (h : InUseSince s c ms id accepted c' since) (hr : c.run? s ms = some d) :
    IsAnswered s accepted id c' since d :=
  (Answering.start h.new).isAnswered (h.last.trans hr) h.ever

/-- **The loop leaves over a request whose number is in use, and over no other**: in every state that
is reached. If the call is not over, it has not told its caller how it ended. If it is over, it has,
unless nobody writes any more or the status does not fit a frame; then the loop leaves over a number
that its caller may take for free, and would have accepted the request if it had taken notice of the
end before. -/
theorem leaves_over_number_in_use (s : Server ω σ) (world : ω) {ms : List Move}
    (hreach : (start world).run? s ms = some c) {f : Frame} {rest : Bytes} {r : CallRequest}
    (hread : c.Reads s f rest) (hkind : f.kind = .call)
    (hp : (Payload.ofBytes f.payload : Except GatewayError CallRequest) = .ok r) :
    (c.pool.contains f.callId = false → c.Accepts s f) ∧
    (c.pool.contains f.callId = true → c.LeavesOver s f) ∧
    (c.isOver f.callId = false → ¬ HasTold s world ms f.callId) ∧
    (c.isOver f.callId = true → c.LeavesOver s f ∧
      (∃ accepted c' since result, InUseSince s (start world) ms f.callId accepted c' since ∧
        Outcome accepted (c'.resultsReturned s f.callId since)
          (∃ e ∈ c'.visited s since, e.isCancelled f.callId = true) result ∧
        (c.shared.outbox.isOpen = true → (Status.ofResult result).fits = true →
          HasTold s world ms f.callId)) ∧
      ∃ ns d, (∀ m ∈ ns, m.isNoticeOf f.callId = true) ∧ c.run? s ns = some d ∧
        d.Accepts s f) := by
  refine ⟨accepts_of_ok hread hkind hp, leavesOver_of_ok hread hkind hp, ?_, ?_⟩
  · rintro hnot ⟨accepted, c', since, hsince, htold⟩
    have hsaid := (hsince.isAnswered hreach).messages hnot
    rw [statuses_of_messageWords hsaid] at htold
    exact Nat.lt_irrefl 0 htold
  · intro hover
    have hin : c.pool.contains f.callId = true := by
      obtain ⟨_, hstands, -⟩ := (Option.any_eq_true _ _).1 hover
      rw [Pool.contains_eq, hstands]
      rfl
    refine ⟨leavesOver_of_ok hread hkind hp hin, ?_, ?_⟩
    · obtain ⟨accepted, c', since, hsince⟩ := inUseSince_of_start hreach hin
      have hanswered := hsince.isAnswered hreach
      obtain ⟨result, houtcome, hsaid, -⟩ := hanswered.status hover
      refine ⟨accepted, c', since, result, hsince, houtcome, fun hopen hfits => ?_⟩
      rcases hsaid with hsaid | ⟨-, hclosed | hlong⟩
      · refine ⟨accepted, c', since, hsince, ?_⟩
        rw [statuses_of_statusWord hanswered.own hsaid]
        exact Nat.one_pos
      · cases hopen.symm.trans hclosed
      · cases hfits.symm.trans hlong
    · obtain ⟨ns, d, hns, hr, hserving, hunread, hfree⟩ :=
        frees_number (s := s) (sound_of_run? hreach) hread.serving hover
      have hreads : d.Reads s f rest := ⟨hserving, hunread ▸ hread.decoded⟩
      exact ⟨ns, d, hns, hr, accepts_of_ok hreads hkind hp hfree⟩

/-- The same request twice: the loop leaves over the second, and the first has not been answered. -/
theorem left_before_the_status :
    let s : Server Unit Unit :=
      ⟨⟨fun _ => 0, rfl⟩, ⟨fun _ => .finish (.ok ()), fun _ w => w⟩, fun _ => .error .cancelled⟩
    let f : Frame := ⟨.call, 1, Payload.toBytes (⟨"", "", []⟩ : CallRequest), by decide⟩
    let data := f.toBytes s.checksum
    let ms : List Move := [.arrive (data ++ data), .read]
    ∃ c, (start ()).run? s ms = some c ∧ c.Reads s f [] ∧ c.LeavesOver s f ∧
      ¬ HasTold s () ms 1 := by
  intro s f data ms
  have hp : (Payload.ofBytes f.payload : Except GatewayError CallRequest) = .ok ⟨"", "", []⟩ :=
    CallRequest.ofBytes_toBytes (by decide)
  let first : Connection Unit Unit := arrived () (data ++ data)
  have hread : first.Reads s f data := reads_toBytes rfl rfl
  obtain ⟨pool, hspawn, hstep⟩ := step?_accept hread rfl hp rfl
  have hstands : pool.standing? 1 = some (true, .refused .cancelled) := by
    rw [Pool.standing?_spawn hspawn, Function.update_self]
    rfl
  let c : Connection Unit Unit := { first with unread := data, pool }
  have hreach : (start ()).run? s ms = some c :=
    run?_cons.2 ⟨first, step?_arrive () _, run?_cons.2 ⟨c, hstep, rfl⟩⟩
  have hreads : c.Reads s f [] := reads_last rfl rfl
  have hlive : c.pool.contains 1 = true := by
    rw [Pool.contains_eq, hstands]
    rfl
  have hover : c.isOver 1 = false := by
    rw [isOver, hstands]
    rfl
  obtain ⟨-, hleaves, hnot, -⟩ := leaves_over_number_in_use s () hreach hreads rfl hp
  exact ⟨c, hreach, hreads, hleaves hlive, hnot hover⟩

/-- **A call tells its caller how it ended**, if the status fits a frame and there is room. -/
theorem tell?_told {call : Call ω σ} {shared : Shared ω} {result : Except GatewayError Unit}
    {g : Frame} (hg : Frame.status call.id (Status.ofResult result) = .ok g)
    (hopen : shared.outbox.isOpen = true)
    (hroom : shared.outbox.queue.length < shared.outbox.capacity) :
    call.tell? shared result = some ({ call with stage := .reporting },
      { shared with
        outbox := { shared.outbox with queue := shared.outbox.queue ++ [g] } }) := by
  simp only [Call.tell?, hg, Outbox.put?_of_room hopen hroom]

/-- **A call without a handler tells its caller, and its number is still in use** when the status has
been written and more octets have arrived. -/
theorem in_use_after_status {call : Call ω σ} {e : GatewayError} {g : Frame} (data : Bytes)
    (hcall : c.pool.call? id = some call) (hsup : call.supervised = true)
    (hst : call.stage = .refused e) (hg : Frame.status id (.ofError e) = .ok g)
    (hopen : c.shared.outbox.isOpen = true) (hqueue : c.shared.outbox.queue = [])
    (hroom : 0 < c.shared.outbox.capacity) (hup : c.hungUp = false) :
    let ms : List Move := [.pool (.poll id), .pool (.poll id), .write, .arrive data]
    ∃ d, c.run? s ms = some d ∧ d.written = c.written ++ [g] ∧ d.stage = c.stage ∧
      d.unread = c.unread ++ data ∧ (∀ k ∈ c.visited s ms, k.pool.contains id = true) ∧
      c.framesSaid s id ms = [g] := by
  intro ms
  have hid := Pool.id_of_call? hcall
  -- The call ends, tells its caller, the writer writes the status, and octets arrive.
  let done : Call ω σ := call.conclude (.error e)
  have hid' : done.id = id := hid
  have hstage : done.stage = .ended (.error e) := Call.stage_conclude hsup _
  let c₁ : Connection ω σ := { c with pool := c.pool.replace done }
  have h₁ : c.step? s (.pool (.poll id)) = some c₁ := poll_refused hcall hst
  have hcall₁ : c₁.pool.call? id = some done := by
    rw [Pool.call?_replace hcall hid', if_pos rfl]
  let told : Call ω σ := { done with stage := .reporting }
  let outbox : Outbox := { c.shared.outbox with queue := [g] }
  let c₂ : Connection ω σ :=
    { c₁ with pool := c₁.pool.replace told, shared := { c.shared with outbox } }
  have htell : done.tell? c₁.shared (.error e) = some (told, { c.shared with outbox }) := by
    have hg' : Frame.status done.id (Status.ofResult (.error e : Except _ Unit)) = .ok g :=
      hid'.symm ▸ hg
    have hempty : c₁.shared.outbox.queue = [] := hqueue
    rw [tell?_told hg' hopen (by rwa [hempty]), hempty]
    rfl
  have h₂ : c₁.step? s (.pool (.poll id)) = some c₂ := poll_ended hcall₁ hstage htell
  have hcall₂ : c₂.pool.call? id = some told := by
    rw [Pool.call?_replace hcall₁ (show told.id = id from hid), if_pos rfl]
  let c₃ : Connection ω σ :=
    { c₂ with shared := { c.shared with outbox := { outbox with queue := [] } }
              written := c.written ++ [g] }
  have h₃ : c₂.step? s .write = some c₃ := rfl
  have h₄ : c₃.step? s (.arrive data) = some { c₃ with unread := c.unread ++ data } := by
    rw [step?, show c₃.hungUp = false from hup]
    rfl
  have hin {k : Connection ω σ} {other : Call ω σ} (hk : k.pool.call? id = some other) :
      k.pool.contains id = true := by
    rw [Pool.contains, hk]
    rfl
  refine ⟨_, run?_cons.2 ⟨_, h₁, run?_cons.2 ⟨_, h₂, run?_cons.2 ⟨_, h₃, run?_cons.2
    ⟨_, h₄, rfl⟩⟩⟩⟩, rfl, rfl, rfl, ?_, ?_⟩
  · rw [visited_cons h₁, visited_cons h₂, visited_cons h₃, visited_cons h₄]
    intro k hk
    simp only [visited, List.mem_cons, List.not_mem_nil, or_false] at hk
    rcases hk with rfl | rfl | rfl | rfl | rfl
    · exact hin hcall
    · exact hin hcall₁
    all_goals exact hin hcall₂
  · have hfirst : c.queuedBy c₁ = [] := queuedBy_of_same rfl
    have hsecond : c₁.queuedBy c₂ = [g] := by
      refine queuedBy_of_queue rfl ?_
      show [g] = c.shared.outbox.queue ++ [g]
      rw [hqueue]
      rfl
    have hcaller : (Move.pool (.poll id)).caller? = some id := rfl
    rw [framesSaid, along_cons _ h₁, along_cons _ h₂, along_cons _ h₃, along_cons _ h₄, saidBy,
      if_pos hcaller, hfirst, saidBy, if_pos hcaller, hsecond]
    rfl

/-- A request for a service that does not exist, and the same request again after its status has been
written: the loop leaves over it. -/
theorem closed_after_the_status :
    let g : Gateway := ⟨"/media", ⟨"/staging", "/install", "1"⟩, fun _ _ _ => none, ⟨0⟩⟩
    let s := g.server
    let world : GatewayWorld := ⟨⟨[], [], [], 0⟩, .new⟩
    let f : Frame := ⟨.call, 1, Payload.toBytes (⟨"radio", "", []⟩ : CallRequest), by decide⟩
    let data := f.toBytes s.checksum
    let ms : List Move :=
      [.arrive data, .read, .pool (.poll 1), .pool (.poll 1), .write, .arrive data]
    ∃ c, (start world).run? s ms = some c ∧ statuses 1 c.written = 1 ∧ c.Reads s f [] ∧
      HasTold s world ms 1 ∧ c.LeavesOver s f := by
  intro g s world f data ms
  have hp : (Payload.ofBytes f.payload : Except GatewayError CallRequest) =
    .ok ⟨"radio", "", []⟩ := CallRequest.ofBytes_toBytes (by decide)
  have haccept : s.accept ⟨"radio", "", []⟩ = .error (.notFound "service radio") :=
    g.accept_of_unknown (by intro group _; cases group <;> decide)
  let first : Connection GatewayWorld HandlerState := arrived world data
  have hread : first.Reads s f [] := reads_last rfl rfl
  obtain ⟨pool, hspawn, hstep⟩ := step?_accept hread rfl hp rfl
  have hnew : pool.call? 1 = some (.start 1 true (.opening (s.accept ⟨"radio", "", []⟩))) := by
    rw [Pool.call?_spawn hspawn]
    rfl
  obtain ⟨status, hstatus⟩ : ∃ status,
      Frame.status 1 (.ofError (.notFound "service radio")) = .ok status :=
    Frame.status_eq_ok_iff.2 (by decide)
  have hone : statuses 1 [status] = 1 := statuses_of_status hstatus
  let c₁ : Connection GatewayWorld HandlerState := { first with unread := [], pool }
  let since : List Move := [.pool (.poll 1), .pool (.poll 1), .write, .arrive data]
  obtain ⟨c, hrun, hwritten, hserving, hunread, hin, hsaid⟩ :=
    in_use_after_status (s := s) (c := c₁) data hnew rfl (by rw [haccept]; rfl) hstatus rfl rfl
      (show 0 < outboxCapacity by decide) rfl
  have hall : (start world).run? s ms = some c :=
    run?_cons.2 ⟨first, step?_arrive world data, run?_cons.2 ⟨c₁, hstep, hrun⟩⟩
  have hsince : InUseSince s (start world) ms 1 (s.accept ⟨"radio", "", []⟩) c₁ since :=
    ⟨⟨[.arrive data], first, rfl, run?_arrive world data, hstep⟩, hnew, hin, hrun.trans hall.symm⟩
  have hreads : c.Reads s f [] := reads_last hserving hunread
  have hlive : c.pool.contains 1 = true := hin c (mem_visited_of_run? hrun)
  refine ⟨c, hall, ?_, hreads, ⟨_, c₁, since, hsince, ?_⟩, leavesOver_of_ok hreads rfl hp hlive⟩
  · rw [hwritten]
    exact hone
  · rw [hsaid, hone]
    exact Nat.one_pos

end Connection

end DeviceGateway
