import DeviceGateway.Proofs.Server.Attending
import DeviceGateway.Proofs.Server.Manners
import DeviceGateway.Proofs.Server.ReusedNumbers

/-!
# Answers that are ready

A handler with its answer ready is about to send it as one message, and is done then however that
goes; or it has failed (`Handler.Gives`). What becomes of the answer is known: a message that does not
fit a frame is not sent, and the call fails for this reason (`delivered`). So a call whose work leads
to an answer, and which nobody cancels, tells its caller this and nothing else
(`words_of_leads`). It also comes to its end, by steps that bring it on: the writer makes room, and the
call goes on (`ends_of_leads`).
-/

namespace DeviceGateway

variable {ω σ ν : Type}

/-- **A handler with its answer ready**, by the state in which it waits. -/
inductive Handler.Gives (h : Handler ω σ) : Except GatewayError Bytes → σ → Prop where
  | message {m : Bytes} {state : σ} {next : Except GatewayError Unit → Job ω σ}
      (hawait : h.await state = .send m next)
      (hdone : ∀ sent, ∃ last, next sent = .done last ∧ h.await last = .finish sent) :
      Gives h (.ok m) state
  | failed {e : GatewayError} {state : σ} (hawait : h.await state = .finish (.error e)) :
      Gives h (.error e) state

/-- **What becomes of an answer**: what is sent of it, and how the call ends. -/
def delivered : Except GatewayError Bytes → List Bytes × Except GatewayError Unit
  | .ok m =>
    if m.length ≤ Frame.maxPayload then ([m], .ok ())
    else ([], .error (.payloadTooLarge m.length Frame.maxPayload))
  | .error e => ([], .error e)

/-- **A call on its way to an answer**, by what its handler has sent and returned. -/
inductive Delivering (h : Handler ω σ) (view : ω → ν) (answer : Except GatewayError Bytes)
    (sent : List Bytes) (returned : List (Except GatewayError Unit)) (s : Shared ω) (c : Call ω σ) :
    Prop where
  | working (hsent : sent = []) (hr : returned = [])
      (hstage : c.stage.Leads view (fun state _ => h.Gives answer state) (view s.world))
  /-- The handler has been dropped, or nobody writes any more, or the answer has been delivered. -/
  | done (hdone : c.stage.isDone = true)
      (hall : returned = [] ∨ s.outbox.isOpen = false ∨
        sent = (delivered answer).1 ∧ returned = [(delivered answer).2])

namespace Delivering

variable {h : Handler ω σ} {view : ω → ν} {answer : Except GatewayError Bytes} {sent : List Bytes}
  {returned : List (Except GatewayError Unit)} {c c' d : Call ω σ} {s s' u : Shared ω}
  {allWithdrawn : Bool}

/-! ## Steps of a call -/

/-- **What is sent of a message, and what the handler is told of it**, if somebody writes. -/
theorem delivered_of_send? {m : Bytes} {next : Except GatewayError Unit → Job ω σ}
    {result : Except GatewayError Unit} {outbox : Outbox} (ho : s.outbox.isOpen = true)
    (hsend : s.outbox.send? c.id m = some (result, outbox)) :
    c.posts s.outbox (.send m next) = (delivered (.ok m)).1 ∧ result = (delivered (.ok m)).2 := by
  simp only [Call.posts, hsend, delivered]
  cases Outbox.sends_of_send? hsend with
  | tooLarge hlong =>
      rw [if_neg (Nat.not_le.2 hlong)]
      exact ⟨rfl, rfl⟩
  | closed _ hclosed => cases hclosed.symm.trans ho
  | sent hfits =>
      rw [if_pos hfits]
      exact ⟨rfl, rfl⟩

theorem closed_of_send? {b b' : Outbox} {id : UInt64} {m : Bytes}
    {result : Except GatewayError Unit} (hc : b.isOpen = false)
    (hsend : b.send? id m = some (result, b')) : b'.isOpen = false := by
  rcases Outbox.put?_of_send? hsend with rfl | ⟨f, -, -, hput⟩
  · exact hc
  · exact absurd hput (Outbox.put?_of_closed hc)

/-- The handler is done. -/
theorem of_ended {result : Except GatewayError Unit} (hstays : c.isCancelled allWithdrawn = false)
    (hl : c.stage.isLive = true) (hst : c'.stage = .ended result)
    (hall : s'.outbox.isOpen = false ∨
      sent = (delivered answer).1 ∧ result = (delivered answer).2) :
    Delivering h view answer sent (c.returns allWithdrawn c') s' c' := by
  rw [Call.returns_of_ended hstays hl hst]
  refine .done (by rw [hst]; rfl) (.inr (hall.imp_right ?_))
  rintro ⟨hsent, rfl⟩
  exact ⟨hsent, rfl⟩

/-- **A handler that goes on** is still on its way, or has failed. -/
theorem of_resume (hstays : c.isCancelled allWithdrawn = false) (hl : c.stage.isLive = true)
    (hsup : d.supervised = true) {j : Job ω σ} {w : ω}
    (hj : j.Leads view (fun state _ => h.Gives answer state) (view w))
    (hr : Call.resume h d u j w = (c', s')) :
    Delivering h view answer [] (c.returns allWithdrawn c') s' c' := by
  rcases Call.leads_of_resume hr hj with ⟨hstage, -⟩ | ⟨state, result, hgives, hfinish, hc⟩
  · rw [Call.returns_of_going_on (CallStage.isLive_of_leads hstage)]
    exact .working rfl rfl hstage
  · have hst : c'.stage = .ended result := by
      rw [hc, Call.stage_conclude hsup]
    cases hgives with
    | message hawait => cases hawait.symm.trans hfinish
    | failed hawait =>
        cases hawait.symm.trans hfinish
        exact of_ended hstays hl hst (.inr ⟨rfl, rfl⟩)

/-- **The handler goes on** to its answer, or sends it. -/
theorem of_resumes (hstays : c.isCancelled allWithdrawn = false) (hsup : c.supervised = true)
    (hstage : c.stage.Leads view (fun state _ => h.Gives answer state) (view s.world))
    {j : Job ω σ} (hres : Call.Resumes h allWithdrawn c s d u j)
    (hr : Call.resume h d u j s.world = (c', s')) :
    Delivering h view answer (c.sends h allWithdrawn s) (c.returns allWithdrawn c') s' c' := by
  have hl := hres.live
  cases hres with
  | started hst | carried hst =>
      rw [show c.sends h allWithdrawn s = [] by
        simp only [Call.sends, hstays, hst, Bool.false_eq_true, if_false]]
      exact of_resume hstays hl hsup (hstage.of_eq hst) hr
  | sent hst hat hsend =>
      have hgives : h.Gives answer _ := hstage.of_eq hst
      cases hgives with
      | message hawait hdone =>
          rw [Call.sends_of_awaiting hstays hst, hawait]
          cases hat.symm.trans hawait
          obtain ⟨last, hnext, hlast⟩ := hdone _
          rw [hnext, Call.resume, hlast] at hr
          cases hr
          refine of_ended hstays hl (Call.stage_conclude hsup _) ?_
          cases ho : s.outbox.isOpen with
          | false => exact .inl (closed_of_send? ho hsend)
          | true => exact .inr (delivered_of_send? ho hsend)
      | failed hawait => cases hat.symm.trans hawait
  | received hst hat | answered hst hat | withdrawn hst hat | deafened hst hat =>
      have hgives : h.Gives answer _ := hstage.of_eq hst
      cases hgives with
      | message hawait | failed hawait => cases hat.symm.trans hawait

/-- **The handler is done**, which it is in the end only if it has failed. -/
theorem of_finished (hstays : c.isCancelled allWithdrawn = false) (hsup : c.supervised = true)
    {state : σ} {result : Except GatewayError Unit} (hst : c.stage = .awaiting state)
    (hgives : h.Gives answer state) (hfinish : h.await state = .finish result) :
    Delivering h view answer (c.sends h allWithdrawn s)
      (c.returns allWithdrawn (c.conclude result)) s (c.conclude result) := by
  have hl : c.stage.isLive = true := by rw [hst]; rfl
  cases hgives with
  | message hawait => cases hawait.symm.trans hfinish
  | failed hawait =>
      cases hawait.symm.trans hfinish
      rw [Call.sends_of_awaiting hstays hst, hawait]
      exact of_ended hstays hl (Call.stage_conclude hsup _) (.inr ⟨rfl, rfl⟩)

section

variable (ha : Delivering h view answer sent returned s c)
include ha

/-- One step of the call. -/
theorem poll (hsup : c.supervised = true) (hp : c.poll? h allWithdrawn s = some (c', s')) :
    Delivering h view answer (sent ++ c.sends h allWithdrawn s) (returned ++ c.returns allWithdrawn c')
      s' c' := by
  cases ha with
  | done hdone hall =>
      have hl := CallStage.not_live_of_isDone hdone
      rw [Call.sends_of_not_live hl, Call.returns_of_not_live hl, List.append_nil, List.append_nil]
      refine .done (Call.world_poll?_of_done hdone hp).2 (hall.imp_right (Or.imp_left ?_))
      exact (Call.advances_of_poll? hp).2.2.closed
  | working hsent hr hstage =>
      have hl := CallStage.isLive_of_leads hstage
      rw [hsent, hr, List.nil_append, List.nil_append]
      cases Call.polls_of_poll? hp with
      | dropped hcancelled =>
          rw [Call.returns_of_cancelled hcancelled]
          refine .done ?_ (.inl rfl)
          rw [Call.stage_conclude hsup]
          rfl
      | resumed hstays hres hr => exact of_resumes hstays hsup hstage hres hr
      | finished hstays hst hfinish => exact of_finished hstays hsup hst (hstage.of_eq hst) hfinish
      | refused hst | told hst => cases hstage.of_eq hst

/-- The system carries out a step for it. -/
theorem carry (hp : c.carry? s = some (c', s')) :
    Delivering h view answer sent (returned ++ c.returns allWithdrawn c') s' c' := by
  obtain ⟨hl, hl'⟩ := Call.live_of_carry? hp
  rw [Call.returns_of_going_on hl', List.append_nil]
  cases ha with
  | working hsent hr hstage => exact .working hsent hr (Call.leads_carry? hp hstage).1
  | done hdone =>
      rw [CallStage.not_live_of_isDone hdone] at hl
      cases hl

/-- A handler with its answer ready asks no provider. -/
theorem expire?_eq_none : c.expire? h s = none := by
  refine Option.eq_none_iff_forall_ne_some.2 fun _ he => ?_
  obtain ⟨state, limit, next, hst, hat, -⟩ := Call.expire?_eq_some_iff.1 he
  cases ha with
  | done hdone =>
      rw [hst] at hdone
      cases hdone
  | working _ _ hstage =>
      have hgives : h.Gives answer state := hstage.of_eq hst
      cases hgives with
      | message hawait | failed hawait => cases hat.symm.trans hawait

end

/-- **A call stays on its way to its answer.** -/
theorem keptBy : Connection.Record.KeptBy (Delivering h view answer) h view where
  acts ha hsup hacts := by
    cases hacts with
    | poll hp =>
        rw [if_pos rfl]
        exact ha.poll hsup hp
    | carry hp =>
        rw [if_neg (fun hno => by cases hno), List.append_nil]
        exact ha.carry hp
    | expire hp => cases ha.expire?_eq_none.symm.trans hp
    | report hst =>
        have hl : CallStage.isLive _ = false := congrArg CallStage.isLive hst
        rw [if_neg (fun hno => by cases hno), Call.returns_of_not_live hl, List.append_nil,
          List.append_nil]
        cases ha with
        | working _ _ hstage =>
            rw [CallStage.isLive_of_leads hstage] at hl
            cases hl
        | done _ hall => exact .done rfl hall
  leaves ha hleaves hview hclosed := by
    cases ha with
    | working hsent hr hstage => exact .working hsent hr (hview.symm ▸ hleaves.stage.symm ▸ hstage)
    | done hdone hall => exact .done (hleaves.stage ▸ hdone) (hall.imp_right (Or.imp_left hclosed))

end Delivering

namespace Connection

/-- **What the caller is told of an answer.** -/
def answerWords (answer : Except GatewayError Bytes) : List Word :=
  messageWords (delivered answer).1 ++ [statusWord (delivered answer).2]

variable {s : Server ω σ} {view : ω → ν} {answer : Except GatewayError Bytes} {id : UInt64}
  {c c' d : Connection ω σ} {call : Call ω σ} {m : Move} {ms ns : List Move} {job : Job ω σ}

/-! ## What is said -/

/-- **A call that is over and was not cancelled** has told its caller the answer, if the outbox is
open and the status fits a frame. -/
theorem words_of_leads
    (hjob : job.Leads view (fun state _ => s.handler.Gives answer state) (view c.shared.world))
    (hfound : c.pool.call? id = some (.start id true (.opening (.ok job))))
    (hfits : (Status.ofResult (delivered answer).2).fits = true) (hr : c.run? s ms = some d)
    (hin : ∀ e ∈ c.visited s ms, e.pool.contains id = true)
    (hothers : Throughout s (OthersLeave s view id) c ms)
    (hstays : ∀ e ∈ c.visited s ms, e.isCancelled id = false)
    (hopen : d.shared.outbox.isOpen = true) (hover : d.isOver id = true) :
    (c.framesSaid s id ms).map Frame.word = answerWords answer := by
  have hstart : Recorded (Delivering s.handler view answer) id [] [] c
      (.start id true (.opening (.ok job))) := ⟨hfound, rfl, .working rfl rfl hjob⟩
  obtain ⟨call, hend, -, hrecord⟩ := recorded_of_run? hstart Delivering.keptBy hr hin hothers
  rw [List.nil_append, List.nil_append] at hrecord
  have hanswered : IsAnswered s (.ok job) id c ms d := (Answering.start hfound).isAnswered hr hin
  obtain ⟨result, houtcome, hsaid, -⟩ := hanswered.status hover
  have hreturned : c.resultsReturned s id ms = [result] := by
    cases houtcome with
    | returned hone => exact hone
    | cancelled _ hc =>
        obtain ⟨e, he, hcancelled⟩ := hc
        rw [hstays e he] at hcancelled
        cases hcancelled
    | refused haccepted => cases haccepted
  rw [isOver, Pool.standing?_of_call? hend, Option.any_some] at hover
  rw [hreturned] at hrecord
  cases hrecord with
  | working _ hnone => cases hnone
  | done _ hall =>
      rcases hall with hnone | hclosed | ⟨hsent, hresult⟩
      · cases hnone
      · cases hopen.symm.trans hclosed
      · obtain rfl := (List.cons.inj hresult).1
        rw [hsent] at hsaid
        refine hsaid.resolve_right ?_
        rintro ⟨-, hclosed | hlong⟩
        · cases hopen.symm.trans hclosed
        · cases hfits.symm.trans hlong

/-! ## Coming to an end -/

/-- **The call comes to its end**, by steps that bring it on, and is not cancelled meanwhile. -/
def Ends (s : Server ω σ) (id : UInt64) (c : Connection ω σ) : Prop :=
  ∃ ms d, c.run? s ms = some d ∧ (∀ m ∈ ms, m.helps id = true) ∧
    (∀ e ∈ c.visited s ms, e.pool.contains id = true ∧ e.isCancelled id = false) ∧
    d.shared.outbox.isOpen = true ∧ d.isOver id = true

theorem Ends.of_over (hcall : c.pool.call? id = some call) (hst : call.stage.isOver = true)
    (hopen : c.shared.outbox.isOpen = true) : Ends s id c := by
  refine ⟨[], c, rfl, nofun, ?_, hopen, ?_⟩
  · intro e he
    rw [visited, List.mem_singleton] at he
    subst he
    refine ⟨Pool.contains_of_call? hcall, ?_⟩
    rw [isCancelled_of_call? hcall]
    exact Call.not_isCancelled (CallStage.not_live_of_isDone (CallStage.isDone_of_isOver hst))
  · rw [isOver, Pool.standing?_of_call? hcall, Option.any_some]
    exact hst

theorem Ends.of_step (h : Ends s id c') (hm : c.step? s m = some c') (hhelps : m.helps id = true)
    (hcall : c.pool.call? id = some call) (hnot : c.isCancelled id = false) : Ends s id c := by
  obtain ⟨ms, d, hr, hall, hin, hend⟩ := h
  refine ⟨m :: ms, d, run?_cons.2 ⟨c', hm, hr⟩, ?_, ?_, hend⟩
  · rintro k (- | ⟨-, hk⟩)
    · exact hhelps
    · exact hall k hk
  · rw [visited_cons hm]
    rintro e (- | ⟨-, he⟩)
    · exact ⟨Pool.contains_of_call? hcall, hnot⟩
    · exact hin e he

/-- The writer has written everything. -/
def drained (c : Connection ω σ) : Connection ω σ :=
  { c with shared := { c.shared with outbox := { c.shared.outbox with queue := [] } }
           written := c.written ++ c.shared.outbox.queue }

/-- The writer writes the first frame that waits. -/
theorem writes_first {f : Frame} {rest : List Frame} (hq : c.shared.outbox.queue = f :: rest) :
    ∃ c', c.step? s .write = some c' ∧ c'.pool = c.pool ∧ c'.drained = c.drained ∧
      c'.shared.outbox.queue = rest := by
  let outbox := { c.shared.outbox with queue := rest }
  refine ⟨{ c with shared := { c.shared with outbox }, written := c.written ++ [f] }, ?_, rfl, ?_,
    rfl⟩
  · simp only [step?, write?, Outbox.take?, hq, Option.map_some, outbox]
  · simp only [drained, hq, List.append_assoc, List.singleton_append, outbox]

/-- The writer makes room. -/
theorem Ends.of_drained (hcall : c.pool.call? id = some call) (hnot : c.isCancelled id = false)
    (h : Ends s id c.drained) : Ends s id c := by
  generalize hq : c.shared.outbox.queue = queue
  induction queue generalizing c with
  | nil =>
      have hsame : c.drained = c := by
        rw [drained, hq, List.append_nil, ← hq]
      rwa [hsame] at h
  | cons f rest ih =>
      obtain ⟨c', hstep, hpool, hsame, hrest⟩ := writes_first (s := s) hq
      have hnot' : c'.isCancelled id = false := by rwa [isCancelled, hpool]
      exact (ih (hpool ▸ hcall) hnot' (hsame ▸ h) hrest).of_step hstep rfl hcall hnot

/-- A call whose handler is done tells its caller. -/
theorem ends_of_ended {result : Except GatewayError Unit} (hcall : c.pool.call? id = some call)
    (hst : call.stage = .ended result) (hopen : c.shared.outbox.isOpen = true)
    (hroom : 0 < c.shared.outbox.capacity) : Ends s id c := by
  have hnot : c.isCancelled id = false := by
    rw [isCancelled_of_call? hcall]
    exact Call.not_isCancelled (by rw [hst]; rfl)
  refine .of_drained hcall hnot ?_
  obtain ⟨e, hstep, hover, hopen'⟩ := poll_tells (s := s) (c := c.drained) hcall hst hopen hroom
  obtain ⟨⟨sup, stage⟩, hs, hstage⟩ := (Option.any_eq_true _ _).1 hover
  obtain ⟨call', hcall', hstands⟩ := Option.map_eq_some_iff.1 hs
  have hover' : call'.stage.isOver = true := by
    rw [(Prod.mk.inj hstands).2]
    exact hstage
  exact (Ends.of_over hcall' hover' hopen').of_step hstep (beq_self_eq_true id) hcall hnot

section

variable {inbox : Inbox} {inHand : List Bytes} (hr : Ready id inbox inHand c call)
include hr

theorem Ready.not_isCancelled : c.isCancelled id = false := by
  rw [isCancelled_of_call? hr.found, Call.isCancelled, hr.staying, hr.going, Bool.or_false,
    Bool.and_false, Bool.false_and]

/-- A call whose handler is done after its next step. -/
theorem ends_of_concluded (hsup : call.supervised = true) {result : Except GatewayError Unit}
    {shared : Shared ω}
    (hp : call.poll? s.handler false c.shared = some (call.conclude result, shared))
    (hopen : c.shared.outbox.isOpen = true) : Ends s id c := by
  obtain ⟨hstep, hr'⟩ := hr.poll hp
  have halike := (Call.advances_of_poll? hp).2.2.alike
  have hopen' : shared.outbox.isOpen = true := halike.1.trans hopen
  exact (ends_of_ended hr'.found (Call.stage_conclude hsup _) hopen' hr'.room).of_step hstep (beq_self_eq_true id)
    hr.found hr.not_isCancelled

/-- **A handler with its answer ready** sends it, for the writer makes room, and is done. -/
theorem ends_of_awaiting (hsup : call.supervised = true) (hopen : c.shared.outbox.isOpen = true)
    {state : σ} (hst : call.stage = .awaiting state) (hgives : s.handler.Gives answer state) :
    Ends s id c := by
  refine .of_drained hr.found hr.not_isCancelled ?_
  have hr' : Ready id inbox inHand c.drained call :=
    ⟨hr.found, hr.staying, hr.going, hr.room, hr.holds, hr.handing⟩
  have hpoll := hr'.waiting (s := s) hst
  cases hgives with
  | @message m _ next hawait hdone =>
      obtain ⟨⟨result, outbox⟩, hsend⟩ := Option.isSome_iff_exists.1
        (Outbox.isSome_send? (b := c.drained.shared.outbox) hopen hr.room call.id m)
      obtain ⟨last, hnext, hlast⟩ := hdone result
      simp only [Call.proceed?, hawait, hsend, hnext, Call.resume, hlast] at hpoll
      exact ends_of_concluded hr' hsup hpoll hopen
  | failed hawait =>
      simp only [Call.proceed?, hawait] at hpoll
      exact ends_of_concluded hr' hsup hpoll hopen

/-- The system carries out the step that a call waits for. -/
theorem ends_of_handed {effect release : ω → ω} {next : ω → Job ω σ}
    (hst : call.stage = .handed effect release next)
    (hnext : ∀ c' call', Ready id inbox inHand c' call' →
      c'.shared = { c.shared with world := effect c.shared.world } →
      call' = { call with stage := .carried release (next c.shared.world) } → Ends s id c') :
    Ends s id c := by
  have hcarry : call.carry? c.shared =
      some ({ call with stage := .carried release (next c.shared.world) },
        { c.shared with world := effect c.shared.world }) := by rw [Call.carry?, hst]
  obtain ⟨hstep, hr'⟩ := hr.carry (s := s) hcarry
  exact (hnext _ _ (hr'.holding hr.holds) rfl rfl).of_step hstep (beq_self_eq_true id) hr.found
    hr.not_isCancelled

/-- **A call that goes on with a job** comes to the answer to which the job leads. The induction is on
what is left of the job. -/
theorem ends_of_polled (hsup : call.supervised = true) (hopen : c.shared.outbox.isOpen = true)
    {w : ω} (hj : job.Leads view (fun state _ => s.handler.Gives answer state) (view w))
    (hp : call.poll? s.handler false c.shared = some (call.resume s.handler c.shared job w)) :
    Ends s id c := by
  induction job generalizing c call w with
  | done state =>
      have hgives : s.handler.Gives answer state := hj
      rw [Call.resume] at hp
      cases hgives with
      | failed hawait =>
          rw [hawait] at hp
          exact ends_of_concluded hr hsup hp hopen
      | @message m _ next hawait hdone =>
          rw [hawait] at hp
          obtain ⟨hstep, hr'⟩ := hr.poll hp
          exact (ends_of_awaiting hr' hsup hopen rfl (.message hawait hdone)).of_step hstep
            (beq_self_eq_true id) hr.found hr.not_isCancelled
  | now effect next ih => exact ih w hr hsup hopen (hj w rfl) hp
  | blocking effect release next ih =>
      obtain ⟨hstep, hr'⟩ := hr.poll hp
      refine Ends.of_step ?_ hstep (beq_self_eq_true id) hr.found hr.not_isCancelled
      refine ends_of_handed hr' rfl ?_
      rintro c' call' hr'' hshared rfl
      have hpoll := hr''.resume (s := s) (.inr ⟨release, rfl⟩)
      have hopen' : c'.shared.outbox.isOpen = true := by rw [hshared]; exact hopen
      have hworld : c'.shared.world = effect w := by rw [hshared]
      rw [hworld] at hpoll
      exact ih w (hr''.holding hr.holds) hsup hopen' (hj w rfl) hpoll

/-- **A call on its way to an answer comes to its end**, wherever it stands. -/
theorem ends_of_leads (hsup : call.supervised = true) (hopen : c.shared.outbox.isOpen = true)
    (hstage : call.stage.Leads view (fun state _ => s.handler.Gives answer state)
      (view c.shared.world)) : Ends s id c := by
  cases hst : call.stage with
  | starting job =>
      rw [hst] at hstage
      exact ends_of_polled hr hsup hopen hstage (hr.resume (.inl hst))
  | carried release job =>
      rw [hst] at hstage
      exact ends_of_polled hr hsup hopen hstage (hr.resume (.inr ⟨release, hst⟩))
  | handed effect release next =>
      rw [hst] at hstage
      refine ends_of_handed hr hst ?_
      rintro c' call' hr' hshared rfl
      have hopen' : c'.shared.outbox.isOpen = true := by rw [hshared]; exact hopen
      have hleads : (next c.shared.world).Leads view (fun state _ => s.handler.Gives answer state)
          (view c'.shared.world) := by
        rw [hshared]
        exact hstage c.shared.world rfl
      exact ends_of_polled hr' hsup hopen' hleads (hr'.resume (.inr ⟨release, rfl⟩))
  | awaiting state =>
      rw [hst] at hstage
      exact ends_of_awaiting hr hsup hopen hst hstage
  | refused | ended | reporting | gone =>
      rw [hst] at hstage
      cases hstage

end

/-- **A call with a record of its answer comes to its end**, unless it has been cancelled. -/
theorem Recorded.ends {sent : List Bytes} {returned : List (Except GatewayError Unit)}
    (h : Recorded (Delivering s.handler view answer) id sent returned c call)
    (hnot : c.isCancelled id = false) (hopen : c.shared.outbox.isOpen = true)
    (hroom : 0 < c.shared.outbox.capacity) : Ends s id c := by
  obtain ⟨hfound, hsup, hrecord⟩ := h
  cases hrecord with
  | working _ _ hstage =>
      rw [isCancelled_of_call? hfound,
        Call.isCancelled_of_live hsup (CallStage.isLive_of_leads hstage), Bool.or_eq_false_iff]
        at hnot
      have hr : Ready id call.inbox (c.handing id) c call :=
        ⟨hfound, hnot.1, hnot.2, hroom, rfl, rfl⟩
      exact ends_of_leads hr hsup hopen hstage
  | done hdone =>
      cases hst : call.stage with
      | ended result => exact ends_of_ended hfound hst hopen hroom
      | reporting | gone => exact .of_over hfound (by rw [hst]; rfl) hopen
      | starting | refused | awaiting | handed | carried =>
          rw [hst] at hdone
          cases hdone

/-! ## The answer -/

theorem mem_visited_append (hr : c.run? s ms = some d) {e : Connection ω σ}
    (he : e ∈ c.visited s (ms ++ ns)) : e ∈ c.visited s ms ∨ e ∈ d.visited s ns := by
  induction ms generalizing c with
  | nil =>
      cases hr
      exact .inr he
  | cons m ms ih =>
      obtain ⟨k, hm, hr⟩ := run?_cons.1 hr
      rw [List.cons_append, visited_cons hm] at he
      rw [visited_cons hm]
      rcases List.mem_cons.1 he with rfl | he
      · exact .inl List.mem_cons_self
      · exact (ih hr he).imp_left (List.mem_cons_of_mem _)

theorem throughout_append {P : Connection ω σ → Move → Prop} (hr : c.run? s ms = some d)
    (hms : Throughout s P c ms) (hns : Throughout s P d ns) : Throughout s P c (ms ++ ns) := by
  induction ms generalizing c with
  | nil =>
      cases hr
      exact hns
  | cons m ms ih =>
      obtain ⟨k, hm, hr⟩ := run?_cons.1 hr
      obtain ⟨hnow, hafter⟩ := (throughout_cons hm).1 hms
      exact (throughout_cons hm).2 ⟨hnow, ih hr hafter⟩

theorem Move.isOthers_of_helps (h : m.helps id = true) : m.isOthers id = false := by
  cases m with
  | pool move =>
      cases move with
      | poll i | carry i | expire i =>
          obtain rfl := beq_iff_eq.1 h
          exact bne_self_eq_false _
      | report | orphan => cases h
  | _ => rfl

/-- **A call comes to say certain words**: when it is over it has said them and nothing else, and it
comes to be over by itself. -/
structure ComesToSay (s : Server ω σ) (id : UInt64) (words : List Word) (c : Connection ω σ)
    (ms : List Move) (d : Connection ω σ) : Prop where
  /-- All that is said under the number of the call is said by it, unless the loop refuses a request
  that comes under this number. -/
  alone : (∀ e ∈ c.visited s ms, ∀ g, e.stage = .rejecting g → g.callId ≠ id) →
    (c.framesQueued s ms).filter (·.callId == id) = c.framesSaid s id ms
  said : d.isOver id = true → (c.framesSaid s id ms).map Frame.word = words
  comes : ∃ more e, d.run? s more = some e ∧ (∀ m ∈ more, m.helps id = true) ∧
    e.isOver id = true ∧ (c.framesSaid s id (ms ++ more)).map Frame.word = words

/-- **A call whose work leads to an answer comes to say it**, as long as nobody cancels it, others
leave alone what it sees of the world, and its frames are written. -/
theorem comesToSay_of_leads
    (hjob : job.Leads view (fun state _ => s.handler.Gives answer state) (view c.shared.world))
    (hfound : c.pool.call? id = some (.start id true (.opening (.ok job))))
    (hfits : (Status.ofResult (delivered answer).2).fits = true)
    (hroom : 0 < c.shared.outbox.capacity) (hr : c.run? s ms = some d)
    (hin : ∀ e ∈ c.visited s ms, e.pool.contains id = true)
    (hothers : Throughout s (OthersLeave s view id) c ms)
    (hstays : ∀ e ∈ c.visited s ms, e.isCancelled id = false)
    (hopen : d.shared.outbox.isOpen = true) : ComesToSay s id (answerWords answer) c ms d := by
  have hanswered : IsAnswered s (.ok job) id c ms d := (Answering.start hfound).isAnswered hr hin
  refine ⟨hanswered.alone, words_of_leads hjob hfound hfits hr hin hothers hstays hopen, ?_⟩
  have hstart : Recorded (Delivering s.handler view answer) id [] [] c
      (.start id true (.opening (.ok job))) := ⟨hfound, rfl, .working rfl rfl hjob⟩
  obtain ⟨call, hrecorded⟩ := recorded_of_run? hstart Delivering.keptBy hr hin hothers
  have hroom' : 0 < d.shared.outbox.capacity := by rwa [capacity_of_run? rfl hr]
  obtain ⟨more, e, hmore, hhelps, hkept, hopen', hover⟩ :=
    hrecorded.ends (hstays d (mem_visited_of_run? hr)) hopen hroom'
  refine ⟨more, e, hmore, hhelps, hover, ?_⟩
  refine words_of_leads hjob hfound hfits (run?_append hr hmore) ?_ ?_ ?_ hopen' hover
  · intro k hk
    exact (mem_visited_append hr hk).elim (hin k) fun hk => (hkept k hk).1
  · exact throughout_append hr hothers
      (othersLeave_alone (fun m hm => Move.isOthers_of_helps (hhelps m hm)) d)
  · intro k hk
    exact (mem_visited_append hr hk).elim (hstays k) fun hk => (hkept k hk).2

end Connection

end DeviceGateway
