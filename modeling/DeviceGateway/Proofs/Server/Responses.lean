import DeviceGateway.Proofs.Call.Replying
import DeviceGateway.Proofs.Server.CallEnds
import DeviceGateway.Proofs.Server.Dialogue

/-!
# What a caller gets in answer to a call

The frames that a call puts into the outbox, whatever other calls put in between, are the messages
that its handler has sent, in order, and behind them at most one status (`Answering`). Every step of
the connection keeps this account of what has been said, sent and returned (`Answering.step`), and
so does every run (`answering_of_run?`), as long as the call is in the pool. The status is lost only
if it does not fit a frame or nobody writes any more, and it says that the call went well exactly if
the handler has returned so and was not cancelled before (`responses_are_well_formed`).
-/

namespace DeviceGateway

namespace Connection

variable {ω σ : Type}

/-! ## What is seen of a call -/

/-- The frames that a call puts into the outbox in a step. -/
def saidBy (id : UInt64) (c : Connection ω σ) (m : Move) (c' : Connection ω σ) : List Frame :=
  if m.caller? = some id then c.queuedBy c' else []

/-- What the handler of a call sends in a step. -/
def sentBy (s : Server ω σ) (id : UInt64) (c : Connection ω σ) : Move → List Bytes
  | .pool (.poll i) =>
    if i = id then
      match c.pool.call? id with
      | some call => call.sends s.handler c.pool.allWithdrawn c.shared
      | none => []
    else []
  | _ => []

/-- What the handler of a call returns in a step. -/
def returnedBy (id : UInt64) (c c' : Connection ω σ) : List (Except GatewayError Unit) :=
  match c.pool.call? id, c'.pool.call? id with
  | some call, some call' => call.returns c.pool.allWithdrawn call'
  | _, _ => []

/-- **Whether a call has been cancelled while its handler is at work.** -/
def isCancelled (c : Connection ω σ) (id : UInt64) : Bool :=
  (c.pool.call? id).any (·.isCancelled c.pool.allWithdrawn)

/-- What is seen of each step of a run, one after the other. -/
def along {α : Type} (seen : Connection ω σ → Move → Connection ω σ → List α) (s : Server ω σ)
    (c : Connection ω σ) : List Move → List α
  | [] => []
  | m :: ms =>
    match c.step? s m with
    | none => []
    | some c' => seen c m c' ++ along seen s c' ms

/-- **The frames that a call puts into the outbox** in a run. -/
def framesSaid (s : Server ω σ) (id : UInt64) : Connection ω σ → List Move → List Frame :=
  along (saidBy id) s

/-- **The messages that the handler of a call sends** in a run. -/
def messagesSent (s : Server ω σ) (id : UInt64) : Connection ω σ → List Move → List Bytes :=
  along (fun c m _ => c.sentBy s id m) s

/-- **What the handler of a call returns** in a run. -/
def resultsReturned (s : Server ω σ) (id : UInt64) :
    Connection ω σ → List Move → List (Except GatewayError Unit) :=
  along (fun c _ c' => c.returnedBy id c') s

variable {s : Server ω σ} {c c' d : Connection ω σ} {id : UInt64} {m : Move}
  {call call' : Call ω σ}

theorem along_cons {α : Type} (seen : Connection ω σ → Move → Connection ω σ → List α)
    {ms : List Move} (hm : c.step? s m = some c') :
    along seen s c (m :: ms) = seen c m c' ++ along seen s c' ms := by
  rw [along, hm]

theorem sentBy_of_ne {i : Pool.Move} (hne : i ≠ .poll id) : c.sentBy s id (.pool i) = [] := by
  cases i with
  | poll i => exact if_neg fun hi => hne (congrArg Pool.Move.poll hi)
  | _ => rfl

theorem sentBy_poll (hcall : c.pool.call? id = some call) :
    c.sentBy s id (.pool (.poll id)) = call.sends s.handler c.pool.allWithdrawn c.shared := by
  rw [sentBy, if_pos rfl, hcall]

theorem returnedBy_of_call? (hcall : c.pool.call? id = some call)
    (hcall' : c'.pool.call? id = some call') :
    c.returnedBy id c' = call.returns c.pool.allWithdrawn call' := by
  rw [returnedBy, hcall, hcall']

theorem isCancelled_of_call? (hcall : c.pool.call? id = some call) :
    c.isCancelled id = call.isCancelled c.pool.allWithdrawn := by
  rw [isCancelled, hcall, Option.any_some]

/-! ## What others do -/

/-- **What others put into the outbox under the number of a call** refuses a request that came under
this number. -/
theorem Step.rejecting_of_queued (hstep : Step s c m c') (hm : m.caller? ≠ some id) :
    ∀ g ∈ c.queuedBy c', g.callId = id → c.stage = .rejecting g := by
  have same (hs : c'.sent = c.sent) : ∀ g ∈ c.queuedBy c', g.callId = id →
      c.stage = .rejecting g := by
    intro g hg
    rw [queuedBy_of_same hs] at hg
    cases hg
  cases hstep with
  | @answer f outbox hs hput =>
      obtain ⟨-, -, rfl⟩ := Outbox.put?_eq_ok_iff.1 hput
      intro g hg _
      have hg : g ∈ [f] := mem_of_queuedBy hg rfl rfl
      rw [List.mem_singleton.1 hg]
      exact hs
  | pool hp =>
      obtain ⟨new, hq, hnew⟩ := hp.queue
      intro g hg hid
      have hcaller := (hnew g (mem_of_queuedBy hg rfl hq)).1
      exact absurd (hid ▸ hcaller) hm
  | @write f rest hq =>
      refine same ?_
      rw [sent, sent, hq, List.append_assoc]
      rfl
  | failWriting =>
      intro g hg
      rw [queuedBy_failWriting] at hg
      cases hg
  | _ => exact same rfl

/-- A call that has been withdrawn is not taken back. -/
theorem allWithdrawn_of_step (hstep : Step s c m c') (hall : c.pool.allWithdrawn = true) :
    c'.pool.allWithdrawn = true := by
  cases hstep with
  | stop => rfl
  | accept _ _ _ _ hl =>
      obtain ⟨-, rfl⟩ := Pool.spawn_eq_ok_iff.1 hl
      exact hall
  | notice _ hn =>
      obtain ⟨rest, -, rfl⟩ := Pool.notice?_eq_some_iff.1 hn
      exact hall
  | feed _ hf => exact (Pool.allWithdrawn_feed? hf).trans hall
  | @tear t =>
      cases t with
      | endMessages => exact hall
      | withdraw => exact hall
  | pool hp => exact hp.alike.1.trans hall
  | _ => exact hall

/-- **What others leave of a call**: it stands where it stood, and stays withdrawn if it was. -/
structure Leaves (call call' : Call ω σ) : Prop where
  stage : call'.stage = call.stage
  supervised : call'.supervised = call.supervised
  withdrawn : call.withdrawn = true → call'.withdrawn = true

theorem Leaves.refl (call : Call ω σ) : Leaves call call := ⟨rfl, rfl, fun hw => hw⟩

/-- Nothing is returned in a step that leaves a call alone. -/
theorem returnedBy_of_leaves (hcall : c.pool.call? id = some call)
    (hcall' : c'.pool.call? id = some call') (hleaves : Leaves call call') :
    c.returnedBy id c' = [] := by
  rw [returnedBy_of_call? hcall hcall']
  cases hl : call.stage.isLive with
  | true => exact Call.returns_of_going_on (hleaves.stage ▸ hl)
  | false => exact Call.returns_of_not_live hl

/-- **What is no step of the pool leaves a call alone** that stays in it. -/
theorem leaves_of_step (hstep : Step s c m c') (hm : ∀ move, m ≠ .pool move)
    (hcall : c.pool.call? id = some call) (hin : c'.pool.contains id = true) :
    ∃ call', c'.pool.call? id = some call' ∧ Leaves call call' := by
  have modified {p : Pool ω σ} {i : UInt64} {g : Call ω σ → Call ω σ}
      (hp : p.call? id = if id = i then (c.pool.call? id).map g else c.pool.call? id)
      (hg : Leaves call (g call)) : ∃ call', p.call? id = some call' ∧ Leaves call call' := by
    rw [hcall] at hp
    split at hp
    · exact ⟨_, hp, hg⟩
    · exact ⟨call, hp, .refl call⟩
  cases hstep with
  | pool hp => exact absurd rfl (hm _)
  | @accept f rest r pool _ _ _ _ hl =>
      have hne : id ≠ f.callId := by
        rintro rfl
        have hfree := (Pool.spawn_eq_ok_iff.1 hl).1
        rw [Pool.contains, hcall] at hfree
        cases hfree
      refine ⟨call, ?_, .refl call⟩
      rw [Pool.call?_spawn hl, if_neg hne, hcall]
  | halfClose => exact modified (Pool.call?_halfClose c.pool _ id) ⟨rfl, rfl, fun hw => hw⟩
  | cancel => exact modified (Pool.call?_cancel c.pool _ id) ⟨rfl, rfl, fun _ => rfl⟩
  | @tear t =>
      cases t with
      | endMessages i =>
          exact modified (Pool.call?_halfClose c.pool i id) ⟨rfl, rfl, fun hw => hw⟩
      | withdraw i => exact modified (Pool.call?_cancel c.pool i id) ⟨rfl, rfl, fun _ => rfl⟩
  | @notice i pool _ hn =>
      have hnotice := Pool.call?_notice hn id
      split at hnotice
      · change pool.contains id = true at hin
        rw [Pool.contains, hnotice] at hin
        cases hin
      · exact ⟨call, hnotice.trans hcall, .refl call⟩
  | @feed i message pool hs hf =>
      obtain ⟨hother, -, hsome⟩ := Pool.call?_feed? hf id
      by_cases hi : id = i
      · subst hi
        obtain ⟨inbox, -, hfed⟩ := hsome call hcall
        exact ⟨_, hfed, rfl, rfl, fun hw => hw⟩
      · exact ⟨call, (hother hi).trans hcall, .refl call⟩
  | _ => exact ⟨call, hcall, .refl call⟩

/-! ## The account of one call -/

/-- What a status says of how a call ended. -/
def statusWord (result : Except GatewayError Unit) : Word :=
  (.status, Payload.toBytes (Status.ofResult result))

/-- **Where the result of a call comes from**: its handler has returned it and was not cancelled
before, or it was cancelled and has not returned, or there is no handler. -/
inductive Outcome {α : Type} (accepted : Except GatewayError α)
    (returned : List (Except GatewayError Unit)) (cancelled : Prop) :
    Except GatewayError Unit → Prop where
  | returned {result : Except GatewayError Unit} (hr : returned = [result]) (hc : ¬ cancelled) :
      Outcome accepted returned cancelled result
  | cancelled (hr : returned = []) (hc : cancelled) :
      Outcome accepted returned cancelled (.error .cancelled)
  | refused {e : GatewayError} (ha : accepted = .error e) (hr : returned = []) (hc : ¬ cancelled) :
      Outcome accepted returned cancelled (.error e)

/-- **A status says that a call went well** exactly if its handler has returned so and was not
cancelled before. -/
theorem Outcome.code_eq_ok_iff {α : Type} {accepted : Except GatewayError α}
    {returned : List (Except GatewayError Unit)} {cancelled : Prop}
    {result : Except GatewayError Unit} (h : Outcome accepted returned cancelled result) :
    (Status.ofResult result).code = .ok ↔ .ok () ∈ returned ∧ ¬ cancelled := by
  have hcode : (Status.ofResult result).code = .ok ↔ result = .ok () := by
    cases result with
    | ok => exact iff_of_true rfl rfl
    | error e =>
        constructor
        · intro hok
          cases hok
        · intro hok
          cases hok
  rw [hcode]
  cases h with
  | returned hr hc =>
      rw [hr, List.mem_singleton, eq_comm]
      exact (and_iff_left hc).symm
  | cancelled hr hc =>
      constructor
      · intro hok
        cases hok
      · rintro ⟨-, hnot⟩
        exact absurd hc hnot
  | refused _ hr _ =>
      rw [hr]
      constructor
      · intro hok
        cases hok
      · rintro ⟨hmem, -⟩
        cases hmem

/-- **How a call has answered so far**, by how far it has got. -/
inductive Answer (accepted : Except GatewayError (Job ω σ)) (said : List Word) (sent : List Bytes)
    (returned : List (Except GatewayError Unit)) (cancelled : Prop) (c : Connection ω σ)
    (call : Call ω σ) : Prop where
  | working (hl : call.stage.isLive = true) (hsaid : said = messageWords sent)
      (hr : returned = []) (hc : cancelled → (call.withdrawn || c.pool.allWithdrawn) = true)
  | refused {e : GatewayError} (hst : call.stage = .refused e) (ha : accepted = .error e)
      (hsaid : said = messageWords sent) (hr : returned = []) (hc : ¬ cancelled)
  | ended {result : Except GatewayError Unit} (hst : call.stage = .ended result)
      (hsaid : said = messageWords sent) (ho : Outcome accepted returned cancelled result)
  | settled {result : Except GatewayError Unit} (hst : call.stage.isOver = true)
      (hsaid : said = messageWords sent ++ [statusWord result] ∨ said = messageWords sent ∧
        (c.shared.outbox.isOpen = false ∨ (Status.ofResult result).fits = false))
      (ho : Outcome accepted returned cancelled result)

/-- **The account of one call**: the frames that it has put into the outbox, by what its handler has
sent and returned. -/
structure Answering (accepted : Except GatewayError (Job ω σ)) (id : UInt64) (said : List Frame)
    (sent : List Bytes) (returned : List (Except GatewayError Unit)) (cancelled : Prop)
    (c : Connection ω σ) (call : Call ω σ) : Prop where
  found : c.pool.call? id = some call
  supervised : call.supervised = true
  own : ∀ f ∈ said, f.callId = id
  answer : Answer accepted (said.map Frame.word) sent returned cancelled c call

section

variable {accepted : Except GatewayError (Job ω σ)} {words : List Word} {said : List Frame}
  {sent : List Bytes} {returned : List (Except GatewayError Unit)} {cancelled : Prop}

/-- The state that a call is in now counts as well. -/
theorem Answer.now (h : Answer accepted words sent returned cancelled c call)
    (hsup : call.supervised = true) :
    Answer accepted words sent returned
      (cancelled ∨ call.isCancelled c.pool.allWithdrawn = true) c call := by
  have same (hl : call.stage.isLive = false) :
      (cancelled ∨ call.isCancelled c.pool.allWithdrawn = true) = cancelled := by
    rw [Call.not_isCancelled hl]
    simp
  cases h with
  | working hl hsaid hr hc =>
      refine .working hl hsaid hr ?_
      rintro (h | h)
      · exact hc h
      · rwa [Call.isCancelled_of_live hsup hl] at h
  | refused hst ha hsaid hr hc =>
      refine .refused hst ha hsaid hr ?_
      rwa [same (by rw [hst]; rfl)]
  | ended hst hsaid ho =>
      refine .ended hst hsaid ?_
      rwa [same (by rw [hst]; rfl)]
  | settled hst hsaid ho =>
      refine .settled hst hsaid ?_
      rwa [same]
      cases hstage : call.stage with
      | reporting | gone => rfl
      | starting | refused | awaiting | handed | carried | ended =>
          rw [hstage] at hst
          cases hst

/-- What leaves a call alone leaves its account as it is. -/
theorem Answer.of_leaves (h : Answer accepted words sent returned cancelled c call)
    (hl : Leaves call call')
    (hall : c.pool.allWithdrawn = true → c'.pool.allWithdrawn = true)
    (hclosed : c.shared.outbox.isOpen = false → c'.shared.outbox.isOpen = false) :
    Answer accepted words sent returned cancelled c' call' := by
  obtain ⟨hstage, -, hw⟩ := hl
  cases h with
  | working hl hsaid hr hc =>
      refine .working (hstage ▸ hl) hsaid hr ?_
      intro hcancelled
      have hwithdrawn := hc hcancelled
      rw [Bool.or_eq_true] at hwithdrawn ⊢
      exact hwithdrawn.imp hw hall
  | refused hst ha hsaid hr hc => exact .refused (hstage.trans hst) ha hsaid hr hc
  | ended hst hsaid ho => exact .ended (hstage.trans hst) hsaid ho
  | settled hst hsaid ho =>
      exact .settled (hstage ▸ hst) (hsaid.imp_right (And.imp_right (Or.imp_left hclosed))) ho

/-! ### Steps of the call -/

/-- **The handler goes on, or is done**, and has sent some messages meanwhile. A call that was
cancelled before is not done but cancelled. -/
theorem Answer.work (more : List Bytes) (h : Answer accepted words sent returned cancelled c call)
    (hsup : call.supervised = true) (hl : call.stage.isLive = true)
    (hgoes : call'.stage.isLive = true ∨ ∃ result, call'.stage = .ended result)
    (hdrop : ∀ result, call.isCancelled c.pool.allWithdrawn = true → call'.stage = .ended result →
      result = .error .cancelled)
    (hw : call'.withdrawn = call.withdrawn)
    (hall : c'.pool.allWithdrawn = c.pool.allWithdrawn) :
    Answer accepted (words ++ messageWords more) (sent ++ more)
      (returned ++ call.returns c.pool.allWithdrawn call')
      (cancelled ∨ call.isCancelled c.pool.allWithdrawn = true) c' call' := by
  cases h.now hsup with
  | working _ hsaid hr hc =>
      rw [hsaid, hr, ← messageWords_append, List.nil_append]
      rcases hgoes with hl' | ⟨result, hst'⟩
      · rw [Call.returns_of_going_on hl']
        refine .working hl' rfl rfl ?_
        rwa [hw, hall]
      · refine .ended hst' rfl ?_
        cases hcancelled : call.isCancelled c.pool.allWithdrawn with
        | true =>
            rw [hdrop result hcancelled hst', Call.returns_of_cancelled hcancelled]
            exact .cancelled rfl (.inr rfl)
        | false =>
            -- had the call been cancelled earlier, it would still be
            refine .returned (Call.returns_of_ended hcancelled hl hst') ?_
            intro hbefore
            rw [← hcancelled] at hbefore
            have hwithdrawn := hc hbefore
            rw [← Call.isCancelled_of_live hsup hl, hcancelled] at hwithdrawn
            cases hwithdrawn
  | refused hst | ended hst =>
      rw [hst] at hl
      cases hl
  | settled hst =>
      rw [CallStage.isOver_of_isLive hl] at hst
      cases hst

/-- **Telling a result puts one status into the outbox**, unless it does not fit a frame or nobody
writes any more. -/
theorem told_frames {b b' : Outbox} {result : Except GatewayError Unit}
    (ht : Call.Told id result b b') :
    ∃ new, b'.queue = b.queue ++ new ∧ (∀ f ∈ new, f.callId = id) ∧
      (new.map Frame.word = [statusWord result] ∨ new = [] ∧
        (b'.isOpen = false ∨ (Status.ofResult result).fits = false)) := by
  have none (hb : b' = b) (hlost : b'.isOpen = false ∨ (Status.ofResult result).fits = false) :
      ∃ new, b'.queue = b.queue ++ new ∧ (∀ f ∈ new, f.callId = id) ∧
        (new.map Frame.word = [statusWord result] ∨ new = [] ∧
          (b'.isOpen = false ∨ (Status.ofResult result).fits = false)) := by
    refine ⟨[], by rw [hb, List.append_nil], ?_, .inr ⟨rfl, hlost⟩⟩
    intro f hf
    cases hf
  cases ht with
  | sent f hf hput =>
      obtain ⟨hk, hid, hpayload⟩ := Frame.of_make hf
      obtain ⟨-, -, rfl⟩ := Outbox.put?_eq_ok_iff.1 hput
      refine ⟨[f], rfl, ?_, .inl ?_⟩
      · intro g hg
        rwa [List.mem_singleton.1 hg]
      · rw [List.map_singleton, Frame.word, hk, hpayload, statusWord]
  | closed f hf hc hb => exact none hb (.inl (hb ▸ hc))
  | tooLarge e hf hb =>
      refine none hb (.inr (eq_false_of_ne_true ?_))
      intro hfits
      obtain ⟨f, hok⟩ := Frame.status_eq_ok_iff.2 hfits
      cases hf.symm.trans hok

variable {p : Pool.Move} {pool' : Pool ω σ} {shared : Shared ω}

/-- **A handler that is done, or is not there, leads to one status.** -/
theorem Answer.settle (h : Answer accepted words sent returned cancelled c call)
    (hsup : call.supervised = true) (hl : call.stage.isLive = false)
    (ha : Call.Advance call c.shared.outbox call' shared.outbox) :
    ∃ new, shared.outbox.queue = c.shared.outbox.queue ++ new ∧ (∀ f ∈ new, f.callId = call.id) ∧
      Answer accepted (words ++ new.map Frame.word) sent returned cancelled
        { c with pool := pool', shared } call' := by
  cases ha with
  | worked hl' =>
      rw [hl] at hl'
      cases hl'
  | refused e hst hst' hb =>
      refine ⟨[], by rw [hb, List.append_nil], fun f hf => absurd hf List.not_mem_nil, ?_⟩
      rw [List.map_nil, List.append_nil]
      rw [CallStage.concluded, if_pos hsup] at hst'
      cases h with
      | working hl' =>
          rw [hl] at hl'
          cases hl'
      | refused hst'' haccepted hsaid hr hc =>
          cases hst.symm.trans hst''
          exact .ended hst' hsaid (.refused haccepted hr hc)
      | ended hst'' => cases hst.symm.trans hst''
      | settled hover =>
          rw [hst] at hover
          cases hover
  | told result hst hst' ht =>
      obtain ⟨new, hq, hid, hnew⟩ := told_frames ht
      refine ⟨new, hq, hid, ?_⟩
      cases h with
      | working hl' =>
          rw [hl] at hl'
          cases hl'
      | refused hst'' => cases hst.symm.trans hst''
      | ended hst'' hsaid ho =>
          cases hst.symm.trans hst''
          rw [hsaid]
          refine .settled (by rw [hst']; rfl) ?_ ho
          rcases hnew with hword | ⟨rfl, hlost⟩
          · exact .inl (by rw [hword])
          · exact .inr ⟨List.append_nil _, hlost⟩
      | settled hover =>
          rw [hst] at hover
          cases hover

/-- **What a step adds to the account of a call**: what is seen of the step. -/
def Adds (s : Server ω σ) (accepted : Except GatewayError (Job ω σ)) (id : UInt64)
    (said : List Frame) (sent : List Bytes) (returned : List (Except GatewayError Unit))
    (cancelled : Prop) (c : Connection ω σ) (m : Move) (c' : Connection ω σ) : Prop :=
  ∃ call', Answering accepted id (said ++ c.saidBy id m c') (sent ++ c.sentBy s id m)
    (returned ++ c.returnedBy id c') (cancelled ∨ c.isCancelled id = true) c' call'

namespace Answering

variable (h : Answering accepted id said sent returned cancelled c call)
include h

/-- The call takes a step of its own, and it is known what it puts into the outbox. -/
theorem adds_of_pool {new : List Frame} {more : List Bytes} (hp : p.caller? = some id)
    (hcall' : pool'.call? id = some call') (hsup : call'.supervised = true)
    (hq : shared.outbox.queue = c.shared.outbox.queue ++ new) (hnew : ∀ f ∈ new, f.callId = id)
    (hmore : c.sentBy s id (.pool p) = more)
    (hanswer : Answer accepted (said.map Frame.word ++ new.map Frame.word) (sent ++ more)
      (returned ++ call.returns c.pool.allWithdrawn call')
      (cancelled ∨ call.isCancelled c.pool.allWithdrawn = true)
      { c with pool := pool', shared } call') :
    Adds s accepted id said sent returned cancelled c (.pool p)
      { c with pool := pool', shared } := by
  have hqueued : c.queuedBy { c with pool := pool', shared } = new := queuedBy_of_queue rfl hq
  have hreturned : c.returnedBy id { c with pool := pool', shared } =
      call.returns c.pool.allWithdrawn call' := returnedBy_of_call? h.found hcall'
  have hown : Move.caller? (.pool p) = some id := hp
  refine ⟨call', ?_⟩
  rw [saidBy, if_pos hown, hqueued, hmore, hreturned, isCancelled_of_call? h.found]
  refine ⟨hcall', hsup, ?_, ?_⟩
  · intro f hf
    exact (List.mem_append.1 hf).elim (h.own f) (hnew f)
  · rwa [List.map_append]

/-- **The call takes a step of its own.** -/
theorem adds_of_acts (hcall' : pool'.call? id = some call')
    (hall : pool'.allWithdrawn = c.pool.allWithdrawn)
    (hacts : Pool.Acts s.handler c.pool c.shared id call p call' shared) :
    Adds s accepted id said sent returned cancelled c (.pool p)
      { c with pool := pool', shared } := by
  have hsup := h.supervised
  have hid := Pool.id_of_call? h.found
  -- In the steps in which nothing is said, the handler is at work.
  have silent (hp : p.caller? = some id) (hne : p ≠ .poll id) (hl : call.stage.isLive = true)
      (hsup' : call'.supervised = call.supervised)
      (hgoes : call'.stage.isLive = true ∨ ∃ result, call'.stage = .ended result)
      (hdrop : ∀ result, call.isCancelled c.pool.allWithdrawn = true →
        call'.stage = .ended result → result = .error .cancelled)
      (hw : call'.withdrawn = call.withdrawn) (hb : shared.outbox = c.shared.outbox) :
      Adds s accepted id said sent returned cancelled c (.pool p)
        { c with pool := pool', shared } := by
    refine h.adds_of_pool hp hcall' (hsup'.trans hsup) (by rw [hb, List.append_nil])
      (fun f hf => absurd hf List.not_mem_nil) (sentBy_of_ne hne) ?_
    exact h.answer.work [] hsup hl hgoes hdrop hw hall
  cases hacts with
  | poll hp =>
      obtain ⟨-, hsup', hadvance⟩ := Call.advances_of_poll? hp
      have hsent : c.sentBy s id (.pool (.poll id)) = _ := sentBy_poll h.found
      cases hl : call.stage.isLive with
      | true =>
          obtain ⟨new, hq, hnew, hwords⟩ := (Call.posts_of_poll? hl hp).frames
          refine h.adds_of_pool rfl hcall' (hsup'.trans hsup) hq (hid ▸ hnew) hsent ?_
          rw [hwords]
          refine h.answer.work _ hsup hl (hadvance.live_or_ended hsup hl) ?_
            (Call.sameOutside_of_poll? hp).1 hall
          intro result hcancelled hst
          cases hst.symm.trans (Call.ended_of_cancelled hcancelled hp)
          rfl
      | false =>
          obtain ⟨new, hq, hnew, hanswer⟩ := (h.answer.now hsup).settle hsup hl hadvance
          refine h.adds_of_pool rfl hcall' (hsup'.trans hsup) hq (hid ▸ hnew)
            (hsent.trans (Call.sends_of_not_live hl)) ?_
          rw [Call.returns_of_not_live hl, List.append_nil, List.append_nil]
          exact hanswer
  | carry hp =>
      obtain ⟨hl, hl'⟩ := Call.live_of_carry? hp
      refine silent rfl (fun hno => by cases hno) hl (Call.advances_of_carry? hp).2.1 (.inl hl') ?_
        (Call.sameOutside_of_carry? hp).1 (Call.outbox_carry? hp)
      intro result _ hst
      rw [hst] at hl'
      cases hl'
  | expire hp hstays =>
      obtain ⟨hl, hb⟩ := Call.of_expire? hp
      obtain ⟨-, hsup', hadvance⟩ := Call.advances_of_expire? hp
      refine silent rfl (fun hno => by cases hno) hl hsup' (hadvance.live_or_ended hsup hl) ?_
        (Call.sameOutside_of_expire? hp).1 hb
      intro result hcancelled _
      rw [Call.isCancelled, hstays, Bool.false_and] at hcancelled
      cases hcancelled
  | report hst =>
      have hl : call.stage.isLive = false := by
        rw [hst]
        rfl
      refine h.adds_of_pool rfl hcall' hsup (List.append_nil _).symm
        (fun f hf => absurd hf List.not_mem_nil) (sentBy_of_ne fun hno => by cases hno) ?_
      rw [Call.returns_of_not_live hl, List.map_nil, List.append_nil, List.append_nil,
        List.append_nil]
      cases h.answer.now hsup with
      | working hl' =>
          rw [hl] at hl'
          cases hl'
      | refused hst' | ended hst' => cases hst.symm.trans hst'
      | settled _ hsaid ho => exact .settled rfl hsaid ho

/-- What is no step of the call leaves its account as it is. -/
theorem adds_nothing (hm : m.caller? ≠ some id) (hsent : c.sentBy s id m = [])
    (hcall' : c'.pool.call? id = some call') (hleaves : Leaves call call')
    (hall : c.pool.allWithdrawn = true → c'.pool.allWithdrawn = true)
    (hclosed : c.shared.outbox.isOpen = false → c'.shared.outbox.isOpen = false) :
    Adds s accepted id said sent returned cancelled c m c' := by
  refine ⟨call', ?_⟩
  rw [saidBy, if_neg hm, hsent, returnedBy_of_leaves h.found hcall' hleaves,
    isCancelled_of_call? h.found, List.append_nil, List.append_nil, List.append_nil]
  exact ⟨hcall', hleaves.supervised.trans h.supervised, h.own,
    (h.answer.now h.supervised).of_leaves hleaves hall hclosed⟩

/-- **Every step keeps the account**, as long as the call is in the pool. -/
theorem step (hstep : Step s c m c') (hin : c'.pool.contains id = true) :
    Adds s accepted id said sent returned cancelled c m c' := by
  have hall := allWithdrawn_of_step hstep
  have hclosed := closed_of_step hstep
  by_cases hm : ∃ move, m = .pool move
  · obtain ⟨move, rfl⟩ := hm
    cases hstep with
    | pool hp =>
        rcases Pool.call?_of_step hp h.found with ⟨hsame, hne⟩ | ⟨call', hcall', hacts⟩
        · refine h.adds_nothing hne (sentBy_of_ne ?_) hsame (.refl call) hall hclosed
          rintro rfl
          exact hne rfl
        · exact h.adds_of_acts hcall' hp.alike.1 hacts
  · have hother : ∀ move, m ≠ .pool move := fun move hmove => hm ⟨move, hmove⟩
    obtain ⟨call', hcall', hleaves⟩ := leaves_of_step hstep hother h.found hin
    refine h.adds_nothing ?_ ?_ hcall' hleaves hall hclosed
    · cases m with
      | pool move => exact absurd rfl (hother move)
      | _ =>
          intro hno
          cases hno
    · cases m with
      | pool move => exact absurd rfl (hother move)
      | _ => rfl

end Answering

/-- **The account of a run.** -/
theorem answering_of_run? {ms : List Move}
    (h : Answering accepted id said sent returned cancelled c call) (hr : c.run? s ms = some d)
    (hin : ∀ e ∈ c.visited s ms, e.pool.contains id = true) :
    ∃ call', Answering accepted id (said ++ c.framesSaid s id ms) (sent ++ c.messagesSent s id ms)
      (returned ++ c.resultsReturned s id ms)
      (cancelled ∨ ∃ e ∈ c.visited s ms, e.isCancelled id = true) d call' := by
  induction ms generalizing c call said sent returned cancelled with
  | nil =>
      cases hr
      have hnow : (∃ e ∈ d.visited s [], e.isCancelled id = true) =
          (call.isCancelled d.pool.allWithdrawn = true) := by
        simp only [visited, List.mem_singleton, exists_eq_left, isCancelled_of_call? h.found]
      refine ⟨call, ?_⟩
      rw [hnow]
      simp only [framesSaid, messagesSent, resultsReturned, along, List.append_nil]
      exact ⟨h.found, h.supervised, h.own, h.answer.now h.supervised⟩
  | cons m ms ih =>
      obtain ⟨e, hm, hr⟩ := run?_cons.1 hr
      rw [visited_cons hm] at hin ⊢
      have hlater : ∀ k ∈ e.visited s ms, k.pool.contains id = true :=
        fun k hk => hin k (List.mem_cons_of_mem _ hk)
      obtain ⟨call', h'⟩ := h.step (step_of_step? hm) (hlater e (mem_visited_self e ms))
      obtain ⟨call'', h''⟩ := ih h' hr hlater
      refine ⟨call'', ?_⟩
      simp only [framesSaid, messagesSent, resultsReturned, along_cons _ hm,
        List.exists_mem_cons_iff] at h'' ⊢
      simpa only [List.append_assoc, or_assoc] using h''

end

/-! ## The frames under one number -/

/-- As long as the loop refuses nothing under the number of a call, all frames under it are those
that the call puts into the outbox. -/
theorem filter_queuedBy (hstep : Step s c m c')
    (hno : ∀ g, c.stage = .rejecting g → g.callId ≠ id) :
    (c.queuedBy c').filter (·.callId == id) = c.saidBy id m c' := by
  rw [saidBy]
  split
  · next hm =>
    refine List.filter_eq_self.2 ?_
    intro g hg
    cases hstep with
    | pool hp =>
        obtain ⟨new, hq, hnew⟩ := hp.queue
        have hcaller := (hnew g (mem_of_queuedBy hg rfl hq)).1
        exact beq_iff_eq.2 (Option.some.inj (hcaller.symm.trans hm))
    | _ => cases hm
  · next hm =>
    refine List.filter_eq_nil_iff.2 ?_
    intro g hg hid
    have hid := beq_iff_eq.1 hid
    exact hno g (hstep.rejecting_of_queued hm g hg hid) hid

theorem filter_framesQueued {ms : List Move} (hr : c.run? s ms = some d)
    (hno : ∀ e ∈ c.visited s ms, ∀ g, e.stage = .rejecting g → g.callId ≠ id) :
    (c.framesQueued s ms).filter (·.callId == id) = c.framesSaid s id ms := by
  induction ms generalizing c with
  | nil => rfl
  | cons m ms ih =>
      obtain ⟨e, hm, hr⟩ := run?_cons.1 hr
      rw [visited_cons hm] at hno
      rw [framesQueued_cons hm, List.filter_append,
        filter_queuedBy (step_of_step? hm) (hno c List.mem_cons_self),
        ih hr fun k hk => hno k (List.mem_cons_of_mem _ hk), framesSaid, along_cons _ hm]

/-! ## What a handler returns -/

theorem finish_of_step (hstep : Step s c m c') (hin : c'.pool.contains id = true)
    {result : Except GatewayError Unit} (hr : result ∈ c.returnedBy id c') :
    ∃ state, s.handler.await state = .finish result := by
  rw [returnedBy] at hr
  split at hr
  · next call call' hcall hcall' =>
    obtain ⟨hstays, hl, hst⟩ := Call.of_mem_returns hr
    have moved {other : Call ω σ} (hother : c'.pool.call? id = some other) :
        other.stage ≠ call.stage := by
      intro hsame
      cases hcall'.symm.trans hother
      rw [← hsame, hst] at hl
      cases hl
    by_cases hm : ∃ move, m = .pool move
    · obtain ⟨move, rfl⟩ := hm
      cases hstep with
      | pool hp =>
          rcases Pool.call?_of_step hp hcall with ⟨hsame, -⟩ | ⟨other, hother, hacts⟩
          · exact absurd rfl (moved hsame)
          · cases hcall'.symm.trans hother
            cases hacts with
            | poll hp => exact Call.finish_of_poll? hstays hl hp hst
            | carry hp =>
                have hl' := (Call.live_of_carry? hp).2
                rw [hst] at hl'
                cases hl'
            | expire hp => exact Call.finish_of_expire? hp hst
            | report hs => cases hst
    · obtain ⟨other, hother, hleaves⟩ :=
        leaves_of_step hstep (fun move hmove => hm ⟨move, hmove⟩) hcall hin
      exact absurd hleaves.stage (moved hother)
  · cases hr

theorem finish_of_run? {ms : List Move} (hr : c.run? s ms = some d)
    (hin : ∀ e ∈ c.visited s ms, e.pool.contains id = true) {result : Except GatewayError Unit}
    (hresult : result ∈ c.resultsReturned s id ms) :
    ∃ state, s.handler.await state = .finish result := by
  induction ms generalizing c with
  | nil => cases hresult
  | cons m ms ih =>
      obtain ⟨e, hm, hr⟩ := run?_cons.1 hr
      rw [visited_cons hm] at hin
      have hlater : ∀ k ∈ e.visited s ms, k.pool.contains id = true :=
        fun k hk => hin k (List.mem_cons_of_mem _ hk)
      rw [resultsReturned, along_cons _ hm] at hresult
      rcases List.mem_append.1 hresult with hnow | hafter
      · exact finish_of_step (step_of_step? hm) (hlater e (mem_visited_self e ms)) hnow
      · exact ih hr hlater hafter

/-! ## Two steps to the status -/

/-- A call that has been cancelled is dropped in its next step. -/
theorem poll_cancelled (hcall : c.pool.call? id = some call)
    (hcancelled : c.isCancelled id = true) :
    ∃ e, c.step? s (.pool (.poll id)) = some e ∧
      e.pool.standing? id = some (true, .ended (.error .cancelled)) := by
  rw [isCancelled_of_call? hcall] at hcancelled
  have hpoll := Call.poll?_of_cancelled (h := s.handler) (s := c.shared) hcancelled
  have hstage := Call.ended_of_cancelled hcancelled hpoll
  have hid := Pool.id_of_call? hcall
  have hid' : (call.conclude (.error .cancelled)).id = id := hid
  have hsup : (call.conclude (.error .cancelled)).supervised = true := by
    simp only [Call.isCancelled, Bool.and_eq_true] at hcancelled
    exact hcancelled.1.1
  refine ⟨_, step?_poll hcall hpoll, ?_⟩
  rw [Pool.standing?_replace hcall hid', Function.update_self, hstage, hsup]

/-- A call whose handler is done tells its caller in its next step, if there is room. -/
theorem poll_tells {result : Except GatewayError Unit} (hcall : c.pool.call? id = some call)
    (hst : call.stage = .ended result) (hopen : c.shared.outbox.isOpen = true)
    (hroom : c.shared.outbox.queue.length < c.shared.outbox.capacity) :
    ∃ e, c.step? s (.pool (.poll id)) = some e ∧ e.isOver id = true ∧
      e.shared.outbox.isOpen = true := by
  obtain ⟨outbox, htell, hopen'⟩ := tell?_of_room call result hopen hroom
  have hid := Pool.id_of_call? hcall
  have hid' : ({ call with stage := .reporting } : Call ω σ).id = id := hid
  refine ⟨_, poll_ended hcall hst htell, ?_, hopen'⟩
  rw [isOver, Pool.standing?_replace hcall hid', Function.update_self]
  rfl

/-! ## The shape of an answer -/

/-- **A call is answered in the right shape** in a run. -/
structure IsAnswered (s : Server ω σ) (accepted : Except GatewayError (Job ω σ)) (id : UInt64)
    (c : Connection ω σ) (ms : List Move) (d : Connection ω σ) : Prop where
  /-- What the call says is under its number, -/
  own : ∀ g ∈ c.framesSaid s id ms, g.callId = id
  /-- and nothing else is, unless the loop refuses a request that comes under this number. -/
  alone : (∀ e ∈ c.visited s ms, ∀ g, e.stage = .rejecting g → g.callId ≠ id) →
    (c.framesQueued s ms).filter (·.callId == id) = c.framesSaid s id ms
  /-- A handler returns what it finishes with. -/
  finished : ∀ result ∈ c.resultsReturned s id ms, ∃ state, s.handler.await state = .finish result
  /-- As long as its task goes on, the messages that its handler has sent have been said, in order,
  and no status. -/
  messages : d.isOver id = false →
    (c.framesSaid s id ms).map Frame.word = messageWords (c.messagesSent s id ms)
  /-- When it is over, one status has been said behind them, or none if it does not fit a frame or
  nobody writes any more. The status says that the call went well exactly if its handler has
  returned so and was not cancelled before. -/
  status : d.isOver id = true → ∃ result,
    Outcome accepted (c.resultsReturned s id ms) (∃ e ∈ c.visited s ms, e.isCancelled id = true)
      result ∧
    ((c.framesSaid s id ms).map Frame.word =
        messageWords (c.messagesSent s id ms) ++ [statusWord result] ∨
      (c.framesSaid s id ms).map Frame.word = messageWords (c.messagesSent s id ms) ∧
        (d.shared.outbox.isOpen = false ∨ (Status.ofResult result).fits = false)) ∧
    ((Status.ofResult result).code = .ok ↔
      .ok () ∈ c.resultsReturned s id ms ∧ ¬ ∃ e ∈ c.visited s ms, e.isCancelled id = true)
  /-- A call that has been cancelled is done in its next step, -/
  dropped : d.isCancelled id = true → ∃ e, d.step? s (.pool (.poll id)) = some e ∧
    e.pool.standing? id = some (true, .ended (.error .cancelled))
  /-- and one that is done is over in its next step, if there is room. -/
  told : ∀ result, d.pool.standing? id = some (true, .ended result) →
    d.shared.outbox.isOpen = true → d.shared.outbox.queue.length < d.shared.outbox.capacity →
    ∃ e, d.step? s (.pool (.poll id)) = some e ∧ e.isOver id = true ∧ e.shared.outbox.isOpen = true

section

variable {accepted : Except GatewayError (Job ω σ)}

/-- A call that has just been accepted. -/
theorem Answering.start
    (hfound : c.pool.call? id = some (.start id true (.opening accepted))) :
    Answering accepted id [] [] [] False c (.start id true (.opening accepted)) := by
  refine ⟨hfound, rfl, fun g hg => absurd hg List.not_mem_nil, ?_⟩
  cases accepted with
  | ok job => exact .working rfl rfl rfl False.elim
  | error e => exact .refused rfl rfl rfl rfl not_false

/-- An account that is kept to the end of a run is one of the right shape. -/
theorem Answering.isAnswered {ms : List Move}
    (h : Answering accepted id [] [] [] False c call) (hr : c.run? s ms = some d)
    (hin : ∀ e ∈ c.visited s ms, e.pool.contains id = true) :
    IsAnswered s accepted id c ms d := by
  obtain ⟨call', hfound, hsup, hown, hanswer⟩ := answering_of_run? h hr hin
  simp only [List.nil_append, false_or] at hown hanswer
  have hover : d.isOver id = call'.stage.isOver := by
    rw [isOver, Pool.standing?_of_call? hfound, Option.any_some]
  refine ⟨hown, filter_framesQueued hr, fun _ => finish_of_run? hr hin, ?_, ?_,
    poll_cancelled hfound, ?_⟩
  · rw [hover]
    intro hnot
    cases hanswer with
    | working _ hsaid | refused _ _ hsaid | ended _ hsaid => exact hsaid
    | settled hst =>
        rw [hnot] at hst
        cases hst
  · rw [hover]
    intro hend
    cases hanswer with
    | working hl =>
        rw [CallStage.isOver_of_isLive hl] at hend
        cases hend
    | refused hst | ended hst =>
        rw [hst] at hend
        cases hend
    | settled _ hsaid ho => exact ⟨_, ho, hsaid, ho.code_eq_ok_iff⟩
  · intro result hs hopen hroom
    rw [Pool.standing?_of_call? hfound, Option.some.injEq, Prod.mk.injEq] at hs
    exact poll_tells hfound hs.2 hopen hroom

end

/-- **Responses have the right shape**: after a request has been accepted, in every run along which
its call stays in the pool, whatever the other calls do and whenever it is cancelled. -/
theorem responses_are_well_formed (s : Server ω σ) {f : Frame} {rest : Bytes} {r : CallRequest}
    (hread : c.Reads s f rest) (hkind : f.kind = .call)
    (hp : (Payload.ofBytes f.payload : Except GatewayError CallRequest) = .ok r)
    (hfree : c.pool.contains f.callId = false) :
    ∃ c', c.step? s .read = some c' ∧ ∀ ms d, c'.run? s ms = some d →
      (∀ e ∈ c'.visited s ms, e.pool.contains f.callId = true) →
      IsAnswered s (s.accept r) f.callId c' ms d := by
  obtain ⟨pool, hspawn, hstep⟩ := step?_accept hread hkind hp hfree
  have hfound := Pool.call?_spawn hspawn f.callId
  rw [if_pos rfl] at hfound
  refine ⟨_, hstep, fun ms d hr hin => ?_⟩
  have hstart : Answering (s.accept r) f.callId [] [] [] False { c with unread := rest, pool } _ :=
    .start hfound
  exact hstart.isAnswered hr hin

/-- A handler that sends one message and is done, and a caller that gets both. -/
theorem one_message_and_one_status :
    let s : Server Unit Bool :=
      ⟨⟨fun _ => 0, rfl⟩,
        ⟨fun done => if done then .finish (.ok ()) else .send [65] fun _ => .done true,
          fun _ w => w⟩,
        fun _ => .ok (.done false)⟩
    let f : Frame := ⟨.call, 1, Payload.toBytes (⟨"", "", []⟩ : CallRequest), by decide⟩
    let c : Connection Unit Bool := arrived () (f.toBytes s.checksum)
    let ms : List Move := [.pool (.poll 1), .pool (.poll 1), .pool (.poll 1)]
    ∃ c' d, c.step? s .read = some c' ∧ c'.run? s ms = some d ∧ d.isOver 1 = true ∧
      ((c'.framesQueued s ms).filter (·.callId == 1)).map Frame.word =
        [(.message, [65]), statusWord (.ok ())] := by
  intro s f c ms
  have hread : c.Reads s f [] := reads_last rfl rfl
  have hp : (Payload.ofBytes f.payload : Except GatewayError CallRequest) = .ok ⟨"", "", []⟩ :=
    CallRequest.ofBytes_toBytes (by decide)
  obtain ⟨c', hstep, hall⟩ := responses_are_well_formed s hread rfl hp rfl
  let c₁ : Connection Unit Bool :=
    { c with unread := [], pool := ⟨[.start 1 true (.starting (.done false))], false, []⟩ }
  have hstart : c.step? s .read = some c₁ := by
    obtain ⟨pool, hspawn, haccept⟩ := step?_accept hread rfl hp rfl
    cases hspawn
    exact haccept
  obtain rfl : c' = c₁ := Option.some.inj (hstep.symm.trans hstart)
  have hrun : (c₁.run? s ms).isSome = true := rfl
  let d := (c₁.run? s ms).get hrun
  have hd : c₁.run? s ms = some d := (Option.some_get hrun).symm
  have hin : ∀ e ∈ c₁.visited s ms, e.pool.contains 1 = true := by decide +kernel
  have hserving : ∀ e ∈ c₁.visited s ms, e.isServing = true := by decide +kernel
  have hanswered : IsAnswered s (.ok (.done false)) 1 c₁ ms d := hall ms d hd hin
  obtain ⟨result, houtcome, hshape, -⟩ := hanswered.status rfl
  have hresult : result = .ok () := by
    have hone : c₁.resultsReturned s 1 ms = [.ok ()] := rfl
    rw [hone] at houtcome
    cases houtcome with
    | returned hr => exact (List.cons.inj hr).1.symm
    | cancelled hr => cases hr
    | refused _ hr => cases hr
  have hopen : d.shared.outbox.isOpen = true := rfl
  have hsaid : (c₁.framesSaid s 1 ms).map Frame.word =
      messageWords (c₁.messagesSent s 1 ms) ++ [statusWord result] := by
    refine hshape.resolve_right ?_
    rintro ⟨-, hclosed | hlong⟩
    · cases hopen.symm.trans hclosed
    · rw [hresult] at hlong
      cases hlong
  have hown : (c₁.framesQueued s ms).filter (·.callId == 1) = c₁.framesSaid s 1 ms := by
    refine hanswered.alone ?_
    intro e he g hg
    have hno := hserving e he
    rw [isServing, hg] at hno
    cases hno
  refine ⟨c₁, d, hstart, hd, rfl, ?_⟩
  rw [hown, hsaid, hresult]
  rfl

end Connection

end DeviceGateway
