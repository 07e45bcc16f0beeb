import DeviceGateway.Proofs.Call.Manners
import DeviceGateway.Proofs.Server.Responses

/-!
# Calls that keep to their manners

What can be said of a call, by what its handler has sent and returned so far, is a record of it. A
record that the steps of the call keep, and whatever leaves the call alone, is kept in every run, as
long as the call is in the pool and others leave alone what the handler sees of the world
(`recorded_of_run?`).

A call of a connection keeps to the manner of its handler in this way. So whatever the caller says and
whenever the call is cancelled, it says in a run what its manner allows: some messages, and behind
them the status of a result that goes with them (`answersWith_of_run?`).
-/

namespace DeviceGateway.Connection

variable {ω σ ν : Type}

/-- **A step of others leaves alone** what is seen of the world. -/
def OthersLeave (s : Server ω σ) (view : ω → ν) (id : UInt64) (c : Connection ω σ) (m : Move) :
    Prop :=
  m.isOthers id = true → ∀ c', c.step? s m = some c' →
    view c'.shared.world = view c.shared.world

/-- A call that is alone is left alone. -/
theorem othersLeave_alone {s : Server ω σ} {view : ω → ν} {id : UInt64} {ms : List Move}
    (h : ∀ m ∈ ms, m.isOthers id = false) (c : Connection ω σ) :
    Throughout s (OthersLeave s view id) c ms := by
  refine throughout_of_forall (fun m hm c hothers => ?_) c
  cases (h m hm).symm.trans hothers

/-- What can be said of a call, by what its handler has sent and returned so far. -/
abbrev Record (ω σ : Type) :=
  List Bytes → List (Except GatewayError Unit) → Shared ω → Call ω σ → Prop

/-- **A record that is kept** by each step of the call, and by whatever leaves the call and what is
seen of the world alone. -/
structure Record.KeptBy (a : Record ω σ) (h : Handler ω σ) (view : ω → ν) : Prop where
  acts {sent : List Bytes} {returned : List (Except GatewayError Unit)} {shared shared' : Shared ω}
    {call call' : Call ω σ} {p : Pool ω σ} {id : UInt64} {move : Pool.Move}
    (ha : a sent returned shared call) (hsup : call.supervised = true)
    (hacts : Pool.Acts h p shared id call move call' shared') :
    a (sent ++ if move = .poll id then call.sends h p.allWithdrawn shared else [])
      (returned ++ call.returns p.allWithdrawn call') shared' call'
  leaves {sent : List Bytes} {returned : List (Except GatewayError Unit)} {shared shared' : Shared ω}
    {call call' : Call ω σ} (ha : a sent returned shared call) (hleaves : Leaves call call')
    (hview : view shared'.world = view shared.world)
    (hclosed : shared.outbox.isOpen = false → shared'.outbox.isOpen = false) :
    a sent returned shared' call'

/-- **A call of a connection that has a record.** -/
structure Recorded (a : Record ω σ) (id : UInt64) (sent : List Bytes)
    (returned : List (Except GatewayError Unit)) (c : Connection ω σ) (call : Call ω σ) : Prop where
  found : c.pool.call? id = some call
  supervised : call.supervised = true
  record : a sent returned c.shared call

/-- **A call of a connection keeps to a manner.** -/
structure Minding (k : Manner σ ν) (view : ω → ν) (id : UInt64) (sent : List Bytes)
    (returned : List (Except GatewayError Unit)) (c : Connection ω σ) (call : Call ω σ) : Prop where
  found : c.pool.call? id = some call
  supervised : call.supervised = true
  minds : k.Minds view sent returned (view c.shared.world) call

/-- **What a call says goes with how it ends**, at each point of a run. -/
structure AnswersWith (s : Server ω σ) (id : UInt64)
    (ends : List Bytes → Except GatewayError Unit → Prop) (c : Connection ω σ) (ms : List Move)
    (d : Connection ω σ) : Prop where
  /-- All that is said under the number of the call is said by it, unless the loop refuses a request
  that comes under this number. -/
  alone : (∀ e ∈ c.visited s ms, ∀ g, e.stage = .rejecting g → g.callId ≠ id) →
    (c.framesQueued s ms).filter (·.callId == id) = c.framesSaid s id ms
  /-- Before it is over, the call has said messages with which it may end. -/
  working : d.isOver id = false → ∃ sent result, ends sent result ∧
    (c.framesSaid s id ms).map Frame.word = messageWords sent
  /-- When it is over, it has said messages and, behind them, the status of a result that goes with
  them; the status is lost if it does not fit a frame or nobody writes any more. -/
  ended : d.isOver id = true → ∃ sent result, ends sent result ∧
    ((c.framesSaid s id ms).map Frame.word = messageWords sent ++ [statusWord result] ∨
      (c.framesSaid s id ms).map Frame.word = messageWords sent ∧
        (d.shared.outbox.isOpen = false ∨ (Status.ofResult result).fits = false))

variable {s : Server ω σ} {k : Manner σ ν} {view : ω → ν} {id : UInt64} {sent : List Bytes}
  {returned : List (Except GatewayError Unit)} {c c' d : Connection ω σ} {call call' : Call ω σ}
  {m : Move} {ms : List Move}

theorem AnswersWith.mono {ends ends' : List Bytes → Except GatewayError Unit → Prop}
    (h : AnswersWith s id ends c ms d) (he : ∀ sent result, ends sent result → ends' sent result) :
    AnswersWith s id ends' c ms d := by
  refine ⟨h.alone, ?_, ?_⟩
  · intro hnot
    obtain ⟨sent, result, hends, hwords⟩ := h.working hnot
    exact ⟨sent, result, he sent result hends, hwords⟩
  · intro hover
    obtain ⟨sent, result, hends, hwords⟩ := h.ended hover
    exact ⟨sent, result, he sent result hends, hwords⟩

/-! ## Steps -/

theorem sentBy_pool (hcall : c.pool.call? id = some call) (move : Pool.Move) :
    c.sentBy s id (.pool move) =
      if move = .poll id then call.sends s.handler c.pool.allWithdrawn c.shared else [] := by
  split
  · next heq =>
    subst heq
    exact sentBy_poll hcall
  · next hne => exact sentBy_of_ne hne

section

variable {a : Record ω σ}

/-- What leaves a call alone, and what is seen, leaves its record. -/
theorem Recorded.of_leaves (h : Recorded a id sent returned c call)
    (ha : a.KeptBy s.handler view) (hcall' : c'.pool.call? id = some call')
    (hleaves : Leaves call call') (hview : view c'.shared.world = view c.shared.world)
    (hclosed : c.shared.outbox.isOpen = false → c'.shared.outbox.isOpen = false) :
    Recorded a id sent (returned ++ c.returnedBy id c') c' call' := by
  rw [returnedBy_of_leaves h.found hcall' hleaves, List.append_nil]
  exact ⟨hcall', hleaves.supervised.trans h.supervised, ha.leaves h.record hleaves hview hclosed⟩

/-- **Every step keeps the record of a call**, as long as the call is in the pool. -/
theorem Recorded.step (h : Recorded a id sent returned c call) (ha : a.KeptBy s.handler view)
    (hm : c.step? s m = some c') (hin : c'.pool.contains id = true)
    (hothers : OthersLeave s view id c m) :
    ∃ call', Recorded a id (sent ++ c.sentBy s id m) (returned ++ c.returnedBy id c') c' call' := by
  have hstep := step_of_step? hm
  have hclosed := closed_of_step hstep
  by_cases hpool : ∃ move, m = .pool move
  · obtain ⟨move, rfl⟩ := hpool
    have hsent := sentBy_pool (s := s) h.found move
    cases hstep with
    | pool hp =>
        rcases Pool.call?_of_step hp h.found with ⟨hsame, hne⟩ | ⟨call', hcall', hacts⟩
        · have hview := hothers (bne_iff_ne.2 hne) _ hm
          rw [if_neg (fun heq => hne (by rw [heq]; rfl))] at hsent
          rw [hsent, List.append_nil]
          exact ⟨call, h.of_leaves ha hsame (.refl call) hview hclosed⟩
        · refine ⟨call', hcall', hacts.supervised.trans h.supervised, ?_⟩
          rw [hsent, returnedBy_of_call? h.found hcall']
          exact ha.acts h.record h.supervised hacts
  · have hno : ∀ move, m ≠ .pool move := fun move heq => hpool ⟨move, heq⟩
    obtain ⟨call', hcall', hleaves⟩ := leaves_of_step hstep hno h.found hin
    have hsent : c.sentBy s id m = [] := by
      cases m with
      | pool move => exact absurd rfl (hno move)
      | _ => rfl
    rw [hsent, List.append_nil]
    exact ⟨call', h.of_leaves ha hcall' hleaves (by rw [(hstep.world_outside hno).1]) hclosed⟩

/-- **Every run keeps the record of a call.** -/
theorem recorded_of_run? (h : Recorded a id sent returned c call) (ha : a.KeptBy s.handler view)
    (hr : c.run? s ms = some d) (hin : ∀ e ∈ c.visited s ms, e.pool.contains id = true)
    (hothers : Throughout s (OthersLeave s view id) c ms) :
    ∃ call', Recorded a id (sent ++ c.messagesSent s id ms) (returned ++ c.resultsReturned s id ms) d
      call' := by
  induction ms generalizing c call sent returned with
  | nil =>
      cases hr
      simp only [messagesSent, resultsReturned, along, List.append_nil]
      exact ⟨call, h⟩
  | cons m ms ih =>
      obtain ⟨e, hm, hr⟩ := run?_cons.1 hr
      rw [visited_cons hm] at hin
      obtain ⟨hnow, hafter⟩ := (throughout_cons hm).1 hothers
      have hlater : ∀ k ∈ e.visited s ms, k.pool.contains id = true :=
        fun k hk => hin k (List.mem_cons_of_mem _ hk)
      obtain ⟨call', h'⟩ := h.step ha hm (hlater e (mem_visited_self e ms)) hnow
      obtain ⟨call'', h''⟩ := ih h' hr hlater hafter
      refine ⟨call'', ?_⟩
      simp only [messagesSent, resultsReturned, along_cons _ hm] at h'' ⊢
      simpa only [List.append_assoc] using h''

end

/-- The manner of a handler is a record that is kept. -/
theorem minds_keptBy (hk : k.KeptBy s.handler view) :
    Record.KeptBy (fun sent returned (shared : Shared ω) (call : Call ω σ) =>
      k.Minds view sent returned (view shared.world) call) s.handler view where
  acts ha hsup hacts := ha.acts hk hsup hacts
  leaves ha hleaves hview _ := by
    rw [hview]
    cases ha with
    | working hr hdrop hstage => exact .working hr hdrop (hleaves.stage ▸ hstage)
    | done hdone hr hdrop => exact .done (hleaves.stage ▸ hdone) hr hdrop

/-- **Every run keeps a call to its manner.** -/
theorem minding_of_run? (h : Minding k view id sent returned c call)
    (hk : k.KeptBy s.handler view) (hr : c.run? s ms = some d)
    (hin : ∀ e ∈ c.visited s ms, e.pool.contains id = true)
    (hothers : Throughout s (OthersLeave s view id) c ms) :
    ∃ call', Minding k view id (sent ++ c.messagesSent s id ms)
      (returned ++ c.resultsReturned s id ms) d call' := by
  obtain ⟨hfound, hsup, hminds⟩ := h
  obtain ⟨call', hfound', hsup', hminds'⟩ :=
    recorded_of_run? ⟨hfound, hsup, hminds⟩ (minds_keptBy hk) hr hin hothers
  exact ⟨call', hfound', hsup', hminds'⟩

/-! ## Answers -/

/-- **A request that is accepted** starts a call and does nothing else. -/
theorem starts_of_reads {f : Frame} {rest : Bytes} {r : CallRequest} {job : Job ω σ}
    (hread : c.Reads s f rest) (hkind : f.kind = .call)
    (hp : (Payload.ofBytes f.payload : Except GatewayError CallRequest) = .ok r)
    (hfree : c.pool.contains f.callId = false) (haccept : s.accept r = .ok job) :
    ∃ c', c.step? s .read = some c' ∧ c'.shared = c.shared ∧
      c'.pool.call? f.callId = some (.start f.callId true (.opening (.ok job))) := by
  obtain ⟨pool, hspawn, hstep⟩ := step?_accept hread hkind hp hfree
  have hfound := Pool.call?_spawn hspawn f.callId
  rw [if_pos rfl, haccept] at hfound
  exact ⟨_, hstep, rfl, hfound⟩

/-- **A call whose handler has a manner** answers accordingly in every run. -/
theorem answersWith_of_run? {job : Job ω σ} (hk : k.KeptBy s.handler view) (hdrop : k.Drops [])
    (hjob : job.Leads view (k.holds []) (view c.shared.world))
    (hfound : c.pool.call? id = some (.start id true (.opening (.ok job))))
    (hr : c.run? s ms = some d) (hin : ∀ e ∈ c.visited s ms, e.pool.contains id = true)
    (hothers : Throughout s (OthersLeave s view id) c ms) :
    AnswersWith s id (fun sent result => k.ends sent result (view d.shared.world)) c ms d := by
  have hstart : Minding k view id [] [] c (.start id true (.opening (.ok job))) :=
    ⟨hfound, rfl, .working rfl hdrop hjob⟩
  obtain ⟨call, hend, -, hminds⟩ := minding_of_run? hstart hk hr hin hothers
  rw [List.nil_append, List.nil_append] at hminds
  have hanswered : IsAnswered s (.ok job) id c ms d := (Answering.start hfound).isAnswered hr hin
  have hover : d.isOver id = call.stage.isOver := by
    rw [isOver, Pool.standing?_of_call? hend, Option.any_some]
  refine ⟨hanswered.alone, ?_, ?_⟩
  · intro hnot
    have hsaid := hanswered.messages hnot
    cases hminds with
    | working hr hdrop hstage => exact ⟨_, .error .cancelled, hdrop _, hsaid⟩
    | done hdone hr hdrop =>
        -- the call has ended and not told its caller: it ends with what its handler returned
        cases hreturned : c.resultsReturned s id ms with
        | nil => exact ⟨_, .error .cancelled, hdrop hreturned, hsaid⟩
        | cons result rest =>
            exact ⟨_, result, hr result (hreturned ▸ List.mem_cons_self), hsaid⟩
  · intro hyes
    obtain ⟨result, houtcome, hsaid, -⟩ := hanswered.status hyes
    refine ⟨_, result, ?_, hsaid⟩
    cases hminds with
    | working hr hdrop hstage =>
        rw [hover, CallStage.isOver_of_isLive (CallStage.isLive_of_leads hstage)] at hyes
        cases hyes
    | done hdone hr hdrop =>
        cases houtcome with
        | returned hone => exact hr result (hone ▸ List.mem_cons_self)
        | cancelled hnone => exact hdrop hnone
        | refused haccepted => cases haccepted

end DeviceGateway.Connection
