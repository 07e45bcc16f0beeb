import DeviceGateway.Loopback.ServerSession
import DeviceGateway.Proofs.Gateway.Unfinished
import DeviceGateway.Proofs.Server.Statuses
import DeviceGateway.Proofs.Server.Teardown

/-!
# Uploads on a lost connection

When the loop leaves, it ends the messages of each call and withdraws the call in the next step. A
call that is polled between the two and has no message left cannot tell this from a caller who has
ended the messages (`FindsEnd`): an upload then finishes, and keeps what it has got
(`kept_on_lost_connection`). If no call is polled there, an upload whose caller has not ended the
messages never comes to its end, whatever else happens (`unfinished_without_halfClose`).
-/

namespace DeviceGateway

/-! ## Between the end of the messages and the withdrawal -/

namespace Connection

section Gap

variable {ω σ : Type} {s : Server ω σ} {c c' d : Connection ω σ} {id : UInt64}

/-- The messages of a call have been ended because the loop leaves, and the call is withdrawn in
the next step. -/
def InGap (c : Connection ω σ) (id : UInt64) : Prop :=
  ∃ steps result, c.stage = .withdrawing (.withdraw id :: steps) result

/-- **A call would find the end of its messages** because the loop leaves: no message is left, and
the withdrawal is still to come. -/
structure FindsEnd (c : Connection ω σ) (id : UInt64) : Prop where
  gap : c.InGap id
  call : ∃ call, c.pool.call? id = some call ∧ call.inbox.queue = [] ∧ call.withdrawn = false
  parent : c.pool.allWithdrawn = false

instance : Decidable (c.InGap id) :=
  match hs : c.stage with
  | .withdrawing (.withdraw i :: steps) result =>
    if hi : i = id then isTrue ⟨steps, result, by rw [hs, hi]⟩
    else isFalse fun ⟨_, _, h⟩ => by rw [hs] at h; cases h; exact hi rfl
  | .withdrawing (.endMessages _ :: _) _ | .withdrawing [] _ | .serving | .feeding .. | .rejecting _
  | .joining _ | .flushing _ | .closed _ => isFalse fun ⟨_, _, h⟩ => by rw [hs] at h; cases h

instance : Decidable (c.FindsEnd id) :=
  decidable_of_iff
    (c.InGap id ∧ (c.pool.call? id).any (fun call => call.inbox.queue = [] ∧ call.withdrawn = false)
      ∧ c.pool.allWithdrawn = false)
    ⟨fun ⟨hg, hc, hp⟩ => ⟨hg, by simpa [Option.any_eq_true] using hc, hp⟩,
     fun ⟨hg, hc, hp⟩ => ⟨hg, by simpa [Option.any_eq_true] using hc, hp⟩⟩

theorem not_inGap {stage : LoopStage} (hs : c.stage = stage)
    (hno : ∀ steps result, stage ≠ .withdrawing (.withdraw id :: steps) result) : ¬ c.InGap id := by
  rintro ⟨steps, result, hg⟩
  exact hno steps result (hs.symm.trans hg)

/-- Steps that end the messages of calls, each with the withdrawal right behind it. -/
def InPairs : List Pool.TeardownStep → Prop
  | [] => True
  | .endMessages i :: .withdraw j :: rest => i = j ∧ InPairs rest
  | _ => False

theorem inPairs_teardown (calls : List (Call ω σ)) :
    InPairs (calls.flatMap fun call => [.endMessages call.id, .withdraw call.id]) := by
  induction calls with
  | nil => trivial
  | cons call calls ih => exact ⟨rfl, ih⟩

/-- **The withdrawal of a call comes right after the end of its messages.** -/
def TearsInPairs (c : Connection ω σ) : Prop :=
  ∀ steps result, c.stage = .withdrawing steps result →
    InPairs steps ∨ ∃ i rest, steps = .withdraw i :: rest ∧ InPairs rest

theorem TearsInPairs.of_stage {stage : LoopStage} (hs : c.stage = stage)
    (hno : ∀ steps result, stage ≠ .withdrawing steps result) : c.TearsInPairs := by
  intro steps result hw
  exact absurd (hs.symm.trans hw) (hno steps result)

theorem tearsInPairs_leave (c : Connection ω σ) (result : Except GatewayError Unit) :
    (c.leave result).TearsInPairs := by
  intro steps result hs
  cases hs
  exact Or.inl (inPairs_teardown c.pool.calls)

theorem TearsInPairs.step {m : Move} (hc : c.TearsInPairs) (hstep : Step s c m c') :
    c'.TearsInPairs := by
  cases hstep with
  | readFault | readEnd | duplicate | heed => exact tearsInPairs_leave _ _
  | refuse | message | feed | answer | unheard | torn | join | flush =>
      exact .of_stage rfl nofun
  | accept hs | halfClose hs | cancel hs | status hs | notice hs => exact .of_stage hs nofun
  | @tear t ts result hs =>
      intro steps result' hw
      cases hw
      rcases hc _ _ hs with hp | ⟨i, rest, heq, hp⟩
      · -- Of a pair, the withdrawal is left.
        match t, ts, hp with
        | .endMessages i, .withdraw j :: rest, hp => exact Or.inr ⟨j, rest, rfl, hp.2⟩
      · cases heq
        exact Or.inl hp
  | _ => exact hc

/-- **The messages of a call end only with its withdrawal.** -/
def KeepsMessages (id : UInt64) (c : Connection ω σ) : Prop :=
  ∀ call ∈ c.pool.calls, call.id = id → call.inbox.sending = false →
    call.withdrawn = true ∨ c.InGap id

theorem KeepsMessages.of_calls (hc : c.KeepsMessages id) (hg : c.InGap id → c'.InGap id)
    (hp : ∀ call' ∈ c'.pool.calls, ∃ call ∈ c.pool.calls,
      call.id = call'.id ∧ call.SameOutside call') : c'.KeepsMessages id := by
  intro call' hm hid hs
  obtain ⟨call, hm, hid', hw, hs'⟩ := hp call' hm
  rw [hw]
  exact (hc call hm (hid'.trans hid) (hs' ▸ hs)).imp_right hg

/-- A caller that has not ended its messages: as long as no frame ends them, only the loop does. -/
theorem KeepsMessages.step {m : Move} (hc : c.KeepsMessages id) (ht : c.TearsInPairs)
    (hstep : Step s c m c')
    (hread : ∀ f ∈ c.frameRead s m, f.kind = .halfClose → f.callId ≠ id) :
    c'.KeepsMessages id := by
  have unchanged : ∀ call' ∈ c.pool.calls, ∃ call ∈ c.pool.calls,
      call.id = call'.id ∧ call.SameOutside call' := fun call hm => ⟨call, hm, rfl, rfl, rfl⟩
  -- In a state outside the gap, the call must have been withdrawn.
  have outside : ∀ {stage : LoopStage}, c.stage = stage →
      (∀ steps result, stage ≠ .withdrawing (.withdraw id :: steps) result) →
      c.InGap id → c'.InGap id := fun hs hno hg => absurd hg (not_inGap hs hno)
  cases hstep with
  | readFault hs | readEnd hs | refuse hs | duplicate hs | message hs | status hs | heed hs
  | answer hs | unheard hs | torn hs | join hs | flush hs =>
      exact hc.of_calls (outside hs nofun) unchanged
  | accept hs _ _ _ hl =>
      obtain ⟨-, rfl⟩ := Pool.spawn_eq_ok_iff.1 hl
      intro call hm hid hsending
      rcases List.mem_append.1 hm with hm | hm
      · exact (hc call hm hid hsending).imp_right (outside hs nofun)
      · -- A new call may still get messages.
        rw [List.mem_singleton.1 hm] at hsending
        cases hsending
  | @halfClose f rest hs hd hk =>
      have hne : f.callId ≠ id := hread f (by rw [frameRead_of_frame hd]; simp) hk
      intro call' hm hid hsending
      obtain ⟨call, hm, hid', -, -, hw, hs'⟩ := mem_tear (t := .endMessages f.callId) hm
      have hother : Pool.TeardownStep.endMessages f.callId ≠ .endMessages call.id := by
        rw [hid', hid]
        exact fun heq => hne (by injection heq)
      rw [hs', decide_eq_false hother, Bool.not_false, Bool.and_true] at hsending
      rw [hw]
      rcases hc call hm (hid'.trans hid) hsending with hw | hg
      · exact Or.inl (by rw [hw, Bool.true_or])
      · exact Or.inr (outside hs nofun hg)
  | @cancel f rest hs =>
      intro call' hm hid hsending
      obtain ⟨call, hm, hid', -, -, hw, hs'⟩ := mem_tear (t := .withdraw f.callId) hm
      rw [hs', decide_eq_false nofun, Bool.not_false, Bool.and_true] at hsending
      rw [hw]
      rcases hc call hm (hid'.trans hid) hsending with hw | hg
      · exact Or.inl (by rw [hw, Bool.true_or])
      · exact Or.inr (outside hs nofun hg)
  | notice hs hn =>
      obtain ⟨rest, -, rfl⟩ := Pool.notice?_eq_some_iff.1 hn
      exact hc.of_calls (outside hs nofun) fun call hm =>
        unchanged call (List.mem_of_mem_filter hm)
  | feed hs hf =>
      exact hc.of_calls (outside hs nofun) fun call hm => Pool.mem_of_feed? hf hm
  | @tear t ts result hs =>
      intro call' hm hid hsending
      obtain ⟨call, hm, hid', -, -, hw, hs'⟩ := mem_tear hm
      rw [hw]
      rw [hs', Bool.and_eq_false_iff] at hsending
      rcases hsending with hsending | hsending
      · rcases hc call hm (hid'.trans hid) hsending with hw | ⟨steps, result', hg⟩
        · exact Or.inl (by rw [hw, Bool.true_or])
        · rw [hs] at hg
          cases hg
          exact Or.inl (by rw [hid', hid, decide_eq_true rfl, Bool.or_true])
      · -- The messages of this call end now, so its withdrawal comes next.
        have ht' : t = .endMessages id := by simpa [hid', hid] using hsending
        subst ht'
        rcases ht _ _ hs with hp | ⟨i, rest, heq, -⟩
        · match ts, hp with
          | .withdraw j :: rest, hp => exact Or.inr ⟨rest, result, by rw [hp.1]⟩
        · cases heq
  | pool hp => exact hc.of_calls (fun hg => hg) fun call' hm => Pool.mem_of_step hp hm
  | _ => exact hc.of_calls (fun hg => hg) unchanged

end Gap

/-! ## Runs without the end of the messages -/

section Uploads

variable {g : Gateway} {c c' d : Connection GatewayWorld HandlerState} {id : UInt64}

/-- **The upload under a number has not come to its end**, or it has failed. -/
def Unfinished (c : Connection GatewayWorld HandlerState) (id : UInt64) : Prop :=
  ∃ stage, c.pool.standing? id = some (true, stage) ∧ stage.Unfinished

/-- **An upload that ends in a step, having waited for a message**, gives up what it has opened. -/
def GivesUp (g : Gateway) (id : UInt64) (c : Connection GatewayWorld HandlerState) (m : Move) :
    Prop :=
  ∀ call session c', c.pool.call? id = some call → call.stage = .awaiting (.uploading session) →
    c.step? g.server m = some c' →
    (∃ r, c'.pool.standing? id = some (true, .ended r)) →
    c'.shared.world = session.release g.staging.installer c.shared.world

/-- Unless a call finds the end of its messages in the gap, it finds it only when it is withdrawn. -/
theorem KeepsMessages.withdrawn {call : Call GatewayWorld HandlerState} (hk : c.KeepsMessages id)
    (hcall : c.pool.call? id = some call) (hgap : ¬ c.FindsEnd id) (hq : call.inbox.queue = [])
    (hs : call.inbox.sending = false) : (call.withdrawn || c.pool.allWithdrawn) = true := by
  rcases hk call (Pool.mem_of_call? hcall) (Pool.id_of_call? hcall) hs with hw | hg
  · rw [hw, Bool.true_or]
  · by_contra hnot
    rw [Bool.not_eq_true, Bool.or_eq_false_iff] at hnot
    exact hgap ⟨hg, ⟨call, hcall, hq, hnot.1⟩, hnot.2⟩

/-- **One step**: the upload goes on, or fails. -/
theorem Unfinished.step {m : Move} (hu : c.Unfinished id) (hk : c.KeepsMessages id)
    (hstep : Step g.server c m c') (hin : c'.pool.contains id = true)
    (hgap : m = .pool (.poll id) → ¬ c.FindsEnd id) : c'.Unfinished id := by
  obtain ⟨stage, hs, hstage⟩ := hu
  rcases standing?_of_step hstep hs with hs' | ⟨move, rfl⟩ | ⟨-, hnone⟩
  · exact ⟨stage, hs', hstage⟩
  · cases hstep with
    | pool hp =>
        obtain ⟨call, hcall, hstands⟩ := Option.map_eq_some_iff.1 hs
        rw [Prod.mk.injEq] at hstands
        obtain ⟨hsup, rfl⟩ := hstands
        rcases Pool.call?_of_step hp hcall with ⟨hcall', -⟩ | ⟨call', hcall', hacts⟩
        · exact ⟨call.stage, by rw [Pool.standing?_of_call? hcall', hsup], hstage⟩
        · rw [Unfinished]
          rw [Pool.standing?_of_call? hcall']
          cases hacts with
          | poll hp =>
              refine ⟨_, by rw [(Call.advances_of_poll? hp).2.1, hsup], ?_⟩
              exact Call.unfinished_of_poll? hstage hsup (hk.withdrawn hcall (hgap rfl)) hp
          | carry hp =>
              refine ⟨_, by rw [(Call.advances_of_carry? hp).2.1, hsup], ?_⟩
              exact Call.unfinished_of_carry? hstage hp
          | expire hp =>
              have hnone : call.expire? g.server.handler c.shared = none :=
                Call.expire?_of_unfinished hstage
              cases hnone.symm.trans hp
          | report => exact ⟨_, by rw [hsup], Or.inr (Or.inr rfl)⟩
  · rw [Pool.contains_eq, hnone] at hin
    cases hin

theorem givesUp_of_step {m : Move} (hsound : c.Sound) (hk : c.KeepsMessages id)
    (hgap : m = .pool (.poll id) → ¬ c.FindsEnd id) : GivesUp g id c m := by
  rintro call session c' hcall hst hm ⟨r, hended⟩
  have hs := Pool.standing?_of_call? hcall
  have hsup := hsound.supervised hs
  rw [hsup, hst] at hs
  have hstep := step_of_step? hm
  rcases standing?_of_step hstep hs with hs' | ⟨move, rfl⟩ | ⟨-, hnone⟩
  · cases hs'.symm.trans hended
  · cases hstep with
    | pool hp =>
        rcases Pool.call?_of_step hp hcall with ⟨hcall', -⟩ | ⟨call', hcall', hacts⟩
        · rw [Pool.standing?_of_call? hcall', hsup, hst] at hended
          cases hended
        · rw [Pool.standing?_of_call? hcall'] at hended
          cases hacts with
          | poll hp =>
              refine Call.released_of_poll? hst (hk.withdrawn hcall (hgap rfl)) hsup hp ?_
              injection hended with hended
              injection hended with _ hended
              rw [hended]
              rfl
          | carry hp =>
              obtain ⟨_, _, _, hat, -⟩ := Call.carry?_eq_some_iff.1 hp
              cases hst.symm.trans hat
          | expire hp =>
              obtain ⟨_, _, _, hat, hawait, -⟩ := Call.expire?_eq_some_iff.1 hp
              cases hst.symm.trans hat
              cases hawait
          | report hr => cases hst.symm.trans hr
  · cases hnone.symm.trans hended

/-- **As long as the caller has not ended the messages** and the call is not polled in the gap, an
upload goes on, or fails. -/
theorem unfinished_of_run {ms : List Move} (hsound : c.Sound) (hu : c.Unfinished id)
    (hk : c.KeepsMessages id) (ht : c.TearsInPairs) (hr : c.run? g.server ms = some d)
    (hin : ∀ e ∈ c.visited g.server ms, e.pool.contains id = true)
    (hread : ∀ f ∈ c.framesRead g.server ms, f.kind = .halfClose → f.callId ≠ id)
    (hgap : Throughout g.server (fun e m => m = .pool (.poll id) → ¬ e.FindsEnd id) c ms) :
    (∀ e ∈ c.visited g.server ms, e.Unfinished id) ∧
      Throughout g.server (GivesUp g id) c ms := by
  induction ms generalizing c with
  | nil =>
      refine ⟨fun e he => ?_, trivial⟩
      rw [visited, List.mem_singleton] at he
      rwa [he]
  | cons m ms ih =>
      obtain ⟨c', hm, hr⟩ := run?_cons.1 hr
      have hstep := step_of_step? hm
      rw [visited_cons hm] at hin ⊢
      rw [framesRead_cons hm] at hread
      have hin' := hin c' (List.mem_cons_of_mem _ (mem_visited_self c' ms))
      rw [throughout_cons hm] at hgap ⊢
      obtain ⟨hall, hgives⟩ := ih (hsound.step hstep) (hu.step hk hstep hin' hgap.1)
        (hk.step ht hstep fun f hf => hread f (List.mem_append_left _ hf)) (ht.step hstep) hr
        (fun e he => hin e (List.mem_cons_of_mem _ he))
        (fun f hf => hread f (List.mem_append_right _ hf)) hgap.2
      refine ⟨fun e he => ?_, givesUp_of_step hsound hk hgap.1, hgives⟩
      rcases List.mem_cons.1 he with rfl | he
      · exact hu
      · exact hall e he

/-- **An upload whose caller has not ended the messages never comes to its end**: in every run in
which no frame ends them and the call is not polled in the gap, whether the connection is lost or
not and however many messages have come, it goes on or fails; and if it ends while it waits for a
message, it gives up what it has opened. -/
theorem unfinished_without_halfClose (g : Gateway) (world : GatewayWorld) {before : List Move}
    (hreach : (start world).run? g.server before = some c) {f : Frame} {rest : Bytes}
    {r : CallRequest} (hread : c.Reads g.server f rest) (hk : f.kind = .call)
    (hp : (Payload.ofBytes f.payload : Except GatewayError CallRequest) = .ok r)
    (hup : Gateway.IsUpload r) (hfree : c.pool.contains f.callId = false) :
    ∃ c', c.step? g.server .read = some c' ∧
      ∀ ms d, c'.run? g.server ms = some d →
        (∀ e ∈ c'.visited g.server ms, e.pool.contains f.callId = true) →
        (∀ h ∈ c'.framesRead g.server ms, h.kind = .halfClose → h.callId ≠ f.callId) →
        Throughout g.server (fun e m => m = .pool (.poll f.callId) → ¬ e.FindsEnd f.callId) c' ms →
        (∀ e ∈ c'.visited g.server ms, e.Unfinished f.callId) ∧
          Throughout g.server (GivesUp g f.callId) c' ms := by
  obtain ⟨pool, hspawn, hstep⟩ := step?_accept hread hk hp hfree
  obtain ⟨mode, haccept⟩ := g.accept_of_isUpload hup
  have hs : pool.standing? f.callId = some (true, .starting (.done (.uploading (.new mode)))) := by
    rw [Pool.standing?_spawn hspawn, Function.update_self]
    show some (true, CallStage.opening (g.accept r)) = _
    rw [haccept]
    rfl
  have hkeeps : KeepsMessages f.callId { c with unread := rest, pool } := by
    intro call hm hid hsending
    obtain ⟨-, rfl⟩ := Pool.spawn_eq_ok_iff.1 hspawn
    rcases List.mem_append.1 hm with hm | hm
    · -- No other call has the number.
      have hin := Pool.mem_numbers_iff.1 (List.mem_map_of_mem (f := (·.id)) hm)
      rw [hid, hfree] at hin
      cases hin
    · rw [List.mem_singleton.1 hm] at hsending
      cases hsending
  refine ⟨_, hstep, fun ms d hr hin hnone hgap => ?_⟩
  exact unfinished_of_run ((sound_of_run? hreach).step (step_of_step? hstep))
    ⟨_, hs, Or.inl trivial⟩ hkeeps (.of_stage hread.serving nofun) hr hin hnone hgap

/-! ## The gap -/

/-- **The end of the messages, as an upload to a file takes it**: the file is kept, and the receipt
waits to be sent. -/
theorem run?_end {call : Call GatewayWorld HandlerState} {session : Upload.Session StagedPackage}
    {path : String} {number written : Nat} (hcall : c.pool.call? id = some call)
    (hst : call.stage = .awaiting (.uploading session)) (hstate : session.state = .receiving)
    (hsink : session.sink = some (.file path number written)) (hq : call.inbox.queue = [])
    (hs : call.inbox.sending = false) (hw : call.withdrawn = false)
    (ha : c.pool.allWithdrawn = false) :
    ∃ d reply, c.run? g.server [.pool (.poll id), .pool (.carry id), .pool (.poll id)] = some d ∧
      d.stage = c.stage ∧ d.shared.world = c.shared.world ∧
      d.pool.call? id = some { call with stage := .awaiting (.replying reply) } := by
  have hid := Pool.id_of_call? hcall
  have hno : (call.withdrawn || c.pool.allWithdrawn) = false := by rw [hw, ha, Bool.or_false]
  have htake : call.inbox.take? = some (none, call.inbox) := by
    rw [Inbox.take?, hq, hs]
    rfl
  -- One step is left to hand over, and then the receipt can be sent.
  let receipt : Upload.Outcome :=
    ⟨session.mode, session.destination, session.bytesWritten, session.chunks⟩
  let release : GatewayWorld → GatewayWorld := (·.discard path)
  let job : Job GatewayWorld HandlerState :=
    .done (.replying (Payload.toBytes (Gateway.receipt receipt)))
  have hjob : g.takeChunk session none = .blocking (fun w => w) release fun _ => job := by
    simp only [Gateway.takeChunk, Upload.Session.finish, hstate, hsink]
    rfl
  have found : ∀ {p : Pool GatewayWorld HandlerState} {k : Call GatewayWorld HandlerState}
      (k' : Call GatewayWorld HandlerState), p.call? id = some k → k'.id = id →
      (p.replace k').call? id = some k' := fun k' hk hid => by
    rw [Pool.call?_replace hk hid, if_pos rfl]
  let handed := { call with stage := .handed (fun w => w) release fun _ => job }
  have hpoll : call.poll? g.handler c.pool.allWithdrawn c.shared = some (handed, c.shared) := by
    simp only [Call.poll?, hst, hno, Bool.and_false, Bool.false_and, Bool.false_eq_true, if_false,
      Call.proceed?, Gateway.handler, htake, hjob]
    rfl
  have hhanded := found handed hcall hid
  let carried := { call with stage := .carried release job }
  have hcarried := found carried hhanded hid
  let replying : Call GatewayWorld HandlerState :=
    { call with stage := .awaiting (.replying (Payload.toBytes (Gateway.receipt receipt))) }
  have hgo : carried.poll? g.handler c.pool.allWithdrawn c.shared =
      some (replying, c.shared) := by
    simp only [carried, Call.poll?, hno, Bool.and_false, Bool.false_and, Bool.false_eq_true,
      if_false]
    rfl
  let c1 := { c with pool := c.pool.replace handed }
  have h1 : c.step? g.server (.pool (.poll id)) = some c1 := step?_poll hcall hpoll
  let c2 := { c with pool := c1.pool.replace carried }
  have h2 : c1.step? g.server (.pool (.carry id)) = some c2 := step?_carry hhanded rfl
  let c3 := { c with pool := c2.pool.replace replying }
  have h3 : c2.step? g.server (.pool (.poll id)) = some c3 := step?_poll hcarried hgo
  exact ⟨c3, _, run?_cons.2 ⟨c1, h1, run?_cons.2 ⟨c2, h2, run?_cons.2 ⟨c3, h3, rfl⟩⟩⟩, rfl, rfl,
    found replying hcarried hid⟩

/-- **A poll in the gap keeps the file of an upload** whose caller has not ended the messages, and
the caller is told that the call was cancelled. -/
theorem kept_in_gap {call : Call GatewayWorld HandlerState}
    {session : Upload.Session StagedPackage} {path : String} {number written : Nat}
    {steps : List Pool.TeardownStep} {result : Except GatewayError Unit}
    (hgap : c.stage = .withdrawing (.withdraw id :: steps) result)
    (hcall : c.pool.call? id = some call) (hsup : call.supervised = true)
    (hst : call.stage = .awaiting (.uploading session)) (hstate : session.state = .receiving)
    (hsink : session.sink = some (.file path number written)) (hq : call.inbox.queue = [])
    (hs : call.inbox.sending = false) (hw : call.withdrawn = false)
    (ha : c.pool.allWithdrawn = false) :
    ∃ d, c.run? g.server [.pool (.poll id), .pool (.carry id), .pool (.poll id), .proceed,
        .pool (.poll id)] = some d ∧
      d.stage = .withdrawing steps result ∧ d.shared.world = c.shared.world ∧
      d.pool.standing? id = some (true, .ended (.error .cancelled)) := by
  obtain ⟨e, reply, hrun, hstage, hworld, hreplying⟩ :=
    run?_end (g := g) hcall hst hstate hsink hq hs hw ha
  have htear : e.step? g.server .proceed =
      some { e with pool := e.pool.cancel id, stage := .withdrawing steps result } := by
    simp only [step?, proceed?, hstage.trans hgap, Pool.tear]
  let replying : Call GatewayWorld HandlerState :=
    { call with stage := .awaiting (.replying reply) }
  have hwithdrawn : (e.pool.cancel id).call? id = some { replying with withdrawn := true } := by
    have hmap : (e.pool.cancel id).call? id =
        (e.pool.call? id).map fun k => if k.id = id then { k with withdrawn := true } else k :=
      Pool.call?_map (fun k => by split <;> rfl) rfl id
    rw [hmap, hreplying, Option.map_some, if_pos (Pool.id_of_call? hcall)]
  have hdrop := poll_withdrawn (s := g.server)
    (c := { e with pool := e.pool.cancel id, stage := .withdrawing steps result })
    hwithdrawn hsup rfl rfl
  refine ⟨_, run?_append hrun (run?_cons.2 ⟨_, htear, run?_cons.2 ⟨_, hdrop, rfl⟩⟩), rfl,
    hworld, ?_⟩
  have hid : call.id = id := Pool.id_of_call? hcall
  rw [Pool.standing?_replace hwithdrawn
    (show (Call.conclude { replying with withdrawn := true } _).id = id from hid),
    Function.update_self]
  simp only [Call.conclude, hsup, if_true, replying]

end Uploads

/-! ## An upload of one message -/

/-- A connection with an upload that has been accepted, and a message on its way to it. -/
def begunUpload (message : Bytes) : Connection GatewayWorld HandlerState :=
  { (start ⟨Disk.ofClock 0, .new⟩ : Connection GatewayWorld HandlerState) with
    pool := ⟨[.start 1 true (.starting (.done (.uploading (.new .save))))], false, []⟩
    stage := .feeding 1 message }

/-- A request for an upload. -/
def uploadRequest : Frame :=
  ⟨.call, 1, Payload.toBytes (⟨"filesystem", "upload", []⟩ : CallRequest), by decide⟩

/-- The only message of the upload. -/
def uploadMessage : Frame :=
  ⟨.message, 1, Payload.toBytes (⟨some "a", [65]⟩ : UploadChunk), by decide⟩

theorem ofBytes_uploadRequest :
    (Payload.ofBytes uploadRequest.payload : Except GatewayError CallRequest) =
      .ok ⟨"filesystem", "upload", []⟩ := CallRequest.ofBytes_toBytes (by decide)

/-- Two reads make a connection with an upload. -/
theorem reads_begunUpload (g : Gateway) :
    let data := uploadRequest.toBytes .standard ++ uploadMessage.toBytes .standard
    (arrived ⟨Disk.ofClock 0, .new⟩ data).Reads g.server uploadRequest
        (uploadMessage.toBytes .standard) ∧
      ∃ c, (arrived ⟨Disk.ofClock 0, .new⟩ data).step? g.server .read = some c ∧
        c.step? g.server .read = some (begunUpload uploadMessage.payload) ∧
        c.frameRead g.server .read = [uploadMessage] ∧ c.pool.contains 1 = true := by
  intro data
  have hread : (arrived ⟨Disk.ofClock 0, .new⟩ data).Reads g.server uploadRequest
      (uploadMessage.toBytes .standard) := reads_toBytes rfl rfl
  obtain ⟨pool, hspawn, hstep⟩ := step?_accept hread rfl ofBytes_uploadRequest rfl
  have hpool : pool = ⟨[.start 1 true (.starting (.done (.uploading (.new .save))))], false, []⟩ := by
    have haccept : g.accept ⟨"filesystem", "upload", []⟩ =
        .ok (.done (.uploading (.new .save))) :=
      g.accept_of_method .filesystem rfl (by decide)
    obtain ⟨-, rfl⟩ := Pool.spawn_eq_ok_iff.1 hspawn
    show Pool.mk [.start 1 true (.opening (g.accept _))] false [] = _
    rw [haccept]
    rfl
  subst hpool
  let c : Connection GatewayWorld HandlerState :=
    { begunUpload [] with stage := .serving, unread := uploadMessage.toBytes .standard }
  have hmessage : c.Reads g.server uploadMessage [] := reads_last rfl rfl
  exact ⟨hread, c, hstep, step?_message hmessage rfl, frameRead_of_frame hmessage.decoded, rfl⟩

/-- The caller hangs up, and no call is polled in the gap: the upload does not come to its end, and
its file is gone. -/
theorem discarded_on_lost_connection :
    let g : Gateway := ⟨"/media", ⟨"/staging", "/install", "1"⟩, fun _ _ _ => none, ⟨0⟩⟩
    let data := uploadRequest.toBytes .standard ++ uploadMessage.toBytes .standard
    let ms : List Move :=
      [.read, .proceed, .pool (.poll 1), .pool (.poll 1), .pool (.carry 1), .pool (.poll 1),
        .pool (.carry 1), .pool (.poll 1), .pool (.carry 1), .pool (.poll 1), .hangUp, .read,
        .proceed, .proceed, .pool (.poll 1), .proceed, .pool (.poll 1), .pool (.report 1), .proceed,
        .write, .proceed]
    ∃ c d, (arrived ⟨Disk.ofClock 0, .new⟩ data).step? g.server .read = some c ∧
      c.run? g.server ms = some d ∧ d.result?.isSome = true ∧
      (∀ e ∈ c.visited g.server ms, e.Unfinished 1) ∧
      d.shared.world.disk.fileData "a" = .error .missing := by
  intro g data ms
  obtain ⟨hread, c, hstep, hmessage, hframes, hin⟩ := reads_begunUpload g
  obtain ⟨c', hstep', hall⟩ := unfinished_without_halfClose g _ (run?_arrive _ data) hread rfl
    ofBytes_uploadRequest (Or.inl ⟨rfl, rfl⟩) rfl
  cases hstep.symm.trans hstep'
  have hrun : ((begunUpload uploadMessage.payload).run? g.server ms.tail).map (fun d =>
      (d.result?.isSome, d.shared.world.disk.fileData "a")) = some (true, .error .missing) := by
    decide +kernel
  obtain ⟨d, hd, hlast⟩ := Option.map_eq_some_iff.1 hrun
  rw [Prod.mk.injEq] at hlast
  refine ⟨c, d, hstep, run?_cons.2 ⟨_, hmessage, hd⟩, hlast.1, ?_, hlast.2⟩
  refine (hall ms d (run?_cons.2 ⟨_, hmessage, hd⟩) ?_ ?_ ?_).1
  · rw [visited_cons hmessage]
    refine List.forall_mem_cons.2 ⟨hin, ?_⟩
    decide +kernel
  · rw [framesRead_cons hmessage, hframes]
    refine List.forall_mem_cons.2 ⟨nofun, ?_⟩
    decide +kernel
  · refine (throughout_cons hmessage).2 ⟨nofun, ?_⟩
    decide +kernel

/-- **The caller hangs up, and the upload is polled in the gap**: no frame has ended its messages, but
its file is kept. -/
theorem kept_on_lost_connection :
    let g : Gateway := ⟨"/media", ⟨"/staging", "/install", "1"⟩, fun _ _ _ => none, ⟨0⟩⟩
    let data := uploadRequest.toBytes .standard ++ uploadMessage.toBytes .standard
    let ms : List Move :=
      [.read, .proceed, .pool (.poll 1), .pool (.poll 1), .pool (.carry 1), .pool (.poll 1),
        .pool (.carry 1), .pool (.poll 1), .pool (.carry 1), .pool (.poll 1), .hangUp, .read,
        .proceed, .pool (.poll 1), .pool (.carry 1), .pool (.poll 1), .proceed, .pool (.poll 1),
        .proceed, .pool (.poll 1), .pool (.report 1), .proceed, .write, .proceed]
    ∃ c d, (start ⟨Disk.ofClock 0, .new⟩).run? g.server [.arrive data, .read] = some c ∧
      c.run? g.server ms = some d ∧ d.result?.isSome = true ∧
      (∀ f ∈ c.framesRead g.server ms, f.kind ≠ .halfClose) ∧
      d.shared.world.disk.fileData "a" = .ok [65] := by
  intro g data ms
  obtain ⟨-, c, hstep, hmessage, hframes, -⟩ := reads_begunUpload g
  have hrun : ((begunUpload uploadMessage.payload).run? g.server ms.tail).map (fun d =>
      (d.result?.isSome, d.shared.world.disk.fileData "a")) = some (true, .ok [65]) := by
    decide +kernel
  obtain ⟨d, hd, hlast⟩ := Option.map_eq_some_iff.1 hrun
  rw [Prod.mk.injEq] at hlast
  refine ⟨c, d, run?_cons.2 ⟨_, step?_arrive _ data, run?_cons.2 ⟨c, hstep, rfl⟩⟩,
    run?_cons.2 ⟨_, hmessage, hd⟩, hlast.1, ?_, hlast.2⟩
  rw [framesRead_cons hmessage, hframes]
  refine List.forall_mem_cons.2 ⟨nofun, ?_⟩
  decide +kernel

end Connection

end DeviceGateway
