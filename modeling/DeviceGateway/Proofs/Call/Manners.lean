import DeviceGateway.Proofs.Call.Leading
import DeviceGateway.Proofs.Call.PoolLookup
import DeviceGateway.Proofs.Call.Replying

/-!
# The manners of handlers

Which end of a call goes with the messages that it has sent is a matter of its manner. A manner says
what can be said of the messages sent so far, of the state in which the handler waits and of a view
of the world, and which results may go with which messages and views in the end (`Manner`). A handler
has a manner if it is led on along it from every state, whatever its caller says, whatever a provider
answers, and whether or not a message goes out (`Manner.KeptBy`).

A call may be cancelled wherever its handler waits. So a handler that goes on after a message must
leave it in such a way that it may be cancelled behind it, unless it is done at once
(`Manner.Continues`). Then each step of a call keeps to the manner (`Manner.Minds.acts`).
-/

namespace DeviceGateway

variable {ω σ ν : Type}

/-- **The manner of a handler.** -/
structure Manner (σ ν : Type) where
  /-- What can be said while the handler waits in a state, after some messages. -/
  holds : List Bytes → σ → ν → Prop
  /-- Which results go with the messages that were sent and with what is seen in the end. -/
  ends : List Bytes → Except GatewayError Unit → ν → Prop

/-- Why a message does not go out: nobody writes any more, or it does not fit a frame. -/
def Unsent (m : Bytes) (e : GatewayError) : Prop :=
  e = .channelClosed ∨ Frame.maxPayload < m.length

namespace Manner

variable (k : Manner σ ν)

/-- A call may be cancelled after some messages. -/
def Drops (sent : List Bytes) : Prop := ∀ seen, k.ends sent (.error .cancelled) seen

/-- **A handler goes on after some messages**: it may be cancelled behind them, or is done at
once. -/
def Continues (h : Handler ω σ) (view : ω → ν) (sent : List Bytes) (j : Job ω σ) (seen : ν) :
    Prop :=
  j.Leads view (k.holds sent) seen ∧
    (k.Drops sent ∨ ∃ state result, j = .done state ∧ h.await state = .finish result)

/-- **Whether what a handler waits for leads on along the manner.** -/
def Allows (h : Handler ω σ) (view : ω → ν) (sent : List Bytes) (seen : ν) : Await ω σ → Prop
  | .finish result => k.ends sent result seen
  | .receive next => ∀ m, (next m).Leads view (k.holds sent) seen
  | .send m next =>
    k.Continues h view (sent ++ [m]) (next (.ok ())) seen ∧
      ∀ e, Unsent m e → (next (.error e)).Leads view (k.holds sent) seen
  | .provider _ _ next => ∀ answer, (next answer).Leads view (k.holds sent) seen
  | .withdrawal next | .deafness next => next.Leads view (k.holds sent) seen

/-- **A handler keeps to a manner** if it is led on along it from every state. -/
def KeptBy (h : Handler ω σ) (view : ω → ν) : Prop :=
  ∀ sent state seen, k.holds sent state seen → k.Allows h view sent seen (h.await state)

/-- **A call that keeps to a manner**, by what its handler has sent and returned. -/
inductive Minds (view : ω → ν) (sent : List Bytes) (returned : List (Except GatewayError Unit))
    (seen : ν) (c : Call ω σ) : Prop where
  | working (hr : returned = []) (hdrop : k.Drops sent)
      (hstage : c.stage.Leads view (k.holds sent) seen)
  | done (hdone : c.stage.isDone = true) (hr : ∀ result ∈ returned, k.ends sent result seen)
      (hdrop : returned = [] → k.ends sent (.error .cancelled) seen)

end Manner

/-! ## Steps of a call -/

theorem CallStage.not_live_of_isDone {stage : CallStage ω σ} (h : stage.isDone = true) :
    stage.isLive = false := by
  cases stage with
  | ended | reporting | gone => rfl
  | starting | refused | awaiting | handed | carried => cases h

/-- A call whose handler is done leaves the world alone, and stays so. -/
theorem Call.world_poll?_of_done {h : Handler ω σ} {c c' : Call ω σ} {s s' : Shared ω}
    {allWithdrawn : Bool} (hdone : c.stage.isDone = true)
    (hp : c.poll? h allWithdrawn s = some (c', s')) :
    s'.world = s.world ∧ c'.stage.isDone = true := by
  have hl := CallStage.not_live_of_isDone hdone
  cases polls_of_poll? hp with
  | dropped hcancelled => cases hl.symm.trans (isLive_of_isCancelled hcancelled)
  | resumed _ hres => cases hl.symm.trans hres.live
  | finished _ hst | refused hst =>
      rw [hst] at hdone
      cases hdone
  | told => exact ⟨rfl, rfl⟩

/-- Why a message does not go out. -/
theorem Outbox.unsent_of_send? {b b' : Outbox} {id : UInt64} {m : Bytes} {e : GatewayError}
    (hs : b.send? id m = some (.error e, b')) : Unsent m e := by
  cases sends_of_send? hs with
  | tooLarge hlong => exact .inr hlong
  | closed => exact .inl rfl

namespace Manner

variable {k : Manner σ ν} {h : Handler ω σ} {view : ω → ν} {sent : List Bytes}
  {returned : List (Except GatewayError Unit)} {c c' d : Call ω σ} {s s' u : Shared ω}
  {allWithdrawn : Bool}

/-- The handler is done. -/
theorem minds_of_ended {result : Except GatewayError Unit} {seen : ν}
    (hstays : c.isCancelled allWithdrawn = false) (hl : c.stage.isLive = true)
    (hst : c'.stage = .ended result) (he : k.ends sent result seen) :
    k.Minds view sent (c.returns allWithdrawn c') seen c' := by
  rw [Call.returns_of_ended hstays hl hst]
  refine .done (by rw [hst]; rfl) ?_ ?_
  · intro result' hr
    rwa [List.mem_singleton.1 hr]
  · intro hr
    cases hr

/-- **A handler that goes on** keeps to its manner: it waits again, or is done. -/
theorem minds_of_resume (hk : k.KeptBy h view) (hstays : c.isCancelled allWithdrawn = false)
    (hl : c.stage.isLive = true) (hsup : d.supervised = true) {j : Job ω σ} {w : ω}
    (hj : k.Continues h view sent j (view w))
    (hr : Call.resume h d u j w = (c', s')) :
    k.Minds view sent (c.returns allWithdrawn c') (view s'.world) c' := by
  obtain ⟨hleads, hsafe⟩ := hj
  rcases Call.leads_of_resume hr hleads with ⟨hstage, -⟩ | ⟨state, result, hstate, hfinish, hc⟩
  · have hlive := CallStage.isLive_of_leads hstage
    rw [Call.returns_of_going_on hlive]
    rcases hsafe with hdrop | ⟨state, result, rfl, hfinish⟩
    · exact .working rfl hdrop hstage
    · -- a handler that is done at once does not wait again
      rw [Call.resume, hfinish] at hr
      have hst : c'.stage = .ended result := by
        cases hr
        exact Call.stage_conclude hsup result
      rw [hst] at hlive
      cases hlive
  · have hst : c'.stage = .ended result := by
      rw [hc, Call.stage_conclude hsup]
    have hends := hk sent state _ hstate
    rw [hfinish] at hends
    exact minds_of_ended hstays hl hst hends

/-- **The handler goes on** with what it was at, or with what it has waited for. -/
theorem minds_of_resumes (hk : k.KeptBy h view) (hstays : c.isCancelled allWithdrawn = false)
    (hsup : c.supervised = true) (hdrop : k.Drops sent)
    (hstage : c.stage.Leads view (k.holds sent) (view s.world)) {j : Job ω σ}
    (hres : Call.Resumes h allWithdrawn c s d u j)
    (hr : Call.resume h d u j s.world = (c', s')) :
    k.Minds view (sent ++ c.sends h allWithdrawn s) (c.returns allWithdrawn c') (view s'.world)
      c' := by
  have hl := hres.live
  have allows {state : σ} {await : Await ω σ} (hst : c.stage = .awaiting state)
      (hawait : h.await state = await) : k.Allows h view sent (view s.world) await :=
    hawait ▸ hk sent state _ (hstage.of_eq hst)
  -- Nothing is sent unless the handler waits to send.
  have silent (hd : d.supervised = true) (hsends : c.sends h allWithdrawn s = [])
      (hj : j.Leads view (k.holds sent) (view s.world)) :
      k.Minds view (sent ++ c.sends h allWithdrawn s) (c.returns allWithdrawn c') (view s'.world)
        c' := by
    rw [hsends, List.append_nil]
    exact minds_of_resume hk hstays hl hd ⟨hj, .inl hdrop⟩ hr
  cases hres with
  | started hst | carried hst =>
      refine silent hsup ?_ (hstage.of_eq hst)
      simp only [Call.sends, hstays, hst, Bool.false_eq_true, if_false]
  | received hst hawait | answered hst hawait =>
      refine silent hsup ?_ (allows hst hawait _)
      rw [Call.sends_of_awaiting hstays hst, hawait]
      rfl
  | withdrawn hst hawait | deafened hst hawait =>
      refine silent hsup ?_ (allows hst hawait)
      rw [Call.sends_of_awaiting hstays hst, hawait]
      rfl
  | @sent state m next result outbox hst hawait hsend =>
      obtain ⟨hok, herror⟩ := allows hst hawait
      rw [Call.sends_of_awaiting hstays hst, hawait, Call.posts, hsend]
      cases result with
      | ok => exact minds_of_resume hk hstays hl hsup hok hr
      | error e =>
          have hunsent := Outbox.unsent_of_send? hsend
          dsimp only
          rw [List.append_nil]
          exact minds_of_resume hk hstays hl hsup ⟨herror e hunsent, .inl hdrop⟩ hr

namespace Minds

variable (hm : k.Minds view sent returned (view s.world) c)
include hm

/-- **One step of a call that keeps to a manner.** -/
theorem poll (hk : k.KeptBy h view) (hsup : c.supervised = true)
    (hp : c.poll? h allWithdrawn s = some (c', s')) :
    k.Minds view (sent ++ c.sends h allWithdrawn s) (returned ++ c.returns allWithdrawn c')
      (view s'.world) c' := by
  cases hm with
  | done hdone hr hdrop =>
      have hl := CallStage.not_live_of_isDone hdone
      obtain ⟨hworld, hdone'⟩ := Call.world_poll?_of_done hdone hp
      rw [Call.sends_of_not_live hl, Call.returns_of_not_live hl, List.append_nil,
        List.append_nil, hworld]
      exact .done hdone' hr hdrop
  | working hr hdrop hstage =>
      have hl := CallStage.isLive_of_leads hstage
      rw [hr, List.nil_append]
      cases Call.polls_of_poll? hp with
      | dropped hcancelled =>
          rw [Call.returns_of_cancelled hcancelled, Call.sends, if_pos hcancelled,
            List.append_nil]
          refine .done ?_ (fun _ hmem => absurd hmem List.not_mem_nil) fun _ => hdrop _
          rw [Call.stage_conclude hsup]
          rfl
      | resumed hstays hres hr => exact minds_of_resumes hk hstays hsup hdrop hstage hres hr
      | @finished state result hstays hst hfinish =>
          have hends := hk sent state _ (hstage.of_eq hst)
          rw [hfinish] at hends
          rw [Call.sends_of_awaiting hstays hst, hfinish,
            show c.posts s.outbox (.finish result) = [] from rfl, List.append_nil]
          exact minds_of_ended hstays hl (Call.stage_conclude hsup result) hends
      | refused hst | told hst => cases hstage.of_eq hst

/-- The system carries out a step for it. -/
theorem carry (hp : c.carry? s = some (c', s')) :
    k.Minds view sent (returned ++ c.returns allWithdrawn c') (view s'.world) c' := by
  obtain ⟨hl, hl'⟩ := Call.live_of_carry? hp
  rw [Call.returns_of_going_on hl', List.append_nil]
  cases hm with
  | working hr hdrop hstage => exact .working hr hdrop (Call.leads_carry? hp hstage).1
  | done hdone =>
      rw [CallStage.not_live_of_isDone hdone] at hl
      cases hl

/-- The limit of a provider runs out. -/
theorem expire (hk : k.KeptBy h view) (hsup : c.supervised = true)
    (hstays : c.isCancelled allWithdrawn = false) (hp : c.expire? h s = some (c', s')) :
    k.Minds view sent (returned ++ c.returns allWithdrawn c') (view s'.world) c' := by
  obtain ⟨hl, -⟩ := Call.of_expire? hp
  cases hm with
  | done hdone =>
      rw [CallStage.not_live_of_isDone hdone] at hl
      cases hl
  | working hr hdrop hstage =>
      rw [hr, List.nil_append]
      obtain ⟨state, limit, next, hst, hawait, hr⟩ := Call.expire?_eq_some_iff.1 hp
      have hallow := hk sent state _ (hstage.of_eq hst)
      rw [hawait] at hallow
      exact minds_of_resume hk hstays hl hsup ⟨hallow _, .inl hdrop⟩ hr

/-- **A step of its own keeps a call to its manner.** -/
theorem acts {p : Pool ω σ} {id : UInt64} {move : Pool.Move} (hk : k.KeptBy h view)
    (hsup : c.supervised = true) (hacts : Pool.Acts h p s id c move c' s') :
    k.Minds view (sent ++ if move = .poll id then c.sends h p.allWithdrawn s else [])
      (returned ++ c.returns p.allWithdrawn c') (view s'.world) c' := by
  cases hacts with
  | poll hp =>
      rw [if_pos rfl]
      exact hm.poll hk hsup hp
  | carry hp =>
      rw [if_neg (fun hno => by cases hno), List.append_nil]
      exact hm.carry hp
  | expire hp hstays =>
      have hnot : c.isCancelled p.allWithdrawn = false := by
        rw [Call.isCancelled, hstays, Bool.false_and]
      rw [if_neg (fun hno => by cases hno), List.append_nil]
      exact hm.expire hk hsup hnot hp
  | report hst =>
      have hl : c.stage.isLive = false := by
        rw [hst]
        rfl
      rw [if_neg (fun hno => by cases hno), Call.returns_of_not_live hl, List.append_nil,
        List.append_nil]
      cases hm with
      | working _ _ hstage =>
          rw [CallStage.isLive_of_leads hstage] at hl
          cases hl
      | done _ hr hdrop => exact .done rfl hr hdrop

end Minds

end Manner

end DeviceGateway
