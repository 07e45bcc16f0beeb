import DeviceGateway.Proofs.Call.Course
import DeviceGateway.Proofs.Call.PoolNumbers

/-!
# What a handler says and comes back with

A step of a call puts a message into the outbox if its handler sends one (`Call.sends`), and nothing
else as long as the handler is at work (`Call.posts_of_poll?`). The handler comes back with a result
(`Call.returns`) when it comes to a state in which it is finished (`Call.finish_of_poll?`). A call
that has been cancelled by then is dropped in its next step: its handler sends nothing in it and
never comes back (`Call.ended_of_cancelled`).
-/

namespace DeviceGateway

variable {ω σ : Type}

namespace Call

/-- What a handler sends that waits: a message for which there is room, if it fits a frame. -/
def posts (c : Call ω σ) (b : Outbox) : Await ω σ → List Bytes
  | .send payload _ =>
    match b.send? c.id payload with
    | some (.ok (), _) => [payload]
    | _ => []
  | _ => []

/-- **What the handler of a call sends in a step.** -/
def sends (h : Handler ω σ) (allWithdrawn : Bool) (c : Call ω σ) (s : Shared ω) : List Bytes :=
  if c.isCancelled allWithdrawn then []
  else match c.stage with
    | .awaiting state => c.posts s.outbox (h.await state)
    | _ => []

/-- **What the handler of a call comes back with in a step**, if it is done after it. A handler that
is dropped does not come back. -/
def returns (allWithdrawn : Bool) (c c' : Call ω σ) : List (Except GatewayError Unit) :=
  if c.isCancelled allWithdrawn || !c.stage.isLive then []
  else match c'.stage with
    | .ended result => [result]
    | _ => []

variable {h : Handler ω σ} {c c' : Call ω σ} {s s' : Shared ω} {allWithdrawn : Bool}
  {result : Except GatewayError Unit}

theorem isCancelled_of_live (hsup : c.supervised = true) (hl : c.stage.isLive = true) :
    c.isCancelled allWithdrawn = (c.withdrawn || allWithdrawn) := by
  rw [isCancelled, hsup, hl, Bool.and_true, Bool.true_and]

theorem sends_of_not_live (hl : c.stage.isLive = false) : c.sends h allWithdrawn s = [] := by
  rw [sends, not_isCancelled hl, if_neg Bool.false_ne_true]
  split
  · next state hst =>
    rw [hst] at hl
    cases hl
  · rfl

theorem sends_of_awaiting {state : σ} (hstays : c.isCancelled allWithdrawn = false)
    (hst : c.stage = .awaiting state) :
    c.sends h allWithdrawn s = c.posts s.outbox (h.await state) := by
  simp only [sends, hstays, hst, Bool.false_eq_true, if_false]

theorem returns_of_not_live (hl : c.stage.isLive = false) : c.returns allWithdrawn c' = [] := by
  rw [returns, hl, Bool.not_false, Bool.or_true, if_pos rfl]

theorem returns_of_going_on (hl : c'.stage.isLive = true) : c.returns allWithdrawn c' = [] := by
  rw [returns]
  split
  · rfl
  · split
    · next result hst =>
      rw [hst] at hl
      cases hl
    · rfl

theorem returns_of_cancelled (hc : c.isCancelled allWithdrawn = true) :
    c.returns allWithdrawn c' = [] := by
  rw [returns, hc, Bool.true_or, if_pos rfl]

theorem returns_of_ended (hc : c.isCancelled allWithdrawn = false) (hl : c.stage.isLive = true)
    (hst : c'.stage = .ended result) : c.returns allWithdrawn c' = [result] := by
  simp only [returns, hc, hl, hst, Bool.not_true, Bool.or_self, Bool.false_eq_true, if_false]

theorem of_mem_returns (hr : result ∈ c.returns allWithdrawn c') :
    c.isCancelled allWithdrawn = false ∧ c.stage.isLive = true ∧ c'.stage = .ended result := by
  rw [returns] at hr
  split at hr
  · cases hr
  · next hat =>
    simp only [Bool.or_eq_true, not_or, Bool.not_eq_true, Bool.not_eq_false'] at hat
    split at hr
    · next result' hst =>
      rw [List.mem_singleton.1 hr]
      exact ⟨hat.1, hat.2, hst⟩
    · cases hr

/-! ## What is put into the outbox -/

/-- Sending puts in the message that the handler sends, or nothing. -/
theorem posts_of_send? {payload : Bytes} {next : Except GatewayError Unit → Job ω σ}
    {sent : Except GatewayError Unit} {outbox : Outbox}
    (hsend : s.outbox.send? c.id payload = some (sent, outbox)) :
    Course.Says c.id s.outbox outbox (c.posts s.outbox (.send payload next)) := by
  simp only [posts, hsend]
  cases Outbox.sends_of_send? hsend with
  | tooLarge | closed => exact .nothing rfl
  | sent hfits hput => exact .message ⟨.message, c.id, payload, hfits⟩ rfl rfl hput

/-- What lets a handler go on puts into the outbox what the handler sends. -/
theorem Resumes.posts {d : Call ω σ} {u : Shared ω} {j : Job ω σ}
    (hstays : c.isCancelled allWithdrawn = false) (hres : Resumes h allWithdrawn c s d u j) :
    Course.Says c.id s.outbox u.outbox (c.sends h allWithdrawn s) := by
  cases hres with
  | started hst | carried hst =>
      simp only [sends, hstays, hst, Bool.false_eq_true, if_false]
      exact .nothing rfl
  | sent hst hawait hsend =>
      rw [sends_of_awaiting hstays hst, hawait]
      exact posts_of_send? hsend
  | received hst hawait | answered hst hawait | withdrawn hst hawait | deafened hst hawait =>
      rw [sends_of_awaiting hstays hst, hawait]
      exact .nothing rfl

/-- **While its handler is at work, a call says what the handler sends**, and nothing else. -/
theorem posts_of_poll? (hl : c.stage.isLive = true)
    (hp : c.poll? h allWithdrawn s = some (c', s')) :
    Course.Says c.id s.outbox s'.outbox (c.sends h allWithdrawn s) := by
  cases polls_of_poll? hp with
  | dropped hcancelled =>
      rw [sends, if_pos hcancelled]
      exact .nothing (outbox_abandon c s)
  | resumed hstays hres hr =>
      rw [(rests_of_resume hr).spec.2.2.1]
      exact hres.posts hstays
  | finished hstays hst hfinish =>
      rw [sends_of_awaiting hstays hst, hfinish]
      exact .nothing rfl
  | refused hst | told hst =>
      rw [hst] at hl
      cases hl

/-- The limit of a provider runs out while the handler waits, and nothing is said. -/
theorem of_expire? (hp : c.expire? h s = some (c', s')) :
    c.stage.isLive = true ∧ s'.outbox = s.outbox := by
  obtain ⟨state, limit, next, hst, -, hr⟩ := expire?_eq_some_iff.1 hp
  exact ⟨by rw [hst]; rfl, (rests_of_resume hr).spec.2.2.1⟩

/-- A step is carried out for a handler that goes on. -/
theorem live_of_carry? (hp : c.carry? s = some (c', s')) :
    c.stage.isLive = true ∧ c'.stage.isLive = true := by
  obtain ⟨effect, release, next, hst, rfl, -⟩ := carry?_eq_some_iff.1 hp
  exact ⟨by rw [hst]; rfl, rfl⟩

/-! ## How the work of a handler ends -/

/-- **A handler at work goes on, or is done.** -/
theorem Advance.live_or_ended {b b' : Outbox} (ha : Advance c b c' b')
    (hsup : c.supervised = true) (hl : c.stage.isLive = true) :
    c'.stage.isLive = true ∨ ∃ result, c'.stage = .ended result := by
  cases ha with
  | worked _ hs =>
      refine hs.imp_right ?_
      rintro ⟨result, hst⟩
      refine ⟨result, hst.trans ?_⟩
      rw [CallStage.concluded, if_pos hsup]
  | refused e hr | told result hr =>
      rw [hr] at hl
      cases hl

theorem ended_of_cancelled (hc : c.isCancelled allWithdrawn = true)
    (hp : c.poll? h allWithdrawn s = some (c', s')) : c'.stage = .ended (.error .cancelled) := by
  cases (poll?_of_cancelled hc).symm.trans hp
  simp only [isCancelled, Bool.and_eq_true] at hc
  exact stage_conclude hc.1.1 _

theorem result_of_conclude {result' : Except GatewayError Unit}
    (hst : (c.conclude result').stage = .ended result) : result = result' := by
  rw [conclude] at hst
  split at hst
  · cases hst
    rfl
  · cases hst

/-- A job that ends the work of a handler leads it to a state in which it is finished. -/
theorem Rests.finish {d : Call ω σ} {u : Shared ω} (hr : Rests h d u c' s')
    (hst : c'.stage = .ended result) : ∃ state, h.await state = .finish result := by
  cases hr with
  | waiting hlive =>
      cases hst
      cases hlive
  | done hfinish =>
      cases result_of_conclude hst
      exact ⟨_, hfinish⟩

/-- **A handler that is done and was not dropped has finished with its result.** -/
theorem finish_of_poll? (hstays : c.isCancelled allWithdrawn = false)
    (hl : c.stage.isLive = true) (hp : c.poll? h allWithdrawn s = some (c', s'))
    (hst : c'.stage = .ended result) : ∃ state, h.await state = .finish result := by
  cases polls_of_poll? hp with
  | dropped hcancelled => cases hcancelled.symm.trans hstays
  | resumed _ _ hr => exact (rests_of_resume hr).finish hst
  | finished _ _ hfinish =>
      cases result_of_conclude hst
      exact ⟨_, hfinish⟩
  | refused hat | told hat =>
      rw [hat] at hl
      cases hl

theorem finish_of_expire? (hp : c.expire? h s = some (c', s')) (hst : c'.stage = .ended result) :
    ∃ state, h.await state = .finish result := by
  obtain ⟨state, limit, next, -, -, hr⟩ := expire?_eq_some_iff.1 hp
  exact (rests_of_resume hr).finish hst

end Call

end DeviceGateway
