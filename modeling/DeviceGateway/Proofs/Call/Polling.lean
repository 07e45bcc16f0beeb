import DeviceGateway.Proofs.Call.Steps

/-!
# One step of a call

What a step of a call does to the call and to the outbox (`advances_of_poll?`). While the handler is
at work the call says at most one message; a refused call says nothing; and a call with a result
tells its caller once, if the status fits a frame and the outbox is open. A call that takes no step
has a reason not to (`Idles`).
-/

namespace DeviceGateway

namespace CallStage

variable {ω σ : Type}

/-- The task of the call is over: the caller has been told, as far as that was possible. -/
def isOver : CallStage ω σ → Bool
  | reporting | gone => true
  | _ => false

theorem isOver_of_isLive {stage : CallStage ω σ} (hl : stage.isLive = true) :
    stage.isOver = false := by
  cases stage with
  | starting | awaiting | handed | carried => rfl
  | refused | ended | reporting | gone => cases hl

/-- Where a call stands when its handler is done. -/
def concluded (supervised : Bool) (result : Except GatewayError Unit) : CallStage ω σ :=
  if supervised then .ended result else .reporting

end CallStage

namespace Call

variable {ω σ : Type} {h : Handler ω σ}

/-- **What one step of a call does** to the call and to the outbox. -/
inductive Advance (c : Call ω σ) (b : Outbox) (c' : Call ω σ) (b' : Outbox) : Prop where
  | worked (hl : c.stage.isLive = true)
      (hs : c'.stage.isLive = true ∨ ∃ result, c'.stage = .concluded c.supervised result)
      (hb : b' = b ∨ ∃ f : Frame, f.kind = .message ∧ f.callId = c.id ∧ b.put? f = some (.ok b'))
  | refused (e : GatewayError) (hr : c.stage = .refused e)
      (hs : c'.stage = .concluded c.supervised (.error e)) (hb : b' = b)
  | told (result : Except GatewayError Unit) (hr : c.stage = .ended result)
      (hs : c'.stage = .reporting) (ht : Told c.id result b b')

/-- A step keeps the number of the call and who looks after it. -/
def Advances (c : Call ω σ) (b : Outbox) (c' : Call ω σ) (b' : Outbox) : Prop :=
  c'.id = c.id ∧ c'.supervised = c.supervised ∧ Advance c b c' b'

/-- No step of a call opens an outbox. -/
theorem Advance.closed {c c' : Call ω σ} {b b' : Outbox} (ha : Advance c b c' b')
    (hc : b.isOpen = false) : b'.isOpen = false := by
  cases ha with
  | worked hl hs hb =>
      rcases hb with rfl | ⟨f, -, -, hput⟩
      · exact hc
      · exact absurd hput (Outbox.put?_of_closed hc)
  | refused e hr hs hb => rwa [hb]
  | told result hr hs ht =>
      cases ht with
      | sent f hf hput => exact absurd hput (Outbox.put?_of_closed hc)
      | closed f hf _ hb => rwa [hb]
      | tooLarge e hf hb => rwa [hb]

/-- No step of a call begins or ends with the call gone: only the pool lets it go. -/
theorem Advance.not_gone {c c' : Call ω σ} {b b' : Outbox} (ha : Advance c b c' b') :
    c.stage ≠ .gone ∧ c'.stage ≠ .gone := by
  have concluded_ne : ∀ sup result, (CallStage.concluded sup result : CallStage ω σ) ≠ .gone := by
    intro sup result
    unfold CallStage.concluded
    split <;> nofun
  cases ha with
  | worked hl hs hb =>
      constructor
      · intro hg
        rw [hg] at hl
        cases hl
      · rcases hs with hs | ⟨result, hs⟩
        · intro hg
          rw [hg] at hs
          cases hs
        · rw [hs]
          exact concluded_ne _ _
  | refused e hr hs hb =>
      rw [hr, hs]
      exact ⟨nofun, concluded_ne _ _⟩
  | told result hr hs ht =>
      rw [hr, hs]
      exact ⟨nofun, nofun⟩

/-- A call whose task is over takes no step of its own. -/
theorem Advance.not_over {c c' : Call ω σ} {b b' : Outbox} (ha : Advance c b c' b') :
    c.stage.isOver = false := by
  cases ha with
  | worked hl hs hb => exact CallStage.isOver_of_isLive hl
  | refused e hr hs hb => rw [hr]; rfl
  | told result hr hs ht => rw [hr]; rfl

/-- A call that goes on keeps its number, leaves the outbox alone, and waits or is done. -/
theorem Rests.spec {c c' : Call ω σ} {s s' : Shared ω} (hr : Rests h c s c' s') :
    c'.id = c.id ∧ c'.supervised = c.supervised ∧ s'.outbox = s.outbox ∧
      (c'.stage.isLive = true ∨ ∃ result, c'.stage = .concluded c.supervised result) := by
  cases hr with
  | waiting hlive => exact ⟨rfl, rfl, rfl, .inl hlive⟩
  | done => exact ⟨rfl, rfl, rfl, .inr ⟨_, rfl⟩⟩

/-- A step from a stage in which the handler is at work, which resumes a job after at most one
message. -/
theorem Rests.advances {c k c' : Call ω σ} {s t s' : Shared ω} (hr : Rests h k t c' s')
    (hk : k = { c with inbox := k.inbox }) (hl : c.stage.isLive = true)
    (hb : t.outbox = s.outbox ∨
      ∃ f : Frame, f.kind = .message ∧ f.callId = c.id ∧ s.outbox.put? f = some (.ok t.outbox)) :
    Advances c s.outbox c' s'.outbox := by
  obtain ⟨hid, hsup, hout, hstage⟩ := hr.spec
  rw [hk] at hid hsup hstage
  exact ⟨hid, hsup, .worked hl hstage (hout ▸ hb)⟩

/-- What lets a handler go on puts one message into the outbox, or nothing. -/
theorem Resumes.says {c k : Call ω σ} {s t : Shared ω} {j : Job ω σ} {allWithdrawn : Bool}
    (hres : Resumes h allWithdrawn c s k t j) : t.outbox = s.outbox ∨
      ∃ f : Frame, f.kind = .message ∧ f.callId = c.id ∧ s.outbox.put? f = some (.ok t.outbox) := by
  cases hres with
  | sent _ _ hsend => exact Outbox.put?_of_send? hsend
  | started | carried | received | answered | withdrawn | deafened => exact .inl rfl

/-- **One step of a call.** -/
theorem advances_of_poll? {c c' : Call ω σ} {s s' : Shared ω} {allWithdrawn : Bool}
    (hp : c.poll? h allWithdrawn s = some (c', s')) : Advances c s.outbox c' s'.outbox := by
  cases polls_of_poll? hp with
  | dropped hcancelled =>
      exact ⟨rfl, rfl, .worked (isLive_of_isCancelled hcancelled) (.inr ⟨_, rfl⟩)
        (.inl (outbox_abandon c s))⟩
  | resumed _ hres hr => exact (rests_of_resume hr).advances hres.same hres.live hres.says
  | finished _ hst => exact ⟨rfl, rfl, .worked (by rw [hst]; rfl) (.inr ⟨_, rfl⟩) (.inl rfl)⟩
  | refused hst => exact ⟨rfl, rfl, .refused _ hst rfl rfl⟩
  | told hst htold => exact ⟨rfl, rfl, .told _ hst rfl htold⟩

/-- The system carries out a step: nothing is said. -/
theorem advances_of_carry? {c c' : Call ω σ} {s s' : Shared ω}
    (hp : c.carry? s = some (c', s')) : Advances c s.outbox c' s'.outbox := by
  obtain ⟨effect, release, next, hst, rfl, rfl⟩ := carry?_eq_some_iff.1 hp
  exact ⟨rfl, rfl, .worked (by rw [hst]; rfl) (.inl rfl) (.inl rfl)⟩

theorem outbox_carry? {c c' : Call ω σ} {s s' : Shared ω} (hp : c.carry? s = some (c', s')) :
    s'.outbox = s.outbox := by
  obtain ⟨effect, release, next, -, -, rfl⟩ := carry?_eq_some_iff.1 hp
  rfl

/-- The limit of a provider runs out: nothing is said yet. -/
theorem advances_of_expire? {c c' : Call ω σ} {s s' : Shared ω}
    (hp : c.expire? h s = some (c', s')) : Advances c s.outbox c' s'.outbox := by
  obtain ⟨state, limit, next, hst, -, hr⟩ := expire?_eq_some_iff.1 hp
  exact (rests_of_resume hr).advances rfl (by rw [hst]; rfl) (.inl rfl)

/-! ## Calls that do not go on -/

/-- **Why a call takes no step of its own**: the system has something to do for it, it waits for
something, or it is over. -/
inductive Idles (h : Handler ω σ) (allWithdrawn : Bool) (c : Call ω σ) (s : Shared ω) : Prop where
  | handed {effect release : ω → ω} {next : ω → Job ω σ}
      (hstage : c.stage = .handed effect release next)
  | receiving {state : σ} {next : Option Bytes → Job ω σ} (hstage : c.stage = .awaiting state)
      (hawait : h.await state = .receive next) (htake : c.inbox.take? = none)
  | sending {state : σ} {payload : Bytes} {next : Except GatewayError Unit → Job ω σ}
      (hstage : c.stage = .awaiting state) (hawait : h.await state = .send payload next)
      (hfull : s.outbox.send? c.id payload = none)
  | asking {state : σ} {limit : Duration} {next : Except GatewayError Json → Job ω σ}
      (hstage : c.stage = .awaiting state) (hawait : h.await state = .provider none limit next)
      (hstays : c.isCancelled allWithdrawn = false)
  | staying {state : σ} {next : Job ω σ} (hstage : c.stage = .awaiting state)
      (hawait : h.await state = .withdrawal next)
  | telling {result : Except GatewayError Unit} {f : Frame} (hstage : c.stage = .ended result)
      (hfull : s.outbox.put? f = none)
  | done (hover : c.stage.isOver = true)

theorem idles_of_proceed? {c : Call ω σ} {s : Shared ω} {allWithdrawn : Bool} {state : σ}
    (hstays : c.isCancelled allWithdrawn = false) (hst : c.stage = .awaiting state)
    (hp : c.proceed? h (c.withdrawn || allWithdrawn) s state = none) :
    Idles h allWithdrawn c s := by
  unfold proceed? at hp
  split at hp
  case h_1 result hawait => cases hp
  case h_2 next hawait =>
      split at hp
      · next htake => exact .receiving hst hawait htake
      · cases hp
  case h_3 payload next hawait =>
      split at hp
      · next hfull => exact .sending hst hawait hfull
      · cases hp
  case h_4 answer limit next hawait =>
      cases Option.map_eq_none_iff.1 hp
      exact .asking hst hawait hstays
  case h_5 next hawait => exact .staying hst hawait
  case h_6 next hawait => cases hp

/-- **Every call that takes no step has its reason.** -/
theorem idles_of_poll? {c : Call ω σ} {s : Shared ω} {allWithdrawn : Bool}
    (hp : c.poll? h allWithdrawn s = none) : Idles h allWithdrawn c s := by
  simp only [poll?] at hp
  split at hp
  · cases hp
  · next hnot =>
    split at hp
    · cases hp
    · cases hp
    · cases hp
    · next state hst => exact idles_of_proceed? (eq_false_of_ne_true hnot) hst hp
    · next result hst =>
      unfold tell? at hp
      split at hp
      · cases hp
      · split at hp
        · next hfull => exact .telling hst hfull
        · cases hp
        · cases hp
    · next hst => exact .handed hst
    · next hst => exact .done (by rw [hst]; rfl)
    · next hst => exact .done (by rw [hst]; rfl)

end Call

end DeviceGateway
