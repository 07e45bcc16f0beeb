import DeviceGateway.Call.Task
import DeviceGateway.Proofs.Call.Boxes

/-!
# What a step of a call is

The steps of a call are told here once, by cases and with all that is known in each of them. A poll
drops the handler, lets it go on, ends its work, or tells the caller (`Call.Polls`). What lets the
handler go on says with which job it does so (`Call.Resumes`), and the job leaves the handler
waiting again or done (`Call.Rests`). A property of calls is kept by every poll if these cases keep it.
-/

namespace DeviceGateway

namespace Call

variable {ω σ : Type}

/-- **Whether a call has been cancelled while its handler is at work.** -/
def isCancelled (allWithdrawn : Bool) (c : Call ω σ) : Bool :=
  c.supervised && (c.withdrawn || allWithdrawn) && c.stage.isLive

variable {h : Handler ω σ} {c c' k : Call ω σ} {s s' t : Shared ω} {j : Job ω σ}
  {allWithdrawn : Bool}

theorem isLive_of_isCancelled (hc : c.isCancelled allWithdrawn = true) : c.stage.isLive = true := by
  rw [isCancelled, Bool.and_eq_true] at hc
  exact hc.2

theorem not_isCancelled (hl : c.stage.isLive = false) : c.isCancelled allWithdrawn = false := by
  rw [isCancelled, hl, Bool.and_false]

theorem isCancelled_of_staying (hw : c.withdrawn = false) : c.isCancelled false = false := by
  rw [isCancelled, hw, Bool.or_self, Bool.and_false, Bool.false_and]

/-- Whoever is supervised still has to tell the caller how the work of its handler ended. -/
theorem stage_conclude (hsup : c.supervised = true) (result : Except GatewayError Unit) :
    (c.conclude result).stage = .ended result := if_pos hsup

/-! ## Going on -/

/-- **How a job leaves the call that goes on with it**: the handler waits again, or is done. -/
inductive Rests (h : Handler ω σ) (c : Call ω σ) (s : Shared ω) : Call ω σ → Shared ω → Prop where
  | waiting {stage : CallStage ω σ} {world : ω} (hlive : stage.isLive = true) :
      Rests h c s { c with stage } { s with world }
  | done {state : σ} {result : Except GatewayError Unit} {world : ω}
      (hfinish : h.await state = .finish result) : Rests h c s (c.conclude result) { s with world }

theorem rests_resume (h : Handler ω σ) (c : Call ω σ) (s : Shared ω) (j : Job ω σ) (w : ω) :
    Rests h c s (resume h c s j w).1 (resume h c s j w).2 := by
  induction j generalizing w with
  | done state =>
      rw [resume]
      split
      · next result hfinish => exact .done hfinish
      · exact .waiting rfl
  | now effect next ih => exact ih w (effect w)
  | blocking effect release next _ => exact .waiting rfl

theorem rests_of_resume {w : ω} (hr : resume h k t j w = (c', s')) : Rests h k t c' s' := by
  have hrests := rests_resume h k t j w
  rwa [hr] at hrests

/-- **What lets the handler of a call go on**, and with which job: it has not begun, a step has been
carried out for it, or the thing that it waits for happens. -/
inductive Resumes (h : Handler ω σ) (allWithdrawn : Bool) (c : Call ω σ) (s : Shared ω) :
    Call ω σ → Shared ω → Job ω σ → Prop where
  | started {job : Job ω σ} (hstage : c.stage = .starting job) : Resumes h allWithdrawn c s c s job
  | carried {release : ω → ω} {job : Job ω σ} (hstage : c.stage = .carried release job) :
      Resumes h allWithdrawn c s c s job
  | received {state : σ} {next : Option Bytes → Job ω σ} {m : Option Bytes} {inbox : Inbox}
      (hstage : c.stage = .awaiting state) (hawait : h.await state = .receive next)
      (htake : c.inbox.take? = some (m, inbox)) :
      Resumes h allWithdrawn c s { c with inbox } s (next m)
  | sent {state : σ} {payload : Bytes} {next : Except GatewayError Unit → Job ω σ}
      {result : Except GatewayError Unit} {outbox : Outbox} (hstage : c.stage = .awaiting state)
      (hawait : h.await state = .send payload next)
      (hsend : s.outbox.send? c.id payload = some (result, outbox)) :
      Resumes h allWithdrawn c s c { s with outbox } (next result)
  | answered {state : σ} {answer : Except GatewayError Json} {limit : Duration}
      {next : Except GatewayError Json → Job ω σ} (hstage : c.stage = .awaiting state)
      (hawait : h.await state = .provider (some answer) limit next) :
      Resumes h allWithdrawn c s c s (next answer)
  | withdrawn {state : σ} {next : Job ω σ} (hstage : c.stage = .awaiting state)
      (hawait : h.await state = .withdrawal next)
      (hwithdrawn : (c.withdrawn || allWithdrawn) = true) : Resumes h allWithdrawn c s c s next
  | deafened {state : σ} {next : Job ω σ} (hstage : c.stage = .awaiting state)
      (hawait : h.await state = .deafness next) :
      Resumes h allWithdrawn c s { c with inbox := c.inbox.endReading } s next

/-- A handler that goes on is at work, and its call is the same but for the inbox. -/
theorem Resumes.live (hres : Resumes h allWithdrawn c s k t j) : c.stage.isLive = true := by
  cases hres with
  | started hst | carried hst | received hst | sent hst | answered hst | withdrawn hst
  | deafened hst => rw [hst]; rfl

theorem Resumes.same (hres : Resumes h allWithdrawn c s k t j) : k = { c with inbox := k.inbox } := by
  cases hres <;> rfl

/-! ## Telling the caller -/

/-- **What telling a result does to the outbox.** -/
inductive Told (id : UInt64) (result : Except GatewayError Unit) (b b' : Outbox) : Prop where
  | sent (f : Frame) (hf : Frame.status id (Status.ofResult result) = .ok f)
      (hp : b.put? f = some (.ok b'))
  | closed (f : Frame) (hf : Frame.status id (Status.ofResult result) = .ok f)
      (hc : b.isOpen = false) (hb : b' = b)
  | tooLarge (e : FrameFault) (hf : Frame.status id (Status.ofResult result) = .error e)
      (hb : b' = b)

/-- **Telling the caller how the call ended** concerns the outbox, and nothing else. -/
theorem told_of_tell? {result : Except GatewayError Unit} (ht : c.tell? s result = some (c', s')) :
    c' = { c with stage := .reporting } ∧
      ∃ outbox, s' = { s with outbox } ∧ Told c.id result s.outbox outbox := by
  unfold tell? at ht
  split at ht
  · next e hf =>
    cases ht
    exact ⟨rfl, s.outbox, rfl, .tooLarge e hf rfl⟩
  · next f hf =>
    split at ht
    · cases ht
    · next e hput =>
      cases ht
      exact ⟨rfl, s.outbox, rfl, .closed f hf (Outbox.put?_eq_error_iff.1 hput).1 rfl⟩
    · next outbox hput =>
      cases ht
      exact ⟨rfl, outbox, rfl, .sent f hf hput⟩

/-! ## Polls -/

/-- A call that is abandoned ends as cancelled. -/
theorem abandon_fst (c : Call ω σ) (s : Shared ω) :
    (c.abandon h s).1 = c.conclude (.error .cancelled) := by
  unfold abandon
  split <;> rfl

theorem outbox_abandon (c : Call ω σ) (s : Shared ω) : (c.abandon h s).2.outbox = s.outbox := by
  unfold abandon
  split <;> rfl

/-- **A poll of a call**, by what it comes to. -/
inductive Polls (h : Handler ω σ) (allWithdrawn : Bool) (c : Call ω σ) (s : Shared ω) :
    Call ω σ → Shared ω → Prop where
  /-- The handler is dropped where it stands. -/
  | dropped (hcancelled : c.isCancelled allWithdrawn = true) :
      Polls h allWithdrawn c s (c.conclude (.error .cancelled)) (c.abandon h s).2
  | resumed {k c' : Call ω σ} {t s' : Shared ω} {j : Job ω σ}
      (hstays : c.isCancelled allWithdrawn = false) (hres : Resumes h allWithdrawn c s k t j)
      (hr : resume h k t j s.world = (c', s')) : Polls h allWithdrawn c s c' s'
  | finished {state : σ} {result : Except GatewayError Unit}
      (hstays : c.isCancelled allWithdrawn = false) (hstage : c.stage = .awaiting state)
      (hfinish : h.await state = .finish result) : Polls h allWithdrawn c s (c.conclude result) s
  | refused {e : GatewayError} (hstage : c.stage = .refused e) :
      Polls h allWithdrawn c s (c.conclude (.error e)) s
  | told {result : Except GatewayError Unit} {outbox : Outbox} (hstage : c.stage = .ended result)
      (htold : Told c.id result s.outbox outbox) :
      Polls h allWithdrawn c s { c with stage := .reporting } { s with outbox }

theorem polls_of_proceed? {state : σ} (hstays : c.isCancelled allWithdrawn = false)
    (hst : c.stage = .awaiting state)
    (hp : c.proceed? h (c.withdrawn || allWithdrawn) s state = some (c', s')) :
    Polls h allWithdrawn c s c' s' := by
  unfold proceed? at hp
  split at hp
  case h_1 result hawait =>
      cases hp
      exact .finished hstays hst hawait
  case h_2 next hawait =>
      split at hp
      · cases hp
      · next m inbox htake => exact .resumed hstays (.received hst hawait htake) (Option.some.inj hp)
  case h_3 payload next hawait =>
      split at hp
      · cases hp
      · next sent outbox hsend =>
        exact .resumed hstays (.sent hst hawait hsend) (Option.some.inj hp)
  case h_4 answer limit next hawait =>
      obtain ⟨a, rfl, hr⟩ := Option.map_eq_some_iff.1 hp
      exact .resumed hstays (.answered hst hawait) hr
  case h_5 next hawait =>
      split at hp
      · next hw => exact .resumed hstays (.withdrawn hst hawait hw) (Option.some.inj hp)
      · cases hp
  case h_6 next hawait => exact .resumed hstays (.deafened hst hawait) (Option.some.inj hp)

/-- **Every poll of a call is one of these.** -/
theorem polls_of_poll? (hp : c.poll? h allWithdrawn s = some (c', s')) :
    Polls h allWithdrawn c s c' s' := by
  simp only [poll?] at hp
  split at hp
  · next hcancelled =>
    have hfst := abandon_fst (h := h) c s
    rw [← Prod.eta (c.abandon h s), hfst] at hp
    cases hp
    exact .dropped hcancelled
  · next hnot =>
    have hstays : c.isCancelled allWithdrawn = false := eq_false_of_ne_true hnot
    split at hp
    · next job hst => exact .resumed hstays (.started hst) (Option.some.inj hp)
    · next release job hst => exact .resumed hstays (.carried hst) (Option.some.inj hp)
    · next e hst =>
      cases hp
      exact .refused hst
    · next state hst => exact polls_of_proceed? hstays hst hp
    · next result hst =>
      obtain ⟨rfl, outbox, rfl, htold⟩ := told_of_tell? hp
      exact .told hst htold
    all_goals cases hp

/-- **A call that has been cancelled ends as cancelled** in its next step. -/
theorem poll?_of_cancelled (hc : c.isCancelled allWithdrawn = true) :
    c.poll? h allWithdrawn s =
      some (c.conclude (.error .cancelled), (c.abandon h s).2) := by
  rw [← abandon_fst (h := h) c s]
  exact if_pos hc

theorem poll?_of_ended {result : Except GatewayError Unit} (hst : c.stage = .ended result) :
    c.poll? h allWithdrawn s = c.tell? s result := by
  simp only [poll?, hst, CallStage.isLive, Bool.and_false, Bool.false_eq_true, if_false]

theorem poll?_of_refused {e : GatewayError} (hst : c.stage = .refused e) :
    c.poll? h allWithdrawn s = some (c.conclude (.error e), s) := by
  simp only [poll?, hst, CallStage.isLive, Bool.and_false, Bool.false_eq_true, if_false]

/-- **A poll of a call that nobody withdraws.** -/
theorem poll?_of_staying (hw : c.withdrawn = false) : c.poll? h false s =
    match c.stage with
    | .starting job | .carried _ job => some (resume h c s job s.world)
    | .refused e => some (c.conclude (.error e), s)
    | .awaiting state => c.proceed? h false s state
    | .ended result => c.tell? s result
    | .handed .. | .reporting | .gone => none := by
  cases hst : c.stage <;>
    simp only [poll?, hw, hst, Bool.or_false, Bool.and_false, Bool.false_and, Bool.false_eq_true,
      if_false]

/-! ## The system's steps -/

/-- **What the system carries out** was handed over. -/
theorem carry?_eq_some_iff :
    c.carry? s = some (c', s') ↔ ∃ effect release next, c.stage = .handed effect release next ∧
      c' = { c with stage := .carried release (next s.world) } ∧
        s' = { s with world := effect s.world } := by
  unfold carry?
  constructor
  · intro hp
    split at hp
    · next effect release next hst =>
      cases hp
      exact ⟨effect, release, next, hst, rfl, rfl⟩
    · cases hp
  · rintro ⟨effect, release, next, hst, rfl, rfl⟩
    rw [hst]

/-- **A limit runs out** for a handler that waits for a provider, and the provider has no answer. -/
theorem expire?_eq_some_iff :
    c.expire? h s = some (c', s') ↔ ∃ state limit next, c.stage = .awaiting state ∧
      h.await state = .provider none limit next ∧
        resume h c s (next (.error (.timeout limit))) s.world = (c', s') := by
  unfold expire?
  constructor
  · intro hp
    split at hp
    · next state hst =>
      split at hp
      · next limit next hawait => exact ⟨state, limit, next, hst, hawait, Option.some.inj hp⟩
      · cases hp
    · cases hp
  · rintro ⟨state, limit, next, hst, hawait, hr⟩
    simp only [hst, hawait, hr]

/-- A limit runs out only for a call that is not withdrawn. -/
theorem of_lapse? {r : Call ω σ × Shared ω} (hp : c.lapse? h allWithdrawn s = some r) :
    (c.supervised && (c.withdrawn || allWithdrawn)) = false ∧ c.expire? h s = some r := by
  unfold lapse? at hp
  split at hp
  · cases hp
  · next hw => exact ⟨eq_false_of_ne_true hw, hp⟩

theorem lapse?_of_staying (hw : c.withdrawn = false) : c.lapse? h false s = c.expire? h s := by
  simp only [lapse?, hw, Bool.or_self, Bool.and_false, Bool.false_eq_true, if_false]

end Call

end DeviceGateway
