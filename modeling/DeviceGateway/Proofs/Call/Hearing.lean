import DeviceGateway.Proofs.Call.Leading
import DeviceGateway.Proofs.Call.PoolLookup

/-!
# What a handler hears

A step of a call takes one message out of its inbox, or the end of the messages, or nothing
(`Call.takes`), and does no more to the inbox than that, unless the handler lets it go
(`Call.reading_of_poll?`). A handler that keeps reading comes back to its inbox after every message
(`Handler.KeepsReading`), so its call is always on its way there (`Call.Attentive.poll?`), and if it
cannot go on, there is nothing in the inbox (`Call.Attentive.empty_of_stuck`).
-/

namespace DeviceGateway

variable {ω σ : Type}

/-- What is taken out of an inbox: nothing, or the next message or the end. -/
def Inbox.Draws (b : Inbox) (taken : List (Option Bytes)) (b' : Inbox) : Prop :=
  taken = [] ∧ b' = b ∨ ∃ m, taken = [m] ∧ b.take? = some (m, b')

namespace Call

/-- What a handler hears that waits, as long as it has not let go of the inbox. -/
def hears (c : Call ω σ) : Await ω σ → List (Option Bytes)
  | .receive _ => if c.inbox.reading then (c.inbox.take?.map (·.1)).toList else []
  | _ => []

/-- **What a handler hears in a step of its call.** -/
def takes (h : Handler ω σ) (allWithdrawn : Bool) (c : Call ω σ) : List (Option Bytes) :=
  if c.supervised && (c.withdrawn || allWithdrawn) && c.stage.isLive then []
  else match c.stage with
    | .awaiting state => c.hears (h.await state)
    | _ => []

variable {h : Handler ω σ} {c c' : Call ω σ} {s s' : Shared ω} {allWithdrawn : Bool}

theorem hears_cases (c : Call ω σ) (await : Await ω σ) :
    c.hears await = [] ∨ ∃ m b, c.hears await = [m] ∧ c.inbox.reading = true ∧
      c.inbox.take? = some (m, b) := by
  unfold hears
  split
  · split
    · next hreading =>
      cases htake : c.inbox.take? with
      | none => exact .inl rfl
      | some r => exact .inr ⟨r.1, r.2, rfl, hreading, rfl⟩
    · exact .inl rfl
  · exact .inl rfl

/-- **A handler hears one thing at a time**, which is the next in the inbox. -/
theorem takes_cases (h : Handler ω σ) (allWithdrawn : Bool) (c : Call ω σ) :
    c.takes h allWithdrawn = [] ∨ ∃ m b, c.takes h allWithdrawn = [m] ∧ c.inbox.reading = true ∧
      c.inbox.take? = some (m, b) := by
  unfold takes
  split
  · exact .inl rfl
  · split
    · exact hears_cases c _
    · exact .inl rfl

theorem takes_of_staying (hstays : c.isCancelled allWithdrawn = false) :
    c.takes h allWithdrawn =
      match c.stage with
      | .awaiting state => c.hears (h.await state)
      | _ => [] := if_neg (ne_true_of_eq_false hstays)

theorem takes_of_awaiting {state : σ} (hstays : c.isCancelled allWithdrawn = false)
    (hst : c.stage = .awaiting state) : c.takes h allWithdrawn = c.hears (h.await state) := by
  rw [takes_of_staying hstays, hst]

theorem takes_of_waiting {state : σ} (hw : c.withdrawn = false) (hst : c.stage = .awaiting state) :
    c.takes h false = c.hears (h.await state) :=
  takes_of_awaiting (isCancelled_of_staying hw) hst

theorem Rests.inbox {d : Call ω σ} {u : Shared ω} (hrests : Rests h d u c' s')
    (hr : c'.inbox.reading = true) : c'.inbox = d.inbox := by
  cases hrests with
  | waiting => rfl
  | done => cases hr

/-- The inbox is as it was, if it has not been let go. -/
theorem draws_nothing (hinbox : c'.inbox = c.inbox) (hr : c'.inbox.reading = true) :
    c.inbox.reading = true ∧ c.inbox.Draws [] c'.inbox := ⟨hinbox ▸ hr, .inl ⟨rfl, hinbox⟩⟩

/-- What lets a handler go on takes out of the inbox what the handler hears. -/
theorem Resumes.draws {d : Call ω σ} {u : Shared ω} {j : Job ω σ}
    (hstays : c.isCancelled allWithdrawn = false) (hres : Resumes h allWithdrawn c s d u j)
    (hr : d.inbox.reading = true) :
    c.inbox.reading = true ∧ c.inbox.Draws (c.takes h allWithdrawn) d.inbox := by
  cases hres with
  | started hst | carried hst =>
      rw [takes_of_staying hstays, hst]
      exact draws_nothing rfl hr
  | @received state next m inbox hst hawait htake =>
      have hreading : c.inbox.reading = true := (Inbox.reading_take? htake).symm.trans hr
      refine ⟨hreading, .inr ⟨m, ?_, htake⟩⟩
      rw [takes_of_awaiting hstays hst, hawait, hears, if_pos hreading, htake]
      rfl
  | sent hst hawait | answered hst hawait | withdrawn hst hawait =>
      rw [takes_of_awaiting hstays hst, hawait]
      exact draws_nothing rfl hr
  | deafened => cases hr

/-- **A step takes out of the inbox what the handler hears**, and nothing else, unless the handler
lets the inbox go. -/
theorem reading_of_poll? (hp : c.poll? h allWithdrawn s = some (c', s'))
    (hr : c'.inbox.reading = true) :
    c.inbox.reading = true ∧ c.inbox.Draws (c.takes h allWithdrawn) c'.inbox := by
  cases polls_of_poll? hp with
  | dropped | finished | refused => cases hr
  | resumed hstays hres hrests =>
      have hinbox := (rests_of_resume hrests).inbox hr
      rw [hinbox] at hr ⊢
      exact hres.draws hstays hr
  | told hst =>
      rw [takes_of_staying (not_isCancelled (by rw [hst]; rfl)), hst]
      exact draws_nothing rfl hr

theorem inbox_of_carry? (hp : c.carry? s = some (c', s')) : c'.inbox = c.inbox := by
  obtain ⟨effect, release, next, -, rfl, -⟩ := carry?_eq_some_iff.1 hp
  rfl

theorem inbox_of_expire? (hp : c.expire? h s = some (c', s')) (hr : c'.inbox.reading = true) :
    c'.inbox = c.inbox := by
  obtain ⟨state, limit, next, -, -, hrests⟩ := expire?_eq_some_iff.1 hp
  exact (rests_of_resume hrests).inbox hr

end Call

/-! ## Handlers that keep reading -/

/-- A job that ends in one of some states, whatever others do meanwhile. -/
def Job.EndsIn (states : σ → Prop) (j : Job ω σ) : Prop :=
  j.Leads (fun _ => ()) (fun state _ => states state) ()

/-- **What brings a handler back to its inbox**: a message, or another thing that happens. After a
message the handler is in one of some states, and after something else it is nearer to its inbox. -/
inductive Await.Returns (states nearer : σ → Prop) : Await ω σ → Prop where
  | receive {next : Option Bytes → Job ω σ} (hnext : ∀ m, (next (some m)).EndsIn states) :
      Returns states nearer (.receive next)
  | send {payload : Bytes} {next : Except GatewayError Unit → Job ω σ}
      (hnext : ∀ r, (next r).EndsIn nearer) : Returns states nearer (.send payload next)
  | provider {answer : Option (Except GatewayError Json)} {limit : Duration}
      {next : Except GatewayError Json → Job ω σ} (hnext : ∀ r, (next r).EndsIn nearer) :
      Returns states nearer (.provider answer limit next)

/-- **A handler keeps reading** in some states: from each of them it comes to its inbox, after so
many other things that it waits for, and every message leads it to another of them. -/
def Handler.KeepsReading (h : Handler ω σ) (states : σ → Prop) (away : σ → Nat) : Prop :=
  ∀ state, states state →
    (h.await state).Returns states fun later => states later ∧ away later < away state

theorem Job.EndsIn.mono {states more : σ → Prop} {j : Job ω σ} (hj : j.EndsIn states)
    (h : ∀ state, states state → more state) : j.EndsIn more :=
  Job.Leads.mono hj fun state _ => h state

namespace Call

/-- **A call whose handler keeps reading**: it is on its way to its inbox, and has not let go of
it. -/
structure Attentive (states : σ → Prop) (c : Call ω σ) : Prop where
  leads : c.stage.Leads (fun _ => ()) (fun state _ => states state) ()
  reading : c.inbox.reading = true

variable {h : Handler ω σ} {c c' : Call ω σ} {s s' : Shared ω} {states : σ → Prop} {away : σ → Nat}

/-- A call that goes on with a job stands where the job ends. -/
theorem leads_of_endsIn (hk : h.KeepsReading states away) {d : Call ω σ} {u : Shared ω}
    {j : Job ω σ} {w : ω} (hj : j.EndsIn states) (hr : resume h d u j w = (c', s')) :
    c'.stage.Leads (fun _ => ()) (fun state _ => states state) () ∧
      c' = { d with stage := c'.stage } := by
  rcases leads_of_resume hr hj with hgoes | ⟨state, result, hstate, hfinish, -⟩
  · exact hgoes
  · have hreturns := hk state hstate
    rw [hfinish] at hreturns
    cases hreturns

theorem attentive_of_resume (hk : h.KeepsReading states away) {d : Call ω σ} {u : Shared ω}
    {j : Job ω σ} {w : ω} (hj : j.EndsIn states) (hreading : d.inbox.reading = true)
    (hr : resume h d u j w = (c', s')) : c'.Attentive states := by
  obtain ⟨hleads, hsame⟩ := leads_of_endsIn hk hj hr
  exact ⟨hleads, (congrArg (·.inbox.reading) hsame).trans hreading⟩

/-- An attentive call waits for what brings its handler back. -/
theorem Attentive.returns (hk : h.KeepsReading states away) (ha : c.Attentive states) {state : σ}
    {await : Await ω σ} (hst : c.stage = .awaiting state) (hawait : h.await state = await) :
    await.Returns states fun later => states later ∧ away later < away state :=
  hawait ▸ hk state (ha.leads.of_eq hst)

/-- **The call of a handler that keeps reading stays attentive** until it is withdrawn or hears the
end of the messages. -/
theorem Attentive.poll? (hk : h.KeepsReading states away) (ha : c.Attentive states)
    (hw : c.withdrawn = false) (hp : c.poll? h false s = some (c', s'))
    (hend : none ∉ c.takes h false) : c'.Attentive states := by
  cases polls_of_poll? hp with
  | dropped hcancelled => cases hcancelled.symm.trans (isCancelled_of_staying hw)
  | refused hst | told hst => cases ha.leads.of_eq hst
  | finished _ hst hawait => cases ha.returns hk hst hawait
  | resumed _ hres hr =>
      cases hres with
      | started hst | carried hst =>
          exact attentive_of_resume hk (ha.leads.of_eq hst) ha.reading hr
      | @received state next m inbox hst hawait htake =>
          rw [takes_of_waiting hw hst, hawait, hears, if_pos ha.reading, htake] at hend
          cases ha.returns hk hst hawait with
          | receive hnext =>
              cases m with
              | none => exact absurd (List.mem_singleton_self _) hend
              | some m =>
                  exact attentive_of_resume hk (hnext m)
                    ((Inbox.reading_take? htake).trans ha.reading) hr
      | sent hst hawait =>
          cases ha.returns hk hst hawait with
          | send hnext =>
              exact attentive_of_resume hk ((hnext _).mono fun _ => And.left) ha.reading hr
      | answered hst hawait =>
          cases ha.returns hk hst hawait with
          | provider hnext =>
              exact attentive_of_resume hk ((hnext _).mono fun _ => And.left) ha.reading hr
      | withdrawn hst hawait | deafened hst hawait => cases ha.returns hk hst hawait

theorem Attentive.carry? (ha : c.Attentive states) (hp : c.carry? s = some (c', s')) :
    c'.Attentive states := by
  refine ⟨(leads_carry? hp ha.leads).1, ?_⟩
  rw [inbox_of_carry? hp]
  exact ha.reading

theorem Attentive.expire? (hk : h.KeepsReading states away) (ha : c.Attentive states)
    (hp : c.expire? h s = some (c', s')) : c'.Attentive states := by
  obtain ⟨state, limit, next, hst, hawait, hr⟩ := expire?_eq_some_iff.1 hp
  cases ha.returns hk hst hawait with
  | provider hnext => exact attentive_of_resume hk ((hnext _).mono fun _ => And.left) ha.reading hr

/-- **When an attentive call cannot go on**, and there is room for what it sends, its handler waits
for a message, and none is there. -/
theorem Attentive.empty_of_stuck (hk : h.KeepsReading states away) (ha : c.Attentive states)
    {allWithdrawn : Bool} (hpoll : c.poll? h allWithdrawn s = none) (hcarry : c.carry? s = none)
    (hexpire : c.expire? h s = none)
    (hroom : ∀ payload, s.outbox.send? c.id payload ≠ none) :
    c.inbox.queue = [] ∧ c.inbox.sending = true := by
  cases idles_of_poll? hpoll with
  | handed hst => cases hcarry.symm.trans (carry?_eq_some_iff.2 ⟨_, _, _, hst, rfl, rfl⟩)
  | receiving _ _ htake => exact Inbox.take?_eq_none_iff.1 htake
  | sending _ _ hfull => exact absurd hfull (hroom _)
  | asking hst hawait => cases hexpire.symm.trans (expire?_eq_some_iff.2 ⟨_, _, _, hst, hawait, rfl⟩)
  | staying hst hawait => cases ha.returns hk hst hawait
  | telling hst => cases ha.leads.of_eq hst
  | done hover =>
      rw [CallStage.isOver_of_isLive (CallStage.isLive_of_leads ha.leads)] at hover
      cases hover

end Call

end DeviceGateway
