import DeviceGateway.Proofs.Server.Inbound

/-!
# Calls that keep reading

As long as nobody withdraws it, the call of a handler that keeps reading is on its way to its inbox
(`Attends.run`). The steps that others take on its behalf, the loop and the writer among them, bring
it there until it has heard all that there is (`drains_of_attentive`). So every message that the
loop has read under the number of the call gets to the handler, in order and once, and behind the
last one the end of the messages (`inbound_is_lossless`). What the callers of other calls say makes
no difference (`Step.foreign`).
-/

namespace DeviceGateway

theorem Outbox.send?_of_empty {b : Outbox} (hroom : 0 < b.capacity) (hq : b.queue = [])
    (id : UInt64) (m : Bytes) : b.send? id m ≠ none := by
  cases ho : b.isOpen with
  | true =>
      have hroom : b.queue.length < b.capacity := by rwa [hq]
      exact Option.isSome_iff_ne_none.1 (isSome_send? ho hroom id m)
  | false =>
      unfold send? put?
      rw [ho]
      split
      · exact Option.some_ne_none _
      · exact Option.some_ne_none _

theorem Pool.contains_of_call? {ω σ : Type} {p : Pool ω σ} {id : UInt64} {call : Call ω σ}
    (hcall : p.call? id = some call) : p.contains id = true := by
  rw [contains, hcall]
  rfl

namespace Connection

variable {ω σ : Type} {s : Server ω σ} {c c' d : Connection ω σ} {id : UInt64} {m : Move}

/-! ## Handlers that keep reading -/

/-- **The call with a number is attentive**, unless it is withdrawn. -/
def Attends (states : σ → Prop) (id : UInt64) (c : Connection ω σ) : Prop :=
  ∀ call, c.pool.call? id = some call → call.withdrawn = false → c.pool.allWithdrawn = false →
    call.Attentive states

namespace Attends

variable {states : σ → Prop} {away : σ → Nat} {call : Call ω σ}

/-- Operations that leave alone how far a call has got, and whether its inbox is read. -/
theorem of_call (ha : c.Attends states id)
    (hall : c'.pool.allWithdrawn = false → c.pool.allWithdrawn = false)
    (hcall : ∀ call', c'.pool.call? id = some call' → ∃ call, c.pool.call? id = some call ∧
      call'.stage = call.stage ∧ call'.inbox.reading = call.inbox.reading ∧
      (call'.withdrawn = false → call.withdrawn = false)) : c'.Attends states id := by
  intro call' hcall' hw hstays
  obtain ⟨call, hc, hstage, hreading, hwithdrawn⟩ := hcall call' hcall'
  obtain ⟨hleads, hr⟩ := ha call hc (hwithdrawn hw) (hall hstays)
  exact ⟨hstage ▸ hleads, hreading.trans hr⟩

theorem of_same (ha : c.Attends states id) (hpool : c'.pool = c.pool) : c'.Attends states id := by
  intro call hcall hw hall
  rw [hpool] at hcall hall
  exact ha call hcall hw hall

theorem modify (ha : c.Attends states id) {i : UInt64} (f : Call ω σ → Call ω σ)
    (hf : ∀ c, (f c).id = c.id) (hs : ∀ c, (f c).stage = c.stage)
    (hr : ∀ c, (f c).inbox.reading = c.inbox.reading)
    (hw : ∀ c, (f c).withdrawn = false → c.withdrawn = false)
    (hpool : c'.pool = c.pool.modify i f) : c'.Attends states id := by
  refine ha.of_call (fun h => by rwa [hpool] at h) fun call' hcall' => ?_
  rw [hpool, Pool.call?_modify _ _ hf] at hcall'
  split at hcall'
  · obtain ⟨call, hcall, rfl⟩ := Option.map_eq_some_iff.1 hcall'
    exact ⟨call, hcall, hs call, hr call, hw call⟩
  · exact ⟨call', hcall', rfl, rfl, fun h => h⟩

theorem endMessages (ha : c.Attends states id) {i : UInt64} (hpool : c'.pool = c.pool.halfClose i) :
    c'.Attends states id :=
  ha.modify (fun c => { c with inbox := c.inbox.endSending }) (fun _ => rfl) (fun _ => rfl)
    (fun _ => rfl) (fun _ h => h) hpool

theorem withdraw (ha : c.Attends states id) {i : UInt64} (hpool : c'.pool = c.pool.cancel i) :
    c'.Attends states id :=
  ha.modify (fun c => { c with withdrawn := true }) (fun _ => rfl) (fun _ => rfl) (fun _ => rfl)
    (fun _ h => by cases h) hpool

/-- **The call stays attentive**, until its handler hears the end of the messages. -/
theorem step (hk : s.handler.KeepsReading states away) (ha : c.Attends states id)
    (hcall : c.pool.call? id = some call) (hstep : Step s c m c')
    (hend : none ∉ c.heardBy s id m) : c'.Attends states id := by
  cases hstep with
  | stop => exact fun _ _ _ hall => by cases hall
  | @accept f rest r pool _ _ _ _ hl =>
      -- The number is in use, so the new call is another one.
      have hne : id ≠ f.callId := by
        rintro rfl
        have hfree := (Pool.spawn_eq_ok_iff.1 hl).1
        rw [Pool.contains, hcall] at hfree
        cases hfree
      have hsame := Pool.call?_spawn hl id
      rw [if_neg hne] at hsame
      obtain ⟨-, rfl⟩ := Pool.spawn_eq_ok_iff.1 hl
      exact ha.of_call (fun h => h) fun call' h => ⟨call', hsame.symm.trans h, rfl, rfl, fun h => h⟩
  | halfClose => exact ha.endMessages rfl
  | cancel => exact ha.withdraw rfl
  | @notice i pool _ hn =>
      have hnotice := Pool.call?_notice hn id
      obtain ⟨rest, -, rfl⟩ := Pool.notice?_eq_some_iff.1 hn
      refine ha.of_call (fun h => h) fun call' h => ?_
      rw [hnotice] at h
      split at h
      · cases h
      · exact ⟨call', h, rfl, rfl, fun h => h⟩
  | @feed i message pool hs hf =>
      obtain ⟨hother, -, hsome⟩ := Pool.call?_feed? hf id
      have hall := Pool.allWithdrawn_feed? hf
      refine ha.of_call (fun h => hall ▸ h) fun call' h => ?_
      by_cases hi : id = i
      · subst hi
        obtain ⟨inbox, hput, hcall'⟩ := hsome call hcall
        cases hcall'.symm.trans h
        exact ⟨call, hcall, rfl, Inbox.reading_put? hput, fun h => h⟩
      · exact ⟨call', (hother hi).symm.trans h, rfl, rfl, fun h => h⟩
  | @tear t ts result hs =>
      cases t with
      | endMessages i => exact ha.endMessages rfl
      | withdraw i => exact ha.withdraw rfl
  | @pool p pool' shared hp =>
      have hall : pool'.allWithdrawn = c.pool.allWithdrawn := by cases hp <;> rfl
      rcases Pool.call?_of_step hp hcall with ⟨hsame, -⟩ | ⟨call', hcall', hacts⟩
      · exact ha.of_call (fun h => hall ▸ h) fun call' h =>
          ⟨call, hcall, by cases hsame.symm.trans h; exact ⟨rfl, rfl, fun h => h⟩⟩
      · intro other hother hw hstays'
        cases hcall'.symm.trans hother
        have hstays : c.pool.allWithdrawn = false := hall.symm.trans hstays'
        cases hacts with
        | poll hp =>
            rw [heardBy_poll hcall, hstays] at hend
            rw [hstays] at hp
            have hw : call.withdrawn = false := (Call.sameOutside_of_poll? hp).1.symm.trans hw
            exact (ha call hcall hw hstays).poll? hk hw hp hend
        | carry hp =>
            have hw : call.withdrawn = false := (Call.sameOutside_of_carry? hp).1.symm.trans hw
            exact (ha call hcall hw hstays).carry? hp
        | expire hp =>
            have hw : call.withdrawn = false := (Call.sameOutside_of_expire? hp).1.symm.trans hw
            exact (ha call hcall hw hstays).expire? hk hp
        | report hs =>
            have hleads := (ha call hcall hw hstays).leads
            rw [hs] at hleads
            cases hleads
  | _ => exact ha.of_same rfl

/-- Until its handler hears the end of the messages, the call is attentive. -/
theorem run {ms : List Move} (hk : s.handler.KeepsReading states away) (ha : c.Attends states id)
    (hr : c.run? s ms = some d) (hin : ∀ e ∈ c.visited s ms, e.pool.contains id = true)
    (hend : none ∉ c.heard s id ms) : d.Attends states id := by
  induction ms generalizing c with
  | nil =>
      cases hr
      exact ha
  | cons m ms ih =>
      obtain ⟨e, hm, hr⟩ := run?_cons.1 hr
      rw [visited_cons hm] at hin
      rw [heard_cons hm, List.mem_append, not_or] at hend
      obtain ⟨call, hcall⟩ := Option.isSome_iff_exists.1 (hin c List.mem_cons_self)
      exact ih (ha.step hk hcall (step_of_step? hm) hend.1) hr
        (fun k hk => hin k (List.mem_cons_of_mem _ hk)) hend.2

end Attends


/-! ## On the way to the inbox -/

/-- The steps that bring a call on: those on its own behalf, and those of the loop and the writer
that it may wait for. -/
def Move.helps (id : UInt64) : Move → Bool
  | .pool (.poll i) | .pool (.carry i) | .pool (.expire i) => i == id
  | .proceed | .write => true
  | _ => false

/-- **The handler has heard everything** and waits for more. -/
structure Dry (id : UInt64) (c : Connection ω σ) (call : Call ω σ) : Prop where
  found : c.pool.call? id = some call
  reading : call.inbox.reading = true
  empty : call.inbox.queue = []
  more : call.inbox.sending = true
  nothing : c.handing id = []

/-- **The call comes to hear everything**, by steps that bring it on. -/
def Drains (s : Server ω σ) (id : UInt64) (c : Connection ω σ) : Prop :=
  ∃ ms d, c.run? s ms = some d ∧ (∀ m ∈ ms, m.helps id = true) ∧
    (∀ e ∈ c.visited s ms, e.pool.contains id = true) ∧
    (none ∈ c.heard s id ms ∨ ∃ call, Dry id d call)

theorem Dry.drains {call : Call ω σ} (h : Dry id c call) : Drains s id c :=
  ⟨[], c, rfl, nofun, fun _ he => List.mem_singleton.1 he ▸ Pool.contains_of_call? h.found,
    .inr ⟨call, h⟩⟩

/-- A handler that hears the end of the messages has heard everything. -/
theorem Drains.of_end {call call' : Call ω σ} (hm : c.step? s m = some c')
    (hhelps : m.helps id = true) (hcall : c.pool.call? id = some call)
    (hcall' : c'.pool.call? id = some call') (hend : none ∈ c.heardBy s id m) : Drains s id c := by
  refine ⟨[m], c', run?_cons.2 ⟨c', hm, rfl⟩, fun k hk => List.mem_singleton.1 hk ▸ hhelps, ?_,
    .inl ?_⟩
  · rw [visited_cons hm]
    rintro _ (- | ⟨-, he⟩)
    · exact Pool.contains_of_call? hcall
    · exact List.mem_singleton.1 he ▸ Pool.contains_of_call? hcall'
  · rw [heard_cons hm]
    exact List.mem_append_left _ hend

theorem Drains.of_step {call : Call ω σ} (h : Drains s id c') (hm : c.step? s m = some c')
    (hhelps : m.helps id = true) (hcall : c.pool.call? id = some call) : Drains s id c := by
  obtain ⟨ms, d, hr, hall, hin, hend⟩ := h
  refine ⟨m :: ms, d, run?_cons.2 ⟨c', hm, hr⟩, ?_, ?_, hend.imp_left fun hnone => ?_⟩
  · rintro k (- | ⟨-, hk⟩)
    · exact hhelps
    · exact hall k hk
  · rw [visited_cons hm]
    rintro e (- | ⟨-, he⟩)
    · exact Pool.contains_of_call? hcall
    · exact hin e he
  · rw [heard_cons hm]
    exact List.mem_append_right _ hnone

/-- **A call that is brought on**, with what its inbox holds and what the loop has in hand for it.
-/
structure Ready (id : UInt64) (inbox : Inbox) (inHand : List Bytes) (c : Connection ω σ)
    (call : Call ω σ) : Prop where
  found : c.pool.call? id = some call
  staying : call.withdrawn = false
  going : c.pool.allWithdrawn = false
  room : 0 < c.shared.outbox.capacity
  holds : call.inbox = inbox
  handing : c.handing id = inHand

namespace Ready

variable {inbox : Inbox} {inHand : List Bytes} {call call' : Call ω σ} {shared : Shared ω}

theorem holding {other : Inbox} (hr : Ready id other inHand c call) (h : other = inbox) :
    Ready id inbox inHand c call := h ▸ hr

section

variable (hr : Ready id inbox inHand c call)
include hr

/-- The call stands differently, and shares other things with the others. -/
theorem replaced (hid : call'.id = call.id) (hw : call'.withdrawn = call.withdrawn)
    (hroom : shared.outbox.capacity = c.shared.outbox.capacity) :
    Ready id call'.inbox inHand { c with pool := c.pool.replace call', shared } call' := by
  refine ⟨?_, hw.trans hr.staying, hr.going, ?_, rfl, hr.handing⟩
  · have hcall := Pool.call?_replace hr.found (hid.trans (Pool.id_of_call? hr.found)) id
    rwa [if_pos rfl] at hcall
  · show 0 < shared.outbox.capacity
    rw [hroom]
    exact hr.room

theorem poll (hp : call.poll? s.handler false c.shared = some (call', shared)) :
    c.step? s (.pool (.poll id)) = some { c with pool := c.pool.replace call', shared } ∧
      Ready id call'.inbox inHand { c with pool := c.pool.replace call', shared } call' := by
  obtain ⟨hid, -, hadvance⟩ := Call.advances_of_poll? hp
  exact ⟨step?_poll hr.found (hr.going.symm ▸ hp),
    hr.replaced hid (Call.sameOutside_of_poll? hp).1 hadvance.alike.2⟩

theorem carry (hp : call.carry? c.shared = some (call', shared)) :
    c.step? s (.pool (.carry id)) = some { c with pool := c.pool.replace call', shared } ∧
      Ready id call'.inbox inHand { c with pool := c.pool.replace call', shared } call' := by
  obtain ⟨hid, -, hadvance⟩ := Call.advances_of_carry? hp
  exact ⟨step?_carry hr.found hp,
    hr.replaced hid (Call.sameOutside_of_carry? hp).1 hadvance.alike.2⟩

theorem expire (hp : call.expire? s.handler c.shared = some (call', shared)) :
    c.step? s (.pool (.expire id)) = some { c with pool := c.pool.replace call', shared } ∧
      Ready id call'.inbox inHand { c with pool := c.pool.replace call', shared } call' := by
  obtain ⟨hid, -, hadvance⟩ := Call.advances_of_expire? hp
  refine ⟨?_, hr.replaced hid (Call.sameOutside_of_expire? hp).1 hadvance.alike.2⟩
  have hlapse : call.lapse? s.handler c.pool.allWithdrawn c.shared = some (call', shared) := by
    rw [hr.going, Call.lapse?_of_staying hr.staying, hp]
  simp only [step?, Pool.step?, Pool.act?, hr.found, hlapse, Option.map_some]

/-- A call that has a job goes on with it. -/
theorem resume {job : Job ω σ}
    (hst : call.stage = .starting job ∨ ∃ release, call.stage = .carried release job) :
    call.poll? s.handler false c.shared =
      some (call.resume s.handler c.shared job c.shared.world) := by
  rw [Call.poll?_of_staying hr.staying]
  rcases hst with hst | ⟨release, hst⟩
  · rw [hst]
  · rw [hst]

end

end Ready

/-! ### One thing after the other -/

section

variable {states nearer : σ → Prop} {away : σ → Nat} {inbox : Inbox} {inHand : List Bytes}
  {call base : Call ω σ} {shared : Shared ω} {j : Job ω σ} {w : ω}
  (hk : s.handler.KeepsReading states away) (hnearer : ∀ state, nearer state → states state)
include hk hnearer

/-- A call that goes on with a job is brought on. -/
theorem Ready.polled (hr : Ready id inbox inHand c call) (hj : j.EndsIn nearer)
    (hp : call.poll? s.handler false c.shared = some (base.resume s.handler shared j w)) :
    ∃ c' call', c.step? s (.pool (.poll id)) = some c' ∧ Ready id base.inbox inHand c' call' ∧
      call'.stage = (base.resume s.handler shared j w).1.stage := by
  obtain ⟨-, hsame⟩ := Call.leads_of_endsIn hk (hj.mono hnearer)
    (Prod.eta (base.resume s.handler shared j w)).symm
  obtain ⟨hstep, hr'⟩ := hr.poll hp
  have hinbox : (base.resume s.handler shared j w).1.inbox = base.inbox := by rw [hsame]
  rw [hinbox] at hr'
  exact ⟨_, _, hstep, hr', rfl⟩

/-- **A call that has gone on with a job** drains, if it does so wherever the job ends. -/
theorem drains_of_resume (hnext : ∀ c call state, Ready id inbox inHand c call →
      call.stage = .awaiting state → nearer state → Drains s id c)
    (hj : j.EndsIn nearer) (hr : Ready id inbox inHand c call)
    (hst : call.stage = (base.resume s.handler shared j w).1.stage) : Drains s id c := by
  induction j generalizing c call base shared w with
  | done state =>
      refine hnext c call state hr ?_ hj
      have hreturns := hk state (hnearer state hj)
      rw [hst, Call.resume]
      generalize s.handler.await state = await at hreturns ⊢
      cases hreturns <;> rfl
  | now effect next ih => exact ih w (hj w rfl) hr hst
  | blocking effect release next ih =>
      have hst : call.stage = .handed effect release next := hst
      have hc : call.carry? c.shared =
          some ({ call with stage := .carried release (next c.shared.world) },
            { c.shared with world := effect c.shared.world }) := by rw [Call.carry?, hst]
      obtain ⟨hcarry, hr'⟩ := hr.carry (s := s) hc
      have hrest : (next c.shared.world).EndsIn nearer := hj c.shared.world rfl
      obtain ⟨c', call', hpoll, hr'', hst'⟩ :=
        hr'.polled hk hnearer hrest (hr'.resume (.inr ⟨release, rfl⟩))
      have hlater : Drains s id _ := (ih c.shared.world hrest (hr''.holding hr.holds) hst').of_step
        hpoll (beq_self_eq_true id) hr'.found
      exact hlater.of_step hcarry (beq_self_eq_true id) hr.found

/-- A call that goes on with a job drains, if it does so wherever the job ends. -/
theorem drains_of_polled (hnext : ∀ c call state, Ready id base.inbox inHand c call →
      call.stage = .awaiting state → nearer state → Drains s id c)
    (hj : j.EndsIn nearer) (hr : Ready id inbox inHand c call)
    (hp : call.poll? s.handler false c.shared = some (base.resume s.handler shared j w)) :
    Drains s id c := by
  obtain ⟨c', call', hstep, hr', hst⟩ := hr.polled hk hnearer hj hp
  exact (drains_of_resume hk hnearer hnext hj hr' hst).of_step hstep (beq_self_eq_true id) hr.found

end

/-- The writer makes room. -/
theorem drains_of_drained {inbox : Inbox} {inHand : List Bytes} {call : Call ω σ}
    (hnext : ∀ c, Ready id inbox inHand c call → c.shared.outbox.queue = [] → Drains s id c)
    (hr : Ready id inbox inHand c call) : Drains s id c := by
  generalize hq : c.shared.outbox.queue = queue
  induction queue generalizing c with
  | nil => exact hnext c hr hq
  | cons f rest ih =>
      have hstep : c.step? s .write =
          some { c with shared := { c.shared with outbox := { c.shared.outbox with queue := rest } }
                        written := c.written ++ [f] } := by
        simp only [step?, write?, Outbox.take?, hq, Option.map_some]
      have hr' : Ready id inbox inHand
          { c with shared := { c.shared with outbox := { c.shared.outbox with queue := rest } }
                   written := c.written ++ [f] } call :=
        ⟨hr.found, hr.staying, hr.going, hr.room, hr.holds, hr.handing⟩
      exact (ih hr' rfl).of_step hstep rfl hr.found

/-- What the loop has in hand for a call is one message that it is about to put into the inbox. -/
theorem stage_of_handing {m : Bytes} {rest : List Bytes} (h : c.handing id = m :: rest) :
    c.stage = .feeding id m := by
  unfold handing at h
  split at h
  · next i message hs =>
    split at h
    · next hi =>
      cases h
      rw [hs, hi]
    · cases h
  · cases h

/-- How much there is for a call to hear. A message in the hands of the loop counts twice, for it
has to be put into the inbox and to be taken out again. -/
def ahead (inbox : Inbox) (inHand : List Bytes) : Nat := inbox.queue.length + 2 * inHand.length

section

variable {states : σ → Prop} {away : σ → Nat} {inbox : Inbox} {inHand : List Bytes}
  {call : Call ω σ} {state : σ}

theorem Ready.waiting (hr : Ready id inbox inHand c call) (hst : call.stage = .awaiting state) :
    call.poll? s.handler false c.shared = call.proceed? s.handler false c.shared state := by
  rw [Call.poll?_of_staying hr.staying, hst]

/-- The loop puts the message that it has in hand into the inbox, or drops it. -/
theorem Ready.feed {m : Bytes} (hr : Ready id inbox (m :: inHand) c call)
    (hroom : inbox.queue.length < Inbox.capacity) :
    ∃ c' inbox' call', c.step? s .proceed = some c' ∧ Ready id inbox' [] c' call' ∧
      call'.stage = call.stage ∧ inbox'.reading = inbox.reading ∧
      ahead inbox' [] < ahead inbox (m :: inHand) := by
  have hs := stage_of_handing hr.handing
  obtain ⟨inbox', hput, hless⟩ : ∃ inbox', inbox.put? m = some inbox' ∧
      inbox'.queue.length ≤ inbox.queue.length + 1 := by
    unfold Inbox.put?
    split
    · exact ⟨_, rfl, Nat.le_succ _⟩
    · exact ⟨_, rfl, Nat.le_of_eq List.length_append⟩
  have hfeed : c.pool.feed? id m = some (c.pool.replace { call with inbox := inbox' }) := by
    simp only [Pool.feed?, hr.found, hr.holds, hput, Option.map_some]
  have hid : call.id = id := Pool.id_of_call? hr.found
  have hcall := Pool.call?_replace hr.found
    (show ({ call with inbox := inbox' } : Call ω σ).id = id from hid) id
  rw [if_pos rfl] at hcall
  refine ⟨{ c with pool := c.pool.replace { call with inbox := inbox' }, stage := .serving },
    inbox', { call with inbox := inbox' }, ?_, ⟨hcall, hr.staying, hr.going, hr.room, rfl,
      handing_of_serving rfl id⟩, rfl, Inbox.reading_put? hput, ?_⟩
  · simp only [step?, proceed?, hs, hfeed, Option.map_some]
  · simp only [ahead, List.length_cons, List.length_nil]
    omega

/-- **A call whose handler keeps reading drains**, wherever the handler waits. The induction is on
how much there is to hear, and on how far the handler is from its inbox. -/
theorem drains_of_awaiting (hk : s.handler.KeepsReading states away)
    (hr : Ready id inbox inHand c call) (hreading : inbox.reading = true)
    (hst : call.stage = .awaiting state) (hstate : states state) : Drains s id c := by
  generalize hn : ahead inbox inHand = n
  induction n using Nat.strongRecOn generalizing c call state inbox inHand with
  | ind n hless =>
  generalize hfar : away state = k
  induction k using Nat.strongRecOn generalizing c call state with
  | ind k hnearer =>
  have hnext (c call later) (hr : Ready id inbox inHand c call)
      (hst : call.stage = .awaiting later) (hlater : states later ∧ away later < away state) :
      Drains s id c :=
    hnearer (away later) (hfar ▸ hlater.2) hr hst hlater.1 rfl
  have hreturns := hk state hstate
  cases hawait : s.handler.await state with
  | receive next =>
      rw [hawait] at hreturns
      cases hreturns with
      | receive hleads =>
      have hpoll := hr.waiting (s := s) hst
      simp only [Call.proceed?, hawait, hr.holds] at hpoll
      cases htake : inbox.take? with
      | some r =>
          obtain ⟨m, inbox'⟩ := r
          simp only [htake] at hpoll
          cases m with
          | none =>
              have hstep := (hr.poll hpoll).1
              refine .of_end hstep (beq_self_eq_true id) hr.found (hr.poll hpoll).2.found ?_
              rw [heardBy_poll hr.found, hr.going, Call.takes_of_waiting hr.staying hst]
              simp only [hawait, Call.hears, hr.holds, hreading, htake, if_true]
              exact List.mem_singleton_self none
          | some m =>
              have hahead : ahead inbox' inHand < n := by
                rw [← hn, ahead, ahead, Inbox.queue_of_take? htake, List.length_cons]
                omega
              exact drains_of_polled hk (fun _ h => h) (fun c call later hr hst hlater =>
                hless _ hahead hr ((Inbox.reading_take? htake).trans hreading) hst hlater rfl)
                (hleads m) hr hpoll
      | none =>
          -- The loop may still have a message in hand; otherwise the caller has to say more.
          obtain ⟨hqueue, hmore⟩ := Inbox.take?_eq_none_iff.1 htake
          cases inHand with
          | nil =>
              have hdry : Dry id c call := ⟨hr.found, by rw [hr.holds, hreading],
                by rw [hr.holds, hqueue], by rw [hr.holds, hmore], hr.handing⟩
              exact hdry.drains
          | cons m rest =>
              obtain ⟨c', inbox', call', hstep, hr', hst', hreading', hahead⟩ :=
                hr.feed (s := s) (by rw [hqueue]; decide)
              have hlater := hless _ (hn ▸ hahead) hr' (hreading'.trans hreading)
                (hst'.trans hst) hstate rfl
              exact hlater.of_step hstep rfl hr.found
  | send payload next =>
      rw [hawait] at hreturns
      cases hreturns with
      | send hleads =>
      -- The writer can always make room, so it is enough to go on with an empty outbox.
      refine drains_of_drained (fun c hr hq => ?_) hr
      have hpoll := hr.waiting (s := s) hst
      simp only [Call.proceed?, hawait] at hpoll
      split at hpoll
      · next hfull => exact absurd hfull (Outbox.send?_of_empty hr.room hq _ _)
      · exact drains_of_polled hk (fun _ => And.left) (hr.holds.symm ▸ hnext) (hleads _) hr hpoll
  | provider answer limit next =>
      rw [hawait] at hreturns
      cases hreturns with
      | provider hleads =>
      cases answer with
      | none =>
          -- A provider that does not answer keeps the handler waiting only until its deadline.
          have hexpire : call.expire? s.handler c.shared =
              some (call.resume s.handler c.shared (next (.error (.timeout limit)))
                c.shared.world) := by
            exact Call.expire?_eq_some_iff.2 ⟨state, limit, next, hst, hawait, rfl⟩
          obtain ⟨hstep, hr'⟩ := hr.expire hexpire
          obtain ⟨-, hsame⟩ := Call.leads_of_endsIn hk
            ((hleads (.error (.timeout limit))).mono fun _ => And.left)
            (Prod.eta (call.resume s.handler c.shared _ c.shared.world)).symm
          have hr' := hr'.holding (by rw [hsame, hr.holds])
          exact (drains_of_resume hk (fun _ => And.left) hnext (hleads _) hr' rfl).of_step hstep
            (beq_self_eq_true id) hr.found
      | some a =>
          have hpoll := hr.waiting (s := s) hst
          simp only [Call.proceed?, hawait, Option.map_some] at hpoll
          exact drains_of_polled hk (fun _ => And.left) (hr.holds.symm ▸ hnext) (hleads a) hr hpoll
  | finish | withdrawal | deafness =>
      rw [hawait] at hreturns
      cases hreturns

/-- **The call of a handler that keeps reading drains**, wherever it stands. -/
theorem drains_of_attentive (hk : s.handler.KeepsReading states away)
    (hr : Ready id inbox inHand c call) (ha : call.Attentive states) : Drains s id c := by
  have hreading : inbox.reading = true := hr.holds ▸ ha.reading
  have leads : ∀ {stage : CallStage ω σ}, call.stage = stage →
      stage.Leads (fun _ => ()) (fun state _ => states state) () := fun hst => hst ▸ ha.leads
  have hnext (c call state) (hr : Ready id inbox inHand c call) (hst : call.stage = .awaiting state)
      (hstate : states state) : Drains s id c := drains_of_awaiting hk hr hreading hst hstate
  have working {job : Job ω σ}
      (hst : call.stage = .starting job ∨ ∃ release, call.stage = .carried release job)
      (hj : job.EndsIn states) : Drains s id c :=
    drains_of_polled hk (fun _ h => h) (hr.holds.symm ▸ hnext) hj hr (hr.resume hst)
  cases hst : call.stage with
  | starting job => exact working (.inl hst) (leads hst)
  | carried release job => exact working (.inr ⟨release, hst⟩) (leads hst)
  | handed effect release next =>
      -- as if the call had just gone on with this
      have hresumed : call.stage = (call.resume s.handler c.shared
          (.blocking effect release next) c.shared.world).1.stage := hst
      exact drains_of_resume hk (fun _ h => h) hnext (leads hst) hr hresumed
  | awaiting state => exact hnext c call state hr hst (leads hst)
  | refused | ended | reporting | gone => cases leads hst

end

/-! ### At rest -/

/-- **Nothing goes on** for a call: whatever may still happen comes from outside. -/
def AtRest (s : Server ω σ) (id : UInt64) (c : Connection ω σ) : Prop :=
  ∀ m : Move, m.helps id = true → c.step? s m = none

/-- **An attentive call is at rest** only when it has heard everything. -/
theorem AtRest.dry {states : σ → Prop} {away : σ → Nat} {inbox : Inbox} {inHand : List Bytes}
    {call : Call ω σ} (h : AtRest s id c) (hk : s.handler.KeepsReading states away)
    (hr : Ready id inbox inHand c call) (ha : call.Attentive states) : Dry id c call := by
  have own : (id == id) = true := beq_self_eq_true id
  have hpoll : call.poll? s.handler false c.shared = none :=
    Option.eq_none_iff_forall_ne_some.2 fun _ hp => by
      cases (h (.pool (.poll id)) own).symm.trans (hr.poll hp).1
  have hcarry : call.carry? c.shared = none :=
    Option.eq_none_iff_forall_ne_some.2 fun _ hp => by
      cases (h (.pool (.carry id)) own).symm.trans (hr.carry hp).1
  have hexpire : call.expire? s.handler c.shared = none :=
    Option.eq_none_iff_forall_ne_some.2 fun _ hp => by
      cases (h (.pool (.expire id)) own).symm.trans (hr.expire hp).1
  have hwritten : c.shared.outbox.queue = [] := by
    have hwrite := h .write rfl
    simp only [step?, write?, Outbox.take?, Option.map_eq_none_iff] at hwrite
    split at hwrite
    · next hq => exact hq
    · cases hwrite
  obtain ⟨hqueue, hmore⟩ := ha.empty_of_stuck hk hpoll hcarry hexpire fun payload =>
    Outbox.send?_of_empty hr.room hwritten _ payload
  refine ⟨hr.found, ha.reading, hqueue, hmore, ?_⟩
  cases hhand : c.handing id with
  | nil => rfl
  | cons m rest =>
      have hr : Ready id inbox (m :: rest) c call := { hr with handing := hhand }
      obtain ⟨c', -, -, hstep, -⟩ := hr.feed (s := s) (by rw [← hr.holds, hqueue]; decide)
      cases (h .proceed rfl).symm.trans hstep

/-! ## What others say -/

/-- **A step that concerns others**: the loop reads a frame of another call or hands over its
message, or it is not the call that takes a step. -/
def IsForeign (s : Server ω σ) (id : UInt64) (c : Connection ω σ) : Move → Prop
  | .read => ∃ f rest, c.Reads s f rest ∧ f.callId ≠ id
  | .proceed => ∃ i m, c.stage = .feeding i m ∧ i ≠ id
  | .pool p => p.caller? ≠ some id
  | _ => False

/-- **What others say changes nothing** for a call: what has been said to it, what waits in its
inbox, and what its handler has heard. -/
theorem Step.foreign (hstep : Step s c m c') (hf : c.IsForeign s id m) :
    c'.pool.call? id = c.pool.call? id ∧ Frame.words id (c.frameRead s m) = [] ∧
      c.heardBy s id m = [] := by
  cases m with
  | read =>
      obtain ⟨f, rest, hread, hne⟩ := hf
      refine ⟨call?_of_read hread.decoded hstep hne, ?_, rfl⟩
      rw [frameRead_of_frame hread.decoded, Frame.words_other hne]
  | proceed =>
      obtain ⟨i, m, hs, hne⟩ := hf
      refine ⟨?_, rfl, rfl⟩
      cases hstep with
      | feed hs' hfeed =>
          cases hs.symm.trans hs'
          exact (Pool.call?_feed? hfeed id).1 (Ne.symm hne)
      | answer hs' | unheard hs' | tear hs' | torn hs' | join hs' | flush hs' =>
          cases hs.symm.trans hs'
  | pool p =>
      have hne : p ≠ .poll id := by
        rintro rfl
        exact hf rfl
      refine ⟨?_, rfl, heardBy_of_ne hne⟩
      cases hstep with
      | pool hp =>
      cases hcall : c.pool.call? id with
      | none => exact Pool.call?_none_of_step hp hcall
      | some call =>
          rcases Pool.call?_of_step hp hcall with ⟨hsame, -⟩ | ⟨call', -, hacts⟩
          · exact hsame
          · exact absurd hacts.caller? hf
  | _ => cases hf

/-! ## The whole of what a call hears -/

/-- **What has been said to a call** in a run. -/
def told (s : Server ω σ) (c : Connection ω σ) (id : UInt64) (ms : List Move) : List Word :=
  Frame.words id (c.framesRead s ms)

/-- **The handler hears everything** that has been said to its call in a run: all messages, and
behind them their end if the caller has ended them. -/
def HearsAll (s : Server ω σ) (c : Connection ω σ) (id : UInt64) (ms : List Move) : Prop :=
  ∃ ends, c.heard s id ms = account (inbound (c.told s id ms)) ends ∧
    (0 < ends ↔ hasKind .halfClose (c.told s id ms) = true)

theorem heard_append {ms ns : List Move} (hr : c.run? s ms = some d) :
    c.heard s id (ms ++ ns) = c.heard s id ms ++ d.heard s id ns := by
  induction ms generalizing c with
  | nil =>
      cases hr
      rfl
  | cons m ms ih =>
      obtain ⟨e, hm, hr⟩ := run?_cons.1 hr
      rw [List.cons_append, heard_cons hm, heard_cons hm, ih hr, List.append_assoc]

theorem framesRead_append {ms ns : List Move} (hr : c.run? s ms = some d) :
    c.framesRead s (ms ++ ns) = c.framesRead s ms ++ d.framesRead s ns := by
  induction ms generalizing c with
  | nil =>
      cases hr
      rfl
  | cons m ms ih =>
      obtain ⟨e, hm, hr⟩ := run?_cons.1 hr
      rw [List.cons_append, framesRead_cons hm, framesRead_cons hm, ih hr, List.append_assoc]

/-- Bringing a call on, nobody reads a frame, and a loop that goes on does not leave. -/
theorem going_of_helps {ms : List Move} (hr : c.run? s ms = some d)
    (hall : ∀ m ∈ ms, m.helps id = true) (hg : c.leaving? = none) :
    c.framesRead s ms = [] ∧ d.leaving? = none := by
  induction ms generalizing c with
  | nil =>
      cases hr
      exact ⟨rfl, hg⟩
  | cons m ms ih =>
      obtain ⟨e, hm, hr⟩ := run?_cons.1 hr
      have hhelps := hall m List.mem_cons_self
      have hstep : Step s c m e := step_of_step? hm
      have hread : c.frameRead s m = [] := by
        cases m with
        | read => cases hhelps
        | _ => rfl
      have hgoing : e.leaving? = none := by
        cases hstep with
        | feed | answer | unheard => rfl
        | write | pool => exact hg
        | tear hs | torn hs | join hs | flush hs =>
            rw [leaving?, hs] at hg
            cases hg
        | _ => cases hhelps
      obtain ⟨hrest, hlast⟩ := ih hr (fun m hm => hall m (List.mem_cons_of_mem _ hm)) hgoing
      rw [framesRead_cons hm, hread, hrest]
      exact ⟨rfl, hlast⟩

theorem mem_account {taken : List Bytes} {ends : Nat} : none ∈ account taken ends ↔ 0 < ends := by
  simp [account, Nat.pos_iff_ne_zero]

/-- Who has heard the end, or has heard everything and waits for more, has heard everything. -/
theorem Hearing.hearsAll {ms : List Move} {taken : List Bytes} {ends : Nat} {call : Call ω σ}
    (hh : Hearing id (c.framesRead s ms) taken ends d call)
    (hheard : c.heard s id ms = account taken ends) (hg : d.leaving? = none)
    (hend : none ∈ c.heard s id ms ∨ ∃ call, Dry id d call) : HearsAll s c id ms := by
  rw [hheard, mem_account] at hend
  rcases hend with hend | ⟨call', hdry⟩
  · obtain ⟨hall, hclosed⟩ := hh.ended hend
    exact ⟨ends, hall ▸ hheard, iff_of_true hend (hh.closed_of_going hg hclosed)⟩
  · obtain rfl := Option.some.inj (hdry.found.symm.trans hh.found)
    have hall := hh.waiting_of_nothing hdry.nothing hdry.reading
    rw [hdry.empty, List.append_nil] at hall
    have hopen (h : call'.inbox.sending = false) : False :=
      Bool.false_ne_true (h.symm.trans hdry.more)
    exact ⟨ends, hheard.trans (congrArg (account · ends) hall),
      iff_of_false (fun h => hopen (hh.ended h).2) (fun h => hopen (hh.shut h))⟩

/-- No step makes the outbox larger or smaller. -/
theorem capacity_of_step (hstep : Step s c m c') :
    c'.shared.outbox.capacity = c.shared.outbox.capacity := by
  cases hstep with
  | answer _ hp => exact (Outbox.alike_of_put? hp).2
  | pool hp => exact hp.alike.2.2
  | _ => rfl

theorem capacity_of_run? {ms : List Move} {n : Nat} (hc : c.shared.outbox.capacity = n)
    (hr : c.run? s ms = some d) : d.shared.outbox.capacity = n :=
  run?_induction (fun hc hstep => (capacity_of_step hstep).trans hc) hc hr

/-- **What a handler that keeps reading hears**, once its call is under way and as long as nobody
withdraws it: everything, if it is at rest, and in any case everything after some more steps. -/
theorem hearsAll_of_keepsReading {states : σ → Prop} {away : σ → Nat} {ms : List Move}
    {call : Call ω σ} (hk : s.handler.KeepsReading states away) (ha : c.Attends states id)
    (hh : Hearing id [] [] 0 c call) (hr : c.run? s ms = some d)
    (hin : ∀ e ∈ c.visited s ms, e.pool.contains id = true)
    (hroom : 0 < d.shared.outbox.capacity) (hg : d.leaving? = none)
    (hstays : d.pool.allWithdrawn = false) (hcancel : hasKind .cancel (c.told s id ms) = false) :
    (d.AtRest s id → HearsAll s c id ms) ∧
      ∃ more e, d.run? s more = some e ∧ (∀ m ∈ more, m.helps id = true) ∧
        c.told s id (ms ++ more) = c.told s id ms ∧ HearsAll s c id (ms ++ more) := by
  obtain ⟨taken, ends, call', hheard, hd⟩ := hearing_of_run? hh hr hin
  have hheard : c.heard s id ms = account taken ends := hheard
  rw [List.nil_append] at hd
  by_cases hend : none ∈ c.heard s id ms
  · -- the end has been heard already
    have hall := hd.hearsAll hheard hg (.inl hend)
    exact ⟨fun _ => hall, [], d, rfl, nofun, by rw [List.append_nil], by rwa [List.append_nil]⟩
  · have hw : call'.withdrawn = false := by
      refine eq_false_of_ne_true fun hw => ?_
      exact Bool.false_ne_true (hcancel.symm.trans (hd.withdrawn_of_going hg hw))
    have hready : Ready id call'.inbox (d.handing id) d call' :=
      ⟨hd.found, hw, hstays, hroom, rfl, rfl⟩
    have hattentive := ha.run hk hr hin hend call' hd.found hw hstays
    refine ⟨fun hrest => hd.hearsAll hheard hg (.inr ⟨_, hrest.dry hk hready hattentive⟩), ?_⟩
    obtain ⟨more, e, hmore, hhelps, hin', hlast⟩ := drains_of_attentive hk hready hattentive
    obtain ⟨hsilent, hg'⟩ := going_of_helps hmore hhelps hg
    obtain ⟨taken', ends', call'', hheard', he⟩ := hearing_of_run? hd hmore hin'
    have hframes : c.framesRead s (ms ++ more) = c.framesRead s ms := by
      rw [framesRead_append hr, hsilent, List.append_nil]
    rw [← framesRead_append hr] at he
    have hboth : c.heard s id (ms ++ more) = _ := heard_append hr
    refine ⟨more, e, hmore, hhelps, by rw [told, told, hframes], ?_⟩
    refine he.hearsAll (hboth.trans (hheard ▸ hheard')) hg' (hlast.imp_left fun hnone => ?_)
    exact hboth ▸ List.mem_append_right _ hnone

/-- **Inbound streams are lossless, ordered and isolated.** After a request has been accepted, what
its handler hears in a run is the beginning of the messages that have been said to its call, in
order and once each, and the end of the messages only behind the last of them. Steps that concern
others change neither what has been said nor what is heard. And a handler that keeps reading, unless
its call is withdrawn, has heard everything when it comes to rest, and comes to rest by itself. -/
theorem inbound_is_lossless (s : Server ω σ) (world : ω) {before : List Move} {f : Frame}
    {rest : Bytes} {r : CallRequest} (hreach : (start world).run? s before = some c)
    (hread : c.Reads s f rest) (hkind : f.kind = .call)
    (hp : (Payload.ofBytes f.payload : Except GatewayError CallRequest) = .ok r)
    (hfree : c.pool.contains f.callId = false) :
    ∃ c', c.step? s .read = some c' ∧ ∀ ms d, c'.run? s ms = some d →
      (∀ e ∈ c'.visited s ms, e.pool.contains f.callId = true) →
      (∃ taken ends, c'.heard s f.callId ms = account taken ends ∧
        taken <+: inbound (c'.told s f.callId ms) ∧
        (0 < ends → taken = inbound (c'.told s f.callId ms) ∧
          (hasKind .halfClose (c'.told s f.callId ms) = true ∨ d.leaving?.isSome = true))) ∧
      (∀ m e, d.IsForeign s f.callId m → d.step? s m = some e →
        e.pool.call? f.callId = d.pool.call? f.callId ∧
        c'.told s f.callId (ms ++ [m]) = c'.told s f.callId ms ∧
        c'.heard s f.callId (ms ++ [m]) = c'.heard s f.callId ms) ∧
      (∀ states away job, s.handler.KeepsReading states away → s.accept r = .ok job →
        job.EndsIn states → d.leaving? = none → d.pool.allWithdrawn = false →
        hasKind .cancel (c'.told s f.callId ms) = false →
        (d.AtRest s f.callId → HearsAll s c' f.callId ms) ∧
        ∃ more e, d.run? s more = some e ∧ (∀ m ∈ more, m.helps f.callId = true) ∧
          c'.told s f.callId (ms ++ more) = c'.told s f.callId ms ∧
          HearsAll s c' f.callId (ms ++ more)) := by
  obtain ⟨pool, hspawn, hstep⟩ := step?_accept hread hkind hp hfree
  have hfound := Pool.call?_spawn hspawn f.callId
  rw [if_pos rfl] at hfound
  have hstart : Hearing f.callId [] [] 0 { c with unread := rest, pool } _ :=
    .start hfound hread.serving
  refine ⟨_, hstep, fun ms d hr hin => ?_⟩
  obtain ⟨taken, ends, call, hheard, hh⟩ := hearing_of_run? hstart hr hin
  rw [List.nil_append] at hh
  refine ⟨⟨taken, ends, hheard, hh.first, fun he => ?_⟩, fun m e hf hm => ?_, ?_⟩
  · exact ⟨(hh.ended he).1, hh.closed (hh.ended he).2⟩
  · obtain ⟨hcall, hwords, hnone⟩ := (step_of_step? hm).foreign hf
    refine ⟨hcall, ?_, ?_⟩
    · rw [told, framesRead_append hr, framesRead_cons hm, framesRead, List.append_nil,
        Frame.words_append, hwords, List.append_nil]
      rfl
    · rw [heard_append hr, heard_cons hm, hnone, heard, List.append_nil, List.append_nil]
  · intro states away job hk haccept hj hg hstays hcancel
    have hroom : d.shared.outbox.capacity = outboxCapacity :=
      capacity_of_run? (capacity_of_run? rfl hreach) (run?_cons.2 ⟨_, hstep, hr⟩)
    refine hearsAll_of_keepsReading hk ?_ hstart hr hin (hroom ▸ by decide) hg hstays hcancel
    intro call hcall _ _
    cases hfound.symm.trans hcall
    refine ⟨?_, rfl⟩
    rw [haccept]
    exact hj

/-- A handler that reads for ever, and a caller that says one thing and ends its messages. -/
theorem hears_a_message_and_the_end :
    let s : Server Unit Unit :=
      ⟨⟨fun _ => 0, rfl⟩, ⟨fun _ => .receive fun _ => .done (), fun _ w => w⟩,
        fun _ => .ok (.done ())⟩
    let f : Frame := ⟨.call, 1, Payload.toBytes (⟨"", "", []⟩ : CallRequest), by decide⟩
    let said : Frame := ⟨.message, 1, [65], by decide⟩
    let ending : Frame := ⟨.halfClose, 1, [], by decide⟩
    let c : Connection Unit Unit := arrived () (f.toBytes s.checksum ++
      (said.toBytes s.checksum ++ ending.toBytes s.checksum))
    let ms : List Move := [.read, .proceed, .read]
    ∃ c' d more ends, c.step? s .read = some c' ∧ c'.run? s (ms ++ more) = some d ∧
      c'.heard s 1 (ms ++ more) = account [[65]] ends ∧ 0 < ends := by
  intro s f said ending c ms
  have hread : c.Reads s f (said.toBytes s.checksum ++ ending.toBytes s.checksum) :=
    reads_toBytes rfl rfl
  have hp : (Payload.ofBytes f.payload : Except GatewayError CallRequest) = .ok ⟨"", "", []⟩ :=
    CallRequest.ofBytes_toBytes (by decide)
  obtain ⟨c', hstep, hall⟩ := inbound_is_lossless s () (run?_arrive () _) hread rfl hp rfl
  let call : Call Unit Unit := .start 1 true (.starting (.done ()))
  let c₁ : Connection Unit Unit :=
    { c with unread := said.toBytes s.checksum ++ ending.toBytes s.checksum
             pool := ⟨[call], false, []⟩ }
  let c₂ : Connection Unit Unit :=
    { c₁ with unread := ending.toBytes s.checksum, stage := .feeding 1 [65] }
  let c₃ : Connection Unit Unit :=
    { c₂ with stage := .serving
              pool := ⟨[{ call with inbox := ⟨[[65]], true, true⟩ }], false, []⟩ }
  let c₄ : Connection Unit Unit :=
    { c₃ with unread := [], pool := ⟨[{ call with inbox := ⟨[[65]], false, true⟩ }], false, []⟩ }
  have hsaid : c₁.Reads s said (ending.toBytes s.checksum) := reads_toBytes rfl rfl
  have hover : c₃.Reads s ending [] := reads_last rfl rfl
  have h₀ : c.step? s .read = some c₁ := by
    obtain ⟨pool, hspawn, haccept⟩ := step?_accept hread rfl hp rfl
    cases hspawn
    exact haccept
  have h₁ : c₁.step? s .read = some c₂ := step?_message hsaid rfl
  have h₂ : c₂.step? s .proceed = some c₃ := rfl
  have h₃ : c₃.step? s .read = some c₄ := step?_read hover
  obtain rfl : c' = c₁ := Option.some.inj (hstep.symm.trans h₀)
  have hr : c₁.run? s ms = some c₄ :=
    run?_cons.2 ⟨c₂, h₁, run?_cons.2 ⟨c₃, h₂, run?_cons.2 ⟨c₄, h₃, rfl⟩⟩⟩
  have hframes : c₁.framesRead s ms = [said, ending] := by
    rw [framesRead_cons h₁, framesRead_cons h₂, framesRead_cons h₃,
      frameRead_of_frame hsaid.decoded, frameRead_of_frame hover.decoded]
    rfl
  have hvisited : c₁.visited s ms = [c₁, c₂, c₃, c₄] := by
    rw [visited_cons h₁, visited_cons h₂, visited_cons h₃]
    rfl
  have hk : s.handler.KeepsReading (fun _ => True) (fun _ => 0) :=
    fun _ _ => .receive fun _ => trivial
  have hin : ∀ e ∈ c₁.visited s ms, e.pool.contains 1 = true := by
    rw [hvisited]
    simp only [List.forall_mem_cons]
    exact ⟨rfl, rfl, rfl, rfl, nofun⟩
  obtain ⟨-, -, hkeeps⟩ := hall ms c₄ hr hin
  have htold : c₁.told s 1 ms = [(.message, [65]), (.halfClose, [])] := by
    rw [told, hframes]
    rfl
  obtain ⟨-, more, e, hmore, -, hsame, ends, hheard, hends⟩ :=
    hkeeps _ _ (.done ()) hk rfl trivial rfl rfl (by rw [htold]; rfl)
  rw [hsame, htold] at hheard hends
  exact ⟨c₁, e, more, ends, h₀, run?_append hr hmore, hheard, hends.2 rfl⟩

end Connection

end DeviceGateway
