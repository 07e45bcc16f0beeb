import DeviceGateway.Call.Probe
import DeviceGateway.Proofs.Call.PoolLookup

/-!
# Keeping track of calls

Whoever owns a pool accepts calls, hands them messages, ends their messages and withdraws them,
receives the reports of their ends and processes them. The calls take their steps in between, in any
order, and what they share with the rest of the system changes (`Tracking`).

A report names a call by nothing but its number, and a number is free again once its call has been
forgotten. That no old report ever ends a new call is an invariant of the calls and of all reports
that are not processed, those in the channel and those already received alike (`Sound`): they name
different calls, and these are exactly the calls that are gone. From it follows how well a pool
keeps track of its calls (`pool_keeps_track`).
-/

namespace DeviceGateway

/-- Whether a call is about to report its end. -/
def CallStage.isReporting {ω σ : Type} : CallStage ω σ → Bool
  | .reporting => true
  | _ => false

/-- **A pool in use.** -/
structure Tracking (ω σ : Type) where
  pool : Pool ω σ
  shared : Shared ω
  /-- The reports that have been received and not processed. -/
  received : List UInt64

namespace Tracking

variable {ω σ : Type}

/-- **What may happen to a pool in use.** -/
inductive Op (ω σ : Type) where
  /-- A call comes in: its handler begins with a job, or there is no handler for it. -/
  | spawn (id : UInt64) (supervised : Bool) (accepted : Except GatewayError (Job ω σ))
  | feed (id : UInt64) (m : Bytes)
  | halfClose (id : UInt64)
  | cancel (id : UInt64)
  | cancelParent
  /-- The next report is taken from the channel. -/
  | receive
  /-- A report that was received is processed, be it the first of them or not. -/
  | process (id : UInt64)
  /-- A call takes a step, or the system does for it. -/
  | task (m : Pool.Move)
  /-- The rest of the system changes what the calls share with it. -/
  | outside (shared : Shared ω)

/-- A pool that has just been opened. -/
def start (shared : Shared ω) : Tracking ω σ := ⟨.empty, shared, []⟩

/-- **What is after an operation**, if it is possible. A call that is not accepted leaves all as it
was. -/
def step? (h : Handler ω σ) (t : Tracking ω σ) : Op ω σ → Option (Tracking ω σ)
  | .spawn id supervised accepted =>
    match t.pool.spawn id supervised (.opening accepted) with
    | .ok pool => some { t with pool }
    | .error _ => some t
  | .feed id m => (t.pool.feed? id m).map fun pool => { t with pool }
  | .halfClose id => some { t with pool := t.pool.halfClose id }
  | .cancel id => some { t with pool := t.pool.cancel id }
  | .cancelParent => some { t with pool := t.pool.cancelParent }
  | .receive =>
    t.pool.receive?.map fun (id, pool) => { t with pool, received := t.received ++ [id] }
  | .process id =>
    if id ∈ t.received then
      some { t with pool := t.pool.processEnd id, received := t.received.erase id }
    else none
  | .task m => (t.pool.step? h t.shared m).map fun (pool, shared) => { t with pool, shared }
  | .outside shared => some { t with shared }

def run? (h : Handler ω σ) (t : Tracking ω σ) : List (Op ω σ) → Option (Tracking ω σ)
  | [] => some t
  | op :: ops => (t.step? h op).bind (run? h · ops)

/-- All reports that have been sent and not processed. -/
def reported (t : Tracking ω σ) : List UInt64 := t.received ++ t.pool.events

/-- **How many reports of its end a call has on the way**: sent, or about to be sent. -/
def reportsOf (t : Tracking ω σ) (c : Call ω σ) : Nat :=
  t.reported.count c.id + if c.stage.isReporting then 1 else 0

/-- Whether a call counts as withdrawn. -/
def countsWithdrawn (t : Tracking ω σ) (c : Call ω σ) : Bool := c.withdrawn || t.pool.allWithdrawn

variable {h : Handler ω σ} {t t' : Tracking ω σ} {op : Op ω σ} {ops : List (Op ω σ)}

/-! ## What an operation does -/

/-- **What an operation does to a pool in use.** -/
inductive Step (h : Handler ω σ) (t : Tracking ω σ) : Op ω σ → Tracking ω σ → Prop where
  | spawned {id : UInt64} {supervised : Bool} {accepted : Except GatewayError (Job ω σ)}
      {pool : Pool ω σ} (hp : t.pool.spawn id supervised (.opening accepted) = .ok pool) :
      Step h t (.spawn id supervised accepted) { t with pool }
  | refused {id : UInt64} {supervised : Bool} {accepted : Except GatewayError (Job ω σ)}
      (htaken : t.pool.contains id = true) : Step h t (.spawn id supervised accepted) t
  | fed {id : UInt64} {m : Bytes} {pool : Pool ω σ} (hp : t.pool.feed? id m = some pool) :
      Step h t (.feed id m) { t with pool }
  | halfClosed (id : UInt64) : Step h t (.halfClose id) { t with pool := t.pool.halfClose id }
  | cancelled (id : UInt64) : Step h t (.cancel id) { t with pool := t.pool.cancel id }
  | cancelledParent : Step h t .cancelParent { t with pool := t.pool.cancelParent }
  | received {id : UInt64} {rest : List UInt64} (he : t.pool.events = id :: rest) :
      Step h t .receive
        { t with pool := { t.pool with events := rest }, received := t.received ++ [id] }
  | processed {id : UInt64} (hm : id ∈ t.received) :
      Step h t (.process id)
        { t with pool := t.pool.processEnd id, received := t.received.erase id }
  | task {m : Pool.Move} {pool : Pool ω σ} {shared : Shared ω}
      (hp : Pool.Step h t.pool t.shared m pool shared) : Step h t (.task m) { t with pool, shared }
  | outside (shared : Shared ω) : Step h t (.outside shared) { t with shared }

theorem spawn_of_taken {p : Pool ω σ} {id : UInt64} (htaken : p.contains id = true)
    (supervised : Bool) (stage : CallStage ω σ) :
    p.spawn id supervised stage = .error (.protocol s!"call id {id.toNat} already in use") := by
  rw [Pool.spawn, if_pos htaken]

theorem step_of_step? (hs : t.step? h op = some t') : Step h t op t' := by
  cases op with
  | spawn id supervised accepted =>
      by_cases htaken : t.pool.contains id = true
      · simp only [step?, spawn_of_taken htaken] at hs
        cases hs
        exact .refused htaken
      · have hok := Pool.spawn_of_free supervised (.opening accepted) (eq_false_of_ne_true htaken)
        simp only [step?, hok] at hs
        cases hs
        exact .spawned hok
  | feed id m =>
      obtain ⟨pool, hp, rfl⟩ := Option.map_eq_some_iff.1 hs
      exact .fed hp
  | halfClose id =>
      cases hs
      exact .halfClosed id
  | cancel id =>
      cases hs
      exact .cancelled id
  | cancelParent =>
      cases hs
      exact .cancelledParent
  | receive =>
      obtain ⟨⟨id, pool⟩, hp, rfl⟩ := Option.map_eq_some_iff.1 hs
      unfold Pool.receive? at hp
      split at hp
      · cases hp
      · next i rest he =>
        cases hp
        exact .received he
  | process id =>
      simp only [step?] at hs
      split at hs
      · next hm =>
        cases hs
        exact .processed hm
      · cases hs
  | task m =>
      obtain ⟨⟨pool, shared⟩, hp, rfl⟩ := Option.map_eq_some_iff.1 hs
      exact .task (Pool.step_of_step? hp)
  | outside shared =>
      cases hs
      exact .outside shared

/-! ## The invariant -/

/-- The pool with all reports in its channel that it has not processed. -/
def unprocessed (t : Tracking ω σ) : Pool ω σ := { t.pool with events := t.reported }

/-- **The calls have different numbers, and one report is there for each that is gone**, and for no
other, wherever the report is. -/
structure Sound (t : Tracking ω σ) : Prop where
  numbered : t.pool.Numbered
  kept : t.unprocessed.WellKept

namespace Sound

theorem start (shared : Shared ω) : (Tracking.start shared : Tracking ω σ).Sound where
  numbered := List.nodup_nil
  kept := Pool.WellKept.empty

/-- A step of a call: if it reports its end, the report comes after all others. -/
theorem task (ht : t.Sound) {m : Pool.Move} {pool : Pool ω σ} {shared : Shared ω}
    (hp : Pool.Step h t.pool t.shared m pool shared) :
    ({ t with pool, shared } : Tracking ω σ).Sound := by
  constructor
  · rw [Pool.Numbered, Pool.numbers_of_step hp]
    exact ht.numbered
  · cases hp with
    | poll hc hp => exact ht.kept.advance hc (Call.advances_of_poll? hp)
    | carry hc hp => exact ht.kept.advance hc (Call.advances_of_carry? hp)
    | expire hc hp => exact ht.kept.advance hc (Call.advances_of_expire? hp)
    | report hc hstage hroom =>
        -- The report goes to the end of the channel, which is behind all that was received.
        have hreport := ht.kept.report hc hstage
        rw [unprocessed, reported, List.append_assoc] at hreport
        exact hreport
    | orphan ho => exact ht.kept

/-- Processing a report removes it together with the call that it names. -/
theorem processed (ht : t.Sound) {id : UInt64} (hm : id ∈ t.received) :
    ({ t with pool := t.pool.processEnd id, received := t.received.erase id } :
      Tracking ω σ).Sound := by
  refine ⟨ht.numbered.sublist (List.filter_sublist.map _), ?_⟩
  have hevents : t.received.erase id ++ t.pool.events = (t.received ++ t.pool.events).erase id :=
    (List.erase_append_left t.pool.events hm).symm
  exact ht.kept.forget (Pool.standing?_processEnd t.pool id) hevents

theorem step (ht : t.Sound) (hs : Step h t op t') : t'.Sound := by
  cases hs with
  | @spawned id supervised accepted pool hp =>
      have hstage : (CallStage.opening accepted : CallStage ω σ) ≠ .gone := by
        intro hg
        cases accepted with
        | ok job => cases hg
        | error e => cases hg
      obtain ⟨hfree, rfl⟩ := Pool.spawn_eq_ok_iff.1 hp
      exact ⟨ht.numbered.spawn hp, ht.kept.spawn (Pool.spawn_of_free _ _ hfree) hstage⟩
  | refused htaken => exact ht
  | @fed id m pool hp =>
      have hstands : pool.standing? = t.pool.standing? := Pool.standing?_feed? hp
      refine ⟨?_, ht.kept.of_standing? hstands ?_⟩
      · rw [Pool.Numbered, Pool.numbers_feed? hp]
        exact ht.numbered
      · show t.received ++ pool.events = t.received ++ t.pool.events
        rw [Pool.events_feed? hp]
  | halfClosed id =>
      refine ⟨?_, ht.kept.of_standing? (Pool.standing?_halfClose t.pool id) rfl⟩
      rw [Pool.Numbered, Pool.numbers_halfClose]
      exact ht.numbered
  | cancelled id =>
      refine ⟨?_, ht.kept.of_standing? (Pool.standing?_cancel t.pool id) rfl⟩
      rw [Pool.Numbered, Pool.numbers_cancel]
      exact ht.numbered
  | cancelledParent => exact ⟨ht.numbered, ht.kept.of_standing? rfl rfl⟩
  | @received id rest he =>
      refine ⟨ht.numbered, ht.kept.of_standing? rfl ?_⟩
      show (t.received ++ [id]) ++ rest = t.received ++ t.pool.events
      rw [he, List.append_assoc, List.singleton_append]
  | processed hm => exact ht.processed hm
  | task hp => exact ht.task hp
  | outside shared => exact ⟨ht.numbered, ht.kept⟩

theorem run (ht : t.Sound) (hr : t.run? h ops = some t') : t'.Sound := by
  induction ops generalizing t with
  | nil =>
      cases hr
      exact ht
  | cons op ops ih =>
      obtain ⟨u, hs, hr⟩ := Option.bind_eq_some_iff.1 hr
      exact ih (ht.step (step_of_step? hs)) hr

/-! ### Reports -/

theorem mem_reported_iff (ht : t.Sound) {c : Call ω σ} (hc : c ∈ t.pool.calls) :
    c.id ∈ t.reported ↔ c.stage = .gone := by
  have hfound := (Pool.call?_eq_some_iff ht.numbered).2 ⟨hc, rfl⟩
  have hstands : t.unprocessed.standing? c.id = some (c.supervised, c.stage) :=
    Pool.standing?_of_call? hfound
  apply (ht.kept.reported c.id).trans
  rw [hstands]
  constructor
  · rintro ⟨sup, hg⟩
    exact congrArg Prod.snd (Option.some.inj hg)
  · intro hg
    exact ⟨c.supervised, by rw [hg]⟩

/-- Every report names a call that is there, and gone. -/
theorem gone_of_reported (ht : t.Sound) {id : UInt64} (hm : id ∈ t.reported) :
    ∃ c, t.pool.call? id = some c ∧ c.stage = .gone := by
  obtain ⟨sup, hstands⟩ := (ht.kept.reported id).1 hm
  obtain ⟨c, hc, heq⟩ := Option.map_eq_some_iff.1 hstands
  exact ⟨c, hc, congrArg Prod.snd heq⟩

/-- **A call has a report on the way exactly when its work is over, and then just one.** -/
theorem reportsOf_eq (ht : t.Sound) {c : Call ω σ} (hc : c ∈ t.pool.calls) :
    t.reportsOf c = if c.stage.isOver then 1 else 0 := by
  have hgone := ht.mem_reported_iff hc
  -- Only of a call that is gone has a report been sent.
  have hcount : t.reported.count c.id = if c.stage.isGone then 1 else 0 := by
    split
    · next hg => exact List.count_eq_one_of_mem ht.kept.nodup (hgone.2 (Pool.isGone_iff.1 hg))
    · next hg => exact List.count_eq_zero_of_not_mem fun hm => hg (Pool.isGone_iff.2 (hgone.1 hm))
  rw [reportsOf, hcount]
  cases c.stage <;> rfl

end Sound

/-! ## Who is tracked, and who is withdrawn -/

/-- **Only processing its report makes a pool forget a call.** -/
theorem contains_of_step (hs : Step h t op t') {id : UInt64} (hop : op ≠ .process id)
    (hc : t.pool.contains id = true) : t'.pool.contains id = true := by
  rw [← Pool.mem_numbers_iff] at hc ⊢
  cases hs with
  | spawned hp =>
      rw [Pool.numbers_spawn hp]
      exact List.mem_append_left _ hc
  | refused htaken => exact hc
  | fed hp =>
      rw [Pool.numbers_feed? hp]
      exact hc
  | halfClosed i =>
      rw [Pool.numbers_halfClose]
      exact hc
  | cancelled i =>
      rw [Pool.numbers_cancel]
      exact hc
  | cancelledParent => exact hc
  | received he => exact hc
  | @processed i hm =>
      have hne : id ≠ i := fun heq => hop (by rw [heq])
      obtain ⟨c, hm, rfl⟩ := List.mem_map.1 hc
      exact List.mem_map.2 ⟨c, List.mem_filter.2 ⟨hm, bne_iff_ne.2 hne⟩, rfl⟩
  | task hp =>
      rw [Pool.numbers_of_step hp]
      exact hc
  | outside shared => exact hc

theorem allWithdrawn_of_step (hs : Step h t op t') (hall : t.pool.allWithdrawn = true) :
    t'.pool.allWithdrawn = true := by
  cases hs with
  | spawned hp =>
      obtain ⟨-, rfl⟩ := Pool.spawn_eq_ok_iff.1 hp
      exact hall
  | fed hp => exact (Pool.allWithdrawn_feed? hp).trans hall
  | cancelledParent => rfl
  | task hp =>
      cases hp with
      | poll | carry | expire | report | orphan => exact hall
  | refused | halfClosed | cancelled | received | processed | outside => exact hall

theorem allWithdrawn_of_run (hr : t.run? h ops = some t') (hall : t.pool.allWithdrawn = true) :
    t'.pool.allWithdrawn = true := by
  induction ops generalizing t with
  | nil =>
      cases hr
      exact hall
  | cons op ops ih =>
      obtain ⟨u, hs, hr⟩ := Option.bind_eq_some_iff.1 hr
      exact ih hr (allWithdrawn_of_step (step_of_step? hs) hall)

/-- The call with a number has been withdrawn. -/
def HasWithdrawn (t : Tracking ω σ) (id : UInt64) : Prop :=
  ∃ c, t.pool.call? id = some c ∧ c.withdrawn = true

/-- **A call that has been withdrawn stays so** until it is forgotten. -/
theorem HasWithdrawn.step {id : UInt64} (hw : t.HasWithdrawn id) (hs : Step h t op t')
    (hop : op ≠ .process id) : t'.HasWithdrawn id := by
  obtain ⟨c, hc, hwithdrawn⟩ := hw
  cases hs with
  | @spawned i supervised accepted pool hp =>
      -- The number of the new call was free, so it is not that of the call.
      have hfree := (Pool.spawn_eq_ok_iff.1 hp).1
      have hne : id ≠ i := by
        rintro rfl
        rw [Pool.contains, hc] at hfree
        cases hfree
      exact ⟨c, (Pool.call?_spawn hp id).trans ((if_neg hne).trans hc), hwithdrawn⟩
  | @fed i m pool hp =>
      obtain ⟨hother, -, hown⟩ := Pool.call?_feed? hp id
      by_cases hi : id = i
      · subst hi
        obtain ⟨inbox, -, hfound⟩ := hown c hc
        exact ⟨_, hfound, hwithdrawn⟩
      · exact ⟨c, (hother hi).trans hc, hwithdrawn⟩
  | halfClosed i =>
      have hfound := Pool.call?_halfClose t.pool i id
      rw [hc] at hfound
      by_cases hi : id = i
      · exact ⟨_, hfound.trans (if_pos hi), hwithdrawn⟩
      · exact ⟨c, hfound.trans (if_neg hi), hwithdrawn⟩
  | cancelled i =>
      have hfound := Pool.call?_cancel t.pool i id
      rw [hc] at hfound
      by_cases hi : id = i
      · exact ⟨_, hfound.trans (if_pos hi), rfl⟩
      · exact ⟨c, hfound.trans (if_neg hi), hwithdrawn⟩
  | @processed i hm =>
      have hne : id ≠ i := fun heq => hop (by rw [heq])
      have hfound := (Pool.call?_processEnd t.pool i id).trans (if_neg hne)
      exact ⟨c, hfound.trans hc, hwithdrawn⟩
  | task hp =>
      rcases Pool.call?_of_step hp hc with ⟨hsame, -⟩ | ⟨c', hfound, hacts⟩
      · exact ⟨c, hsame, hwithdrawn⟩
      · exact ⟨c', hfound, hacts.sameOutside.1.trans hwithdrawn⟩
  | refused | cancelledParent | received | outside => exact ⟨c, hc, hwithdrawn⟩

theorem HasWithdrawn.run {id : UInt64} (hw : t.HasWithdrawn id) (hr : t.run? h ops = some t')
    (hops : ∀ op ∈ ops, op ≠ .process id) : t'.HasWithdrawn id := by
  induction ops generalizing t with
  | nil =>
      cases hr
      exact hw
  | cons op ops ih =>
      obtain ⟨u, hs, hr⟩ := Option.bind_eq_some_iff.1 hr
      have hu := hw.step (step_of_step? hs) (hops op List.mem_cons_self)
      exact ih hu hr fun o ho => hops o (List.mem_cons_of_mem op ho)

/-! ## Keeping track -/

/-- **What is so after a withdrawal** of one call. -/
structure Withdraws (h : Handler ω σ) (t : Tracking ω σ) (id : UInt64) (t' : Tracking ω σ) :
    Prop where
  /-- The call is withdrawn, if it is there, and otherwise as it was. -/
  own : t'.pool.call? id = (t.pool.call? id).map fun c => { c with withdrawn := true }
  /-- Every other call is as it was, -/
  others : ∀ i, i ≠ id → t'.pool.call? i = t.pool.call? i
  /-- and so is all that is not a call. -/
  rest : t'.pool.allWithdrawn = t.pool.allWithdrawn ∧ t'.reported = t.reported ∧
    t'.shared = t.shared
  /-- The call stays withdrawn until it is forgotten. -/
  lasting : t.pool.contains id = true → ∀ ops u, t'.run? h ops = some u →
    (∀ op ∈ ops, op ≠ .process id) → u.HasWithdrawn id

/-- **A pool keeps track of its calls**: it forgets none too early and keeps none without a report
of its end being on the way. -/
structure KeepsTrack (h : Handler ω σ) (t : Tracking ω σ) : Prop where
  /-- No two tracked calls have the same number. -/
  distinct : t.pool.Numbered
  /-- A call that is at work has no report on the way, and one whose work is over has one. -/
  accounted : ∀ c ∈ t.pool.calls, t.reportsOf c = if c.stage.isOver then 1 else 0
  /-- Every report that was sent names a tracked call, whose task is over. -/
  named : ∀ id ∈ t.reported, ∃ c, t.pool.call? id = some c ∧ c.stage = .gone
  /-- Nothing but processing its report makes the pool forget a call, -/
  remembers : ∀ op t' id, t.step? h op = some t' → t.pool.contains id = true →
    t'.pool.contains id = false → op = .process id
  /-- and what is forgotten then is one call whose task is over, and no other. -/
  processes : ∀ id t', t.step? h (.process id) = some t' →
    (∃ c, t.pool.call? id = some c ∧ c.stage = .gone) ∧ t'.pool.contains id = false ∧
      ∀ i, i ≠ id → t'.pool.call? i = t.pool.call? i
  /-- A call under a number that is tracked is refused, and all stays as it was. -/
  refuses : ∀ id supervised accepted, t.pool.contains id = true →
    t.pool.spawn id supervised (.opening accepted) =
        .error (.protocol s!"call id {id.toNat} already in use") ∧
      t.step? h (.spawn id supervised accepted) = some t
  /-- A withdrawal concerns the call that it names, -/
  withdraws : ∀ id t', t.step? h (.cancel id) = some t' → Withdraws h t id t'
  /-- and one of the parent all calls, those to come included. -/
  withdrawsAll : ∀ t' ops u, t.step? h .cancelParent = some t' → t'.run? h ops = some u →
    ∀ c ∈ u.pool.calls, u.countsWithdrawn c = true

theorem withdraws_cancel (t : Tracking ω σ) (id : UInt64) :
    Withdraws h t id { t with pool := t.pool.cancel id } := by
  have hown : (t.pool.cancel id).call? id =
      (t.pool.call? id).map fun c => { c with withdrawn := true } := by
    rw [Pool.call?_cancel, if_pos rfl]
  refine ⟨hown, ?_, ⟨rfl, rfl, rfl⟩, ?_⟩
  · intro i hi
    show (t.pool.cancel id).call? i = t.pool.call? i
    rw [Pool.call?_cancel, if_neg hi]
  · intro hthere ops u hr hops
    obtain ⟨c, hc⟩ := Option.isSome_iff_exists.1 hthere
    rw [hc] at hown
    exact HasWithdrawn.run ⟨_, hown, rfl⟩ hr hops

/-- A pool that is sound keeps track of its calls. -/
theorem Sound.keepsTrack (ht : t.Sound) : t.KeepsTrack h where
  distinct := ht.numbered
  accounted _ hc := ht.reportsOf_eq hc
  named _ hm := ht.gone_of_reported hm
  remembers op t' id hs hc hgone := by
    by_contra hop
    rw [contains_of_step (step_of_step? hs) hop hc] at hgone
    cases hgone
  processes id t' hs := by
    cases step_of_step? hs with
    | processed hm =>
        refine ⟨ht.gone_of_reported (List.mem_append_left _ hm), ?_, ?_⟩
        · show (t.pool.processEnd id).contains id = false
          rw [Pool.contains, Pool.call?_processEnd, if_pos rfl, Option.isSome_none]
        · intro i hi
          show (t.pool.processEnd id).call? i = t.pool.call? i
          rw [Pool.call?_processEnd, if_neg hi]
  refuses id supervised accepted htaken := by
    have hspawn := spawn_of_taken htaken supervised (.opening accepted)
    refine ⟨hspawn, ?_⟩
    simp only [step?, hspawn]
  withdraws id t' hs := by
    cases step_of_step? hs with
    | cancelled => exact withdraws_cancel t id
  withdrawsAll t' ops u hs hr c hc := by
    cases step_of_step? hs with
    | cancelledParent =>
        have hall : u.pool.allWithdrawn = true := allWithdrawn_of_run hr rfl
        rw [countsWithdrawn, hall, Bool.or_true]

/-- **A pool keeps track of its calls**, whatever they do and in whatever order they are accepted,
handed messages, withdrawn, reported and processed. -/
theorem pool_keeps_track (h : Handler ω σ) (shared : Shared ω) (ops : List (Op ω σ))
    (t : Tracking ω σ) (hr : (start shared).run? h ops = some t) : t.KeepsTrack h :=
  ((Sound.start shared).run hr).keepsTrack

/-- A call that is done at once, a call under its number before its report is processed, and another
one afterwards. -/
def numberUsedAgain : List (Op Probe.Log Probe.State) :=
  [.spawn 1 false (.ok (Probe.begin .done 1)), .task (.poll 1), .task (.report 1), .receive,
    .spawn 1 false (.ok (Probe.begin .wait 1)), .process 1,
    .spawn 1 false (.ok (Probe.begin .wait 1)), .cancel 1]

theorem keeps_track_of_number_used_again :
    ∃ t, (start ⟨[], .empty 1, []⟩).run? Probe.handler numberUsedAgain = some t ∧
      t.pool.numbers = [1] ∧ t.KeepsTrack Probe.handler :=
  ⟨_, rfl, rfl, pool_keeps_track Probe.handler ⟨[], .empty 1, []⟩ numberUsedAgain _ rfl⟩

end Tracking

end DeviceGateway
