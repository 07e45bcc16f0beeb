import DeviceGateway.Call.Pool
import DeviceGateway.Proofs.Call.Polling
import DeviceGateway.Proofs.Wire.StatusSize
import Mathlib.Logic.Function.Basic

/-!
# The calls of a pool by their numbers

How a call stands is who looks after it and how far it has got. Handing over messages, ending them
and withdrawing calls leave it alone; a step of a pool changes it for one call (`step_of_step?`). A
pool that is kept well has one report waiting for each call that is gone, and for no other call
(`WellKept`); so a call leaves the pool only after its task is over.
-/

namespace DeviceGateway.Pool

variable {ω σ : Type} {h : Handler ω σ} {p p' : Pool ω σ} {s s' : Shared ω}

/-! ## How calls stand -/

/-- **How the call with a number stands**: whether it is supervised, and how far it has got. -/
def standing? (p : Pool ω σ) (id : UInt64) : Option (Bool × CallStage ω σ) :=
  (p.call? id).map fun c => (c.supervised, c.stage)

theorem id_of_call? {id : UInt64} {c : Call ω σ} (hc : p.call? id = some c) : c.id = id := by
  have := List.find?_some hc
  simpa using this

theorem contains_eq (id : UInt64) : p.contains id = (p.standing? id).isSome := by
  rw [contains, standing?, Option.isSome_map]

theorem standing?_of_call? {id : UInt64} {c : Call ω σ} (hc : p.call? id = some c) :
    p.standing? id = some (c.supervised, c.stage) := by
  rw [standing?, hc]
  rfl

/-- Calls that are changed one by one and keep their numbers are found as before. -/
theorem call?_map {g : Call ω σ → Call ω σ} (hg : ∀ c, (g c).id = c.id)
    (hp : p'.calls = p.calls.map g) (id : UInt64) : p'.call? id = (p.call? id).map g := by
  rw [call?, hp, List.find?_map]
  congr 2
  funext c
  simp only [Function.comp_apply, hg]

theorem standing?_modify (p : Pool ω σ) (id : UInt64) {f : Call ω σ → Call ω σ}
    (hf : ∀ c, (f c).id = c.id ∧ (f c).supervised = c.supervised ∧ (f c).stage = c.stage) :
    (p.modify id f).standing? = p.standing? := by
  funext i
  have hg : ∀ c : Call ω σ, (if c.id = id then f c else c).id = c.id := by
    intro c
    split
    · exact (hf c).1
    · rfl
  rw [standing?, call?_map hg rfl, Option.map_map, standing?]
  congr 1
  funext c
  simp only [Function.comp_apply]
  split
  · rw [(hf c).2.1, (hf c).2.2]
  · rfl

@[simp] theorem standing?_halfClose (p : Pool ω σ) (id : UInt64) :
    (p.halfClose id).standing? = p.standing? := standing?_modify p id fun _ => ⟨rfl, rfl, rfl⟩

@[simp] theorem standing?_cancel (p : Pool ω σ) (id : UInt64) :
    (p.cancel id).standing? = p.standing? := standing?_modify p id fun _ => ⟨rfl, rfl, rfl⟩

@[simp] theorem standing?_tear (p : Pool ω σ) (t : TeardownStep) :
    (p.tear t).standing? = p.standing? := by
  cases t with
  | endMessages id => exact standing?_halfClose p id
  | withdraw id => exact standing?_cancel p id

theorem call?_replace {id : UInt64} {c c' : Call ω σ} (hc : p.call? id = some c)
    (hid : c'.id = id) (i : UInt64) :
    (p.replace c').call? i = if i = id then some c' else p.call? i := by
  have hg : ∀ d : Call ω σ, (if d.id = c'.id then c' else d).id = d.id := by
    intro d
    split
    · next hd => exact hd.symm
    · rfl
  rw [call?_map hg rfl]
  split
  · next hi =>
    subst hi
    rw [hc, Option.map_some, if_pos ((id_of_call? hc).trans hid.symm)]
  · next hi =>
    cases hd : p.call? i with
    | none => rfl
    | some d =>
        have hne : d.id ≠ c'.id := by
          rw [id_of_call? hd, hid]
          exact hi
        rw [Option.map_some, if_neg hne]

/-- A call in the place of the one with its number changes how that one stands, and no other. -/
theorem standing?_replace {id : UInt64} {c c' : Call ω σ} (hc : p.call? id = some c)
    (hid : c'.id = id) :
    (p.replace c').standing? = Function.update p.standing? id (some (c'.supervised, c'.stage)) := by
  funext i
  rw [standing?, call?_replace hc hid, Function.update_apply]
  split
  · rfl
  · rfl

/-- **What handing over a message comes to**: the call is not known, or its inbox takes it. -/
inductive Feeds (p : Pool ω σ) (id : UInt64) (m : Bytes) : Pool ω σ → Prop where
  | unknown (hc : p.call? id = none) : Feeds p id m p
  | taken {c : Call ω σ} {inbox : Inbox} (hc : p.call? id = some c)
      (hput : c.inbox.put? m = some inbox) : Feeds p id m (p.replace { c with inbox })

theorem feeds_of_feed? {id : UInt64} {m : Bytes} (hp : p.feed? id m = some p') :
    p.Feeds id m p' := by
  unfold feed? at hp
  split at hp
  · next hc =>
    cases hp
    exact .unknown hc
  · next c hc =>
    obtain ⟨inbox, hput, rfl⟩ := Option.map_eq_some_iff.1 hp
    exact .taken hc hput

theorem standing?_feed? {id : UInt64} {m : Bytes} (hp : p.feed? id m = some p') :
    p'.standing? = p.standing? := by
  cases feeds_of_feed? hp with
  | unknown => rfl
  | @taken c inbox hc =>
      have hid := id_of_call? hc
      rw [standing?_replace hc (show ({ c with inbox } : Call ω σ).id = id from hid)]
      exact Function.update_eq_self_iff.2 (standing?_of_call? hc).symm

theorem spawn_eq_ok_iff {id : UInt64} {sup : Bool} {stage : CallStage ω σ} :
    p.spawn id sup stage = .ok p' ↔
      p.contains id = false ∧ p' = { p with calls := p.calls ++ [.start id sup stage] } := by
  unfold spawn
  cases p.contains id <;> simp [eq_comm]

theorem spawn_of_free {id : UInt64} (sup : Bool) (stage : CallStage ω σ)
    (hfree : p.contains id = false) :
    p.spawn id sup stage = .ok { p with calls := p.calls ++ [.start id sup stage] } :=
  spawn_eq_ok_iff.2 ⟨hfree, rfl⟩

theorem standing?_spawn {id : UInt64} {sup : Bool} {stage : CallStage ω σ}
    (hp : p.spawn id sup stage = .ok p') :
    p'.standing? = Function.update p.standing? id (some (sup, stage)) := by
  obtain ⟨hfree, rfl⟩ := spawn_eq_ok_iff.1 hp
  have hnone : p.call? id = none := by
    rw [contains, Option.isSome_eq_false_iff, Option.isNone_iff_eq_none] at hfree
    exact hfree
  funext i
  rw [standing?, call?, List.find?_append]
  by_cases hi : i = id
  · subst hi
    rw [call?] at hnone
    rw [hnone, Function.update_self]
    simp [Call.start]
  · rw [Function.update_of_ne hi, standing?, call?]
    have hstart : [Call.start id sup stage].find? (·.id == i) = none := by
      simp [Call.start, Ne.symm hi]
    rw [hstart, Option.or_none]

theorem standing?_processEnd (p : Pool ω σ) (id : UInt64) :
    (p.processEnd id).standing? = Function.update p.standing? id none := by
  funext i
  rw [standing?, call?, processEnd, List.find?_filter]
  by_cases hi : i = id
  · subst hi
    rw [Function.update_self]
    simp
  · rw [Function.update_of_ne hi, standing?, call?]
    congr 2
    funext c
    by_cases hc : c.id = i
    · simp [hc, hi]
    · simp [hc]

theorem notice?_eq_some_iff {id : UInt64} :
    p.notice? = some (id, p') ↔
      ∃ rest, p.events = id :: rest ∧ p' = { p with events := rest }.processEnd id := by
  unfold notice? receive?
  cases p.events with
  | nil => simp
  | cons i rest =>
      simp only [Option.map_some, Option.some.injEq, Prod.mk.injEq, List.cons.injEq]
      constructor
      · rintro ⟨rfl, rfl⟩
        exact ⟨rest, ⟨rfl, rfl⟩, rfl⟩
      · rintro ⟨rest', ⟨rfl, rfl⟩, rfl⟩
        exact ⟨rfl, rfl⟩

theorem standing?_notice {id : UInt64} (hp : p.notice? = some (id, p')) :
    p'.standing? = Function.update p.standing? id none := by
  obtain ⟨rest, -, rfl⟩ := notice?_eq_some_iff.1 hp
  exact standing?_processEnd _ _

/-! ## Steps -/

/-- **What a step of a pool does.** -/
inductive Step (h : Handler ω σ) (p : Pool ω σ) (s : Shared ω) :
    Move → Pool ω σ → Shared ω → Prop where
  | poll {id : UInt64} {c c' : Call ω σ} {s' : Shared ω} (hc : p.call? id = some c)
      (hp : c.poll? h p.allWithdrawn s = some (c', s')) : Step h p s (.poll id) (p.replace c') s'
  | carry {id : UInt64} {c c' : Call ω σ} {s' : Shared ω} (hc : p.call? id = some c)
      (hp : c.carry? s = some (c', s')) : Step h p s (.carry id) (p.replace c') s'
  | expire {id : UInt64} {c c' : Call ω σ} {s' : Shared ω} (hc : p.call? id = some c)
      (hp : c.expire? h s = some (c', s'))
      (hw : (c.supervised && (c.withdrawn || p.allWithdrawn)) = false) :
      Step h p s (.expire id) (p.replace c') s'
  | report {id : UInt64} {c : Call ω σ} (hc : p.call? id = some c) (hs : c.stage = .reporting)
      (hroom : p.events.length < eventCapacity) :
      Step h p s (.report id)
        { p.replace { c with stage := .gone } with events := p.events ++ [id] } s
  | orphan {effect : ω → ω} {rest : List (ω → ω)} (ho : s.orphans = effect :: rest) :
      Step h p s .orphan p { s with world := effect s.world, orphans := rest }

theorem step_of_act? {id : UInt64} {act : Call ω σ → Shared ω → Option (Call ω σ × Shared ω)}
    (hp : p.act? s id act = some (p', s')) :
    ∃ c c', p.call? id = some c ∧ act c s = some (c', s') ∧ p' = p.replace c' := by
  unfold act? at hp
  split at hp
  · cases hp
  · next c hc =>
    rw [Option.map_eq_some_iff] at hp
    obtain ⟨⟨c', t⟩, hact, hp⟩ := hp
    cases hp
    exact ⟨c, c', hc, hact, rfl⟩

theorem step_of_step? {m : Move} (hp : p.step? h s m = some (p', s')) : Step h p s m p' s' := by
  cases m with
  | poll id =>
      obtain ⟨c, c', hc, hact, rfl⟩ := step_of_act? hp
      exact .poll hc hact
  | carry id =>
      obtain ⟨c, c', hc, hact, rfl⟩ := step_of_act? hp
      exact .carry hc hact
  | expire id =>
      obtain ⟨c, c', hc, hact, rfl⟩ := step_of_act? hp
      obtain ⟨hw, hact⟩ := Call.of_lapse? hact
      exact .expire hc hact hw
  | report id =>
      simp only [step?, Option.map_eq_some_iff, Prod.mk.injEq] at hp
      obtain ⟨q, hq, rfl, rfl⟩ := hp
      unfold report? at hq
      split at hq
      · cases hq
      · next c hc =>
        split at hq
        · next hs =>
          split at hq
          · next hroom =>
            cases hq
            exact .report hc hs hroom
          · cases hq
        · cases hq
  | orphan =>
      simp only [step?] at hp
      split at hp
      · cases hp
      · next effect rest ho =>
        cases hp
        exact .orphan ho

/-- A step of the call with a number: how it stood, how it stands, and what the step did. -/
theorem standing?_of_advances {id : UInt64} {c c' : Call ω σ} {b b' : Outbox}
    (hc : p.call? id = some c) (ha : Call.Advances c b c' b') :
    (p.replace c').standing? =
      Function.update p.standing? id (some (c.supervised, c'.stage)) := by
  rw [standing?_replace hc (ha.1.trans (id_of_call? hc)), ha.2.1]

theorem standing?_report {id : UInt64} {c : Call ω σ} (hc : p.call? id = some c) :
    (p.replace { c with stage := .gone }).standing? =
      Function.update p.standing? id (some (c.supervised, .gone)) := by
  have hid := id_of_call? hc
  exact standing?_replace hc (show ({ c with stage := .gone } : Call ω σ).id = id from hid)

/-- The number of the call that takes a step. -/
def Move.caller? : Move → Option UInt64
  | .poll id | .carry id | .expire id | .report id => some id
  | .orphan => none

/-- **What a call does in a step of its own.** -/
inductive Acts (h : Handler ω σ) (p : Pool ω σ) (s : Shared ω) (id : UInt64) (c : Call ω σ) :
    Move → Call ω σ → Shared ω → Prop where
  | poll {c' : Call ω σ} {s' : Shared ω} (hp : c.poll? h p.allWithdrawn s = some (c', s')) :
      Acts h p s id c (.poll id) c' s'
  | carry {c' : Call ω σ} {s' : Shared ω} (hp : c.carry? s = some (c', s')) :
      Acts h p s id c (.carry id) c' s'
  | expire {c' : Call ω σ} {s' : Shared ω} (hp : c.expire? h s = some (c', s'))
      (hw : (c.supervised && (c.withdrawn || p.allWithdrawn)) = false) :
      Acts h p s id c (.expire id) c' s'
  | report (hs : c.stage = .reporting) : Acts h p s id c (.report id) { c with stage := .gone } s

/-- **A step of the pool as one call sees it**: a step of its own, or of another, which leaves it
as it is. -/
theorem call?_of_step {m : Move} (hp : Step h p s m p' s') {id : UInt64} {c : Call ω σ}
    (hc : p.call? id = some c) :
    (p'.call? id = some c ∧ m.caller? ≠ some id) ∨
      ∃ c', p'.call? id = some c' ∧ Acts h p s id c m c' s' := by
  have replaced : ∀ {i : UInt64} {d : Call ω σ} (d' : Call ω σ), p.call? i = some d →
      d'.id = d.id → i ≠ id → (p.replace d').call? id = some c := by
    intro i d d' hd hid hi
    rw [call?_replace hd (hid.trans (id_of_call? hd)), if_neg (Ne.symm hi), hc]
  have own : ∀ {d : Call ω σ} (d' : Call ω σ), p.call? id = some d → d'.id = d.id →
      d = c ∧ (p.replace d').call? id = some d' := by
    intro d d' hd hid
    refine ⟨Option.some.inj (hd.symm.trans hc), ?_⟩
    rw [call?_replace hd (hid.trans (id_of_call? hd)), if_pos rfl]
  have other : ∀ {i : UInt64}, i ≠ id → some i ≠ some id := fun hi heq => hi (Option.some.inj heq)
  cases hp with
  | @poll i d d' _ hd hp =>
      have hid := (Call.advances_of_poll? hp).1
      by_cases hi : i = id
      · subst hi
        obtain ⟨rfl, hd'⟩ := own d' hd hid
        exact Or.inr ⟨d', hd', .poll hp⟩
      · exact Or.inl ⟨replaced d' hd hid hi, other hi⟩
  | @carry i d d' _ hd hp =>
      have hid := (Call.advances_of_carry? hp).1
      by_cases hi : i = id
      · subst hi
        obtain ⟨rfl, hd'⟩ := own d' hd hid
        exact Or.inr ⟨d', hd', .carry hp⟩
      · exact Or.inl ⟨replaced d' hd hid hi, other hi⟩
  | @expire i d d' _ hd hp hw =>
      have hid := (Call.advances_of_expire? hp).1
      by_cases hi : i = id
      · subst hi
        obtain ⟨rfl, hd'⟩ := own d' hd hid
        exact Or.inr ⟨d', hd', .expire hp hw⟩
      · exact Or.inl ⟨replaced d' hd hid hi, other hi⟩
  | @report i d hd hs hroom =>
      by_cases hi : i = id
      · subst hi
        obtain ⟨rfl, hd'⟩ := own { d with stage := .gone } hd rfl
        exact Or.inr ⟨_, hd', .report hs⟩
      · exact Or.inl ⟨replaced { d with stage := .gone } hd rfl hi, other hi⟩
  | orphan ho => exact Or.inl ⟨hc, nofun⟩

theorem Acts.caller? {id : UInt64} {c c' : Call ω σ} {m : Move} (ha : Acts h p s id c m c' s') :
    m.caller? = some id := by
  cases ha <;> rfl

theorem Acts.supervised {id : UInt64} {c c' : Call ω σ} {m : Move}
    (ha : Acts h p s id c m c' s') : c'.supervised = c.supervised := by
  cases ha with
  | poll hp => exact (Call.advances_of_poll? hp).2.1
  | carry hp => exact (Call.advances_of_carry? hp).2.1
  | expire hp hw => exact (Call.advances_of_expire? hp).2.1
  | report hs => rfl

/-- Only a call that is there takes a step. -/
theorem Step.call?_of_caller {m : Move} {id : UInt64} (hp : Step h p s m p' s')
    (hm : m.caller? = some id) : ∃ c, p.call? id = some c := by
  cases hp with
  | poll hc | carry hc | expire hc | report hc =>
      cases hm
      exact ⟨_, hc⟩
  | orphan => cases hm

/-- A closed outbox is not opened again. -/
theorem closed_of_step {m : Move} (hp : Step h p s m p' s') (hc : s.outbox.isOpen = false) :
    s'.outbox.isOpen = false := by
  cases hp with
  | poll _ hp => exact (Call.advances_of_poll? hp).2.2.closed hc
  | carry _ hp => exact (Call.advances_of_carry? hp).2.2.closed hc
  | expire _ hp => exact (Call.advances_of_expire? hp).2.2.closed hc
  | report _ _ _ => exact hc
  | orphan _ => exact hc

/-- A step leaves the calls with those who look after them. -/
theorem supervised_of_step {m : Move} (hp : Step h p s m p' s') {id : UInt64} {sup : Bool}
    {stage : CallStage ω σ} (hs : p'.standing? id = some (sup, stage)) :
    ∃ before, p.standing? id = some (sup, before) := by
  have update : ∀ {i : UInt64} {c : Call ω σ} {after : CallStage ω σ}, p.call? i = some c →
      p'.standing? = Function.update p.standing? i (some (c.supervised, after)) →
      ∃ before, p.standing? id = some (sup, before) := by
    intro i c after hc hu
    rw [hu] at hs
    by_cases hi : id = i
    · subst hi
      rw [Function.update_self] at hs
      cases hs
      exact ⟨_, standing?_of_call? hc⟩
    · rw [Function.update_of_ne hi] at hs
      exact ⟨_, hs⟩
  cases hp with
  | poll hc hp => exact update hc (standing?_of_advances hc (Call.advances_of_poll? hp))
  | carry hc hp => exact update hc (standing?_of_advances hc (Call.advances_of_carry? hp))
  | expire hc hp => exact update hc (standing?_of_advances hc (Call.advances_of_expire? hp))
  | report hc _ _ => exact update hc (standing?_report hc)
  | orphan _ => exact ⟨_, hs⟩

/-! ## One supervised call -/

/-- **How a supervised call gets on** in a step in which it tells its caller nothing. -/
inductive Passage : CallStage ω σ → CallStage ω σ → Prop where
  | still {stage : CallStage ω σ} : Passage stage stage
  | worked {stage stage' : CallStage ω σ} (hl : stage.isLive = true)
      (hs : stage'.isLive = true ∨ ∃ result, stage' = .ended result) : Passage stage stage'
  | refused {e : GatewayError} : Passage (.refused e) (.ended (.error e))
  | reported : Passage .reporting .gone

theorem Passage.isOver_eq {stage stage' : CallStage ω σ} (hp : Passage stage stage') :
    stage'.isOver = stage.isOver := by
  cases hp with
  | still => rfl
  | worked hl hs =>
      rw [CallStage.isOver_of_isLive hl]
      rcases hs with hs | ⟨result, rfl⟩
      · exact CallStage.isOver_of_isLive hs
      · rfl
  | refused => rfl
  | reported => rfl

/-- What a step of the pool puts into the outbox when it ends no call with this number. -/
def Untold (id : UInt64) (b b' : Outbox) : Prop :=
  b' = b ∨ ∃ f : Frame, f.isStatusOf id = false ∧ b.put? f = some (.ok b')

/-- The message of a call ends none. -/
theorem untold_of_message {id i : UInt64} {b b' : Outbox}
    (h : b' = b ∨ ∃ f : Frame, f.kind = .message ∧ f.callId = i ∧ b.put? f = some (.ok b')) :
    Untold id b b' := by
  rcases h with rfl | ⟨f, hk, -, hput⟩
  · exact Or.inl rfl
  · refine Or.inr ⟨f, ?_, hput⟩
    rw [Frame.isStatusOf, hk]
    rfl

/-- A call with another number ends none with this one. -/
theorem untold_of_advance {id : UInt64} {c c' : Call ω σ} {b b' : Outbox} (hne : c.id ≠ id)
    (ha : Call.Advance c b c' b') : Untold id b b' := by
  cases ha with
  | worked hl hs hb => exact untold_of_message hb
  | refused e hr hs hb => exact Or.inl hb
  | told result hr hs ht =>
      cases ht with
      | sent f hf hp =>
          refine Or.inr ⟨f, ?_, hp⟩
          rw [Frame.isStatusOf_of_status hf, decide_eq_false_iff_not]
          exact hne
      | closed f hf hc hb => exact Or.inl hb
      | tooLarge e hf hb => exact Or.inl hb

/-- **What a step of the pool means for one supervised call**: it gets on and no status with its
number is sent, or it tells its caller how it ended. -/
theorem passage_of_step {m : Move} (hp : Step h p s m p' s') {id : UInt64} {stage : CallStage ω σ}
    (hs : p.standing? id = some (true, stage)) :
    ∃ stage', p'.standing? id = some (true, stage') ∧
      ((Passage stage stage' ∧ Untold id s.outbox s'.outbox) ∨
        ∃ result, stage = .ended result ∧ stage' = .reporting ∧
          Call.Told id result s.outbox s'.outbox) := by
  -- A step of some call: it is this call or another.
  have advanced : ∀ {i : UInt64} {c c' : Call ω σ}, p.call? i = some c →
      p'.standing? = Function.update p.standing? i (some (c.supervised, c'.stage)) →
      Call.Advance c s.outbox c' s'.outbox →
      ∃ stage', p'.standing? id = some (true, stage') ∧
        ((Passage stage stage' ∧ Untold id s.outbox s'.outbox) ∨
          ∃ result, stage = .ended result ∧ stage' = .reporting ∧
            Call.Told id result s.outbox s'.outbox) := by
    intro i c c' hc hu ha
    by_cases hi : id = i
    · subst hi
      rw [standing?_of_call? hc, Option.some.injEq, Prod.mk.injEq] at hs
      obtain ⟨hsup, rfl⟩ := hs
      refine ⟨c'.stage, by rw [hu, Function.update_self, hsup], ?_⟩
      cases ha with
      | worked hl hst hb =>
          refine Or.inl ⟨.worked hl (hst.imp_right ?_), untold_of_message hb⟩
          rintro ⟨result, hr⟩
          rw [hsup] at hr
          exact ⟨result, hr⟩
      | refused e hr hst hb =>
          rw [hsup] at hst
          rw [hr, hst]
          exact Or.inl ⟨.refused, Or.inl hb⟩
      | told result hr hst ht =>
          rw [id_of_call? hc] at ht
          exact Or.inr ⟨result, hr, hst, ht⟩
    · refine ⟨stage, by rw [hu, Function.update_of_ne hi, hs], Or.inl ⟨.still, ?_⟩⟩
      have hne : c.id ≠ id := by
        rw [id_of_call? hc]
        exact Ne.symm hi
      exact untold_of_advance hne ha
  cases hp with
  | poll hc hp =>
      have ha := Call.advances_of_poll? hp
      exact advanced hc (standing?_of_advances hc ha) ha.2.2
  | carry hc hp =>
      have ha := Call.advances_of_carry? hp
      exact advanced hc (standing?_of_advances hc ha) ha.2.2
  | expire hc hp =>
      have ha := Call.advances_of_expire? hp
      exact advanced hc (standing?_of_advances hc ha) ha.2.2
  | @report i c hc hst hroom =>
      have hu := standing?_report hc
      by_cases hi : id = i
      · subst hi
        rw [standing?_of_call? hc, Option.some.injEq, Prod.mk.injEq, hst] at hs
        obtain ⟨hsup, rfl⟩ := hs
        refine ⟨.gone, ?_, Or.inl ⟨.reported, Or.inl rfl⟩⟩
        show (p.replace _).standing? id = _
        rw [hu, Function.update_self, hsup]
      · refine ⟨stage, ?_, Or.inl ⟨.still, Or.inl rfl⟩⟩
        show (p.replace _).standing? id = _
        rw [hu, Function.update_of_ne hi, hs]
  | orphan ho => exact ⟨stage, hs, Or.inl ⟨.still, Or.inl rfl⟩⟩

/-! ## Reports -/

/-- **A pool that is kept well**: one report waits for each call that is gone, and for no other. -/
structure WellKept (p : Pool ω σ) : Prop where
  nodup : p.events.Nodup
  reported : ∀ id, id ∈ p.events ↔ ∃ sup, p.standing? id = some (sup, .gone)

theorem events_feed? {id : UInt64} {m : Bytes} (hp : p.feed? id m = some p') :
    p'.events = p.events := by
  cases feeds_of_feed? hp <;> rfl

theorem events_tear (p : Pool ω σ) (t : TeardownStep) : (p.tear t).events = p.events := by
  cases t <;> rfl

namespace WellKept

theorem empty : (Pool.empty : Pool ω σ).WellKept where
  nodup := List.nodup_nil
  reported id := by
    constructor
    · nofun
    · rintro ⟨sup, hs⟩
      cases hs

theorem of_standing? (hk : p.WellKept) (hs : p'.standing? = p.standing?)
    (he : p'.events = p.events) : p'.WellKept where
  nodup := he ▸ hk.nodup
  reported id := by rw [he, hs, hk.reported]

/-- A call that is not gone may come to stand in any way but that. -/
theorem update (hk : p.WellKept) {id : UInt64} {sup : Bool} {stage : CallStage ω σ}
    (hs : p'.standing? = Function.update p.standing? id (some (sup, stage)))
    (he : p'.events = p.events) (hbefore : ∀ sup, p.standing? id ≠ some (sup, .gone))
    (hafter : stage ≠ .gone) : p'.WellKept where
  nodup := he ▸ hk.nodup
  reported i := by
    rw [he, hs, hk.reported]
    by_cases hi : i = id
    · subst hi
      rw [Function.update_self]
      constructor
      · rintro ⟨sup, hg⟩
        exact absurd hg (hbefore sup)
      · rintro ⟨sup, hg⟩
        cases hg
        exact absurd rfl hafter
    · rw [Function.update_of_ne hi]

theorem advance (hk : p.WellKept) {id : UInt64} {c c' : Call ω σ} {b b' : Outbox}
    (hc : p.call? id = some c) (ha : Call.Advances c b c' b') : (p.replace c').WellKept := by
  have hne := ha.2.2.not_gone
  refine hk.update (standing?_of_advances hc ha) rfl ?_ hne.2
  intro sup hg
  rw [standing?_of_call? hc, Option.some.injEq, Prod.mk.injEq] at hg
  exact hne.1 hg.2

theorem report (hk : p.WellKept) {id : UInt64} {c : Call ω σ} (hc : p.call? id = some c)
    (hs : c.stage = .reporting) :
    ({ p.replace { c with stage := .gone } with events := p.events ++ [id] } :
      Pool ω σ).WellKept := by
  -- The call is not gone yet, so no report of it waits.
  have hnew : id ∉ p.events := by
    rw [hk.reported, standing?_of_call? hc, hs]
    rintro ⟨sup, hg⟩
    cases hg
  constructor
  · refine List.nodup_append.2 ⟨hk.nodup, by simp, ?_⟩
    intro i hi j hj
    rw [List.mem_singleton] at hj
    rintro rfl
    exact hnew (hj ▸ hi)
  · intro i
    show i ∈ p.events ++ [id] ↔ ∃ sup, (p.replace _).standing? i = some (sup, .gone)
    rw [List.mem_append, List.mem_singleton, hk.reported, standing?_report hc]
    by_cases hi : i = id
    · subst hi
      rw [Function.update_self]
      exact ⟨fun _ => ⟨_, rfl⟩, fun _ => Or.inr rfl⟩
    · rw [Function.update_of_ne hi]
      exact ⟨fun h => h.resolve_right hi, Or.inl⟩

theorem spawn (hk : p.WellKept) {id : UInt64} {sup : Bool} {stage : CallStage ω σ}
    (hp : p.spawn id sup stage = .ok p') (hstage : stage ≠ .gone) : p'.WellKept := by
  obtain ⟨hfree, rfl⟩ := spawn_eq_ok_iff.1 hp
  refine hk.update (standing?_spawn hp) rfl ?_ hstage
  intro sup hg
  rw [contains_eq, hg] at hfree
  cases hfree

/-- A call may be forgotten together with the report of its end. -/
theorem forget (hk : p.WellKept) {id : UInt64}
    (hs : p'.standing? = Function.update p.standing? id none)
    (he : p'.events = p.events.erase id) : p'.WellKept where
  nodup := by
    rw [he]
    exact hk.nodup.erase id
  reported i := by
    rw [he, hk.nodup.mem_erase_iff, hk.reported, hs]
    by_cases hi : i = id
    · subst hi
      rw [Function.update_self]
      constructor
      · rintro ⟨hne, -⟩
        exact absurd rfl hne
      · rintro ⟨sup, hg⟩
        cases hg
    · rw [Function.update_of_ne hi]
      exact and_iff_right hi

/-- Taking notice of an end: the call was gone. -/
theorem notice (hk : p.WellKept) {id : UInt64} (hp : p.notice? = some (id, p')) :
    p'.WellKept ∧ ∃ sup, p.standing? id = some (sup, .gone) := by
  have hs := standing?_notice hp
  obtain ⟨rest, he, rfl⟩ := notice?_eq_some_iff.1 hp
  refine ⟨hk.forget hs ?_, (hk.reported id).1 (he ▸ List.mem_cons_self)⟩
  show rest = p.events.erase id
  rw [he, List.erase_cons_head]

theorem step {m : Move} (hk : p.WellKept) (hp : Step h p s m p' s') : p'.WellKept := by
  cases hp with
  | poll hc hp => exact hk.advance hc (Call.advances_of_poll? hp)
  | carry hc hp => exact hk.advance hc (Call.advances_of_carry? hp)
  | expire hc hp => exact hk.advance hc (Call.advances_of_expire? hp)
  | report hc hs hroom => exact hk.report hc hs
  | orphan ho => exact hk

end WellKept

end DeviceGateway.Pool
