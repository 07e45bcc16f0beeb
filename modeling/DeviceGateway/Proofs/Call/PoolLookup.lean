import DeviceGateway.Proofs.Call.PoolNumbers

/-!
# Looking up a call

What becomes of the call with a number in each operation of a pool: handing over messages, ending
them, withdrawing, accepting and forgetting concern one call and leave all others as they are. A
call whose handler is done takes no more messages, and no step changes that (`Deaf.step`).
-/

namespace DeviceGateway

namespace Pool

variable {ω σ : Type} {h : Handler ω σ} {p p' : Pool ω σ} {s s' : Shared ω} {id : UInt64}

theorem call?_modify (p : Pool ω σ) (id : UInt64) {f : Call ω σ → Call ω σ}
    (hf : ∀ c, (f c).id = c.id) (i : UInt64) :
    (p.modify id f).call? i = if i = id then (p.call? i).map f else p.call? i := by
  have hg : ∀ c : Call ω σ, (if c.id = id then f c else c).id = c.id := by
    intro c
    split
    · exact hf c
    · rfl
  rw [call?_map hg rfl]
  cases hc : p.call? i with
  | none => split <;> rfl
  | some c =>
      rw [Option.map_some, id_of_call? hc]
      split <;> rfl

theorem call?_halfClose (p : Pool ω σ) (id i : UInt64) :
    (p.halfClose id).call? i =
      if i = id then (p.call? i).map fun c => { c with inbox := c.inbox.endSending }
      else p.call? i := by
  refine call?_modify p id ?_ i
  exact fun _ => rfl

theorem call?_cancel (p : Pool ω σ) (id i : UInt64) :
    (p.cancel id).call? i =
      if i = id then (p.call? i).map fun c => { c with withdrawn := true } else p.call? i := by
  refine call?_modify p id ?_ i
  exact fun _ => rfl

theorem call?_spawn {sup : Bool} {stage : CallStage ω σ} (hp : p.spawn id sup stage = .ok p')
    (i : UInt64) : p'.call? i = if i = id then some (.start id sup stage) else p.call? i := by
  obtain ⟨hfree, rfl⟩ := spawn_eq_ok_iff.1 hp
  have hnone : p.call? id = none := by
    rwa [contains, Option.isSome_eq_false_iff, Option.isNone_iff_eq_none] at hfree
  rw [call?, List.find?_append]
  split
  · next hi =>
    subst hi
    rw [call?] at hnone
    rw [hnone]
    simp [Call.start]
  · next hi =>
    rw [show p.calls.find? (·.id == i) = p.call? i from rfl]
    simp [Call.start, Ne.symm hi]

theorem call?_processEnd (p : Pool ω σ) (id i : UInt64) :
    (p.processEnd id).call? i = if i = id then none else p.call? i := by
  rw [call?, processEnd, List.find?_filter, call?]
  split
  · next hi =>
    subst hi
    simp
  · next hi =>
    congr 1
    funext c
    by_cases hc : c.id = i
    · simp [hc, hi]
    · simp [hc]

theorem call?_notice (hp : p.notice? = some (id, p')) (i : UInt64) :
    p'.call? i = if i = id then none else p.call? i := by
  obtain ⟨rest, -, rfl⟩ := notice?_eq_some_iff.1 hp
  exact call?_processEnd _ id i

/-- **A message is handed over** to the call that it is for, if there is one. -/
theorem call?_feed? {m : Bytes} (hp : p.feed? id m = some p') (i : UInt64) :
    (i ≠ id → p'.call? i = p.call? i) ∧
      (p.call? id = none → p'.call? id = none) ∧
      ∀ c, p.call? id = some c → ∃ inbox, c.inbox.put? m = some inbox ∧
        p'.call? id = some { c with inbox } := by
  cases feeds_of_feed? hp with
  | unknown hc => exact ⟨fun _ => rfl, fun _ => hc, fun c hsome => (by cases hc.symm.trans hsome)⟩
  | @taken c inbox hc hput =>
      have hid := id_of_call? hc
      have hget := call?_replace hc (show ({ c with inbox } : Call ω σ).id = id from hid)
      refine ⟨fun hi => ?_, fun hnone => (by cases hc.symm.trans hnone), fun d hd => ?_⟩
      · rw [hget, if_neg hi]
      · cases hc.symm.trans hd
        exact ⟨inbox, hput, by rw [hget, if_pos rfl]⟩

theorem allWithdrawn_feed? {m : Bytes} (hp : p.feed? id m = some p') :
    p'.allWithdrawn = p.allWithdrawn := by
  cases feeds_of_feed? hp <;> rfl

/-- No step brings a call that is not there. -/
theorem call?_none_of_step {m : Move} (hp : Step h p s m p' s') (hc : p.call? id = none) :
    p'.call? id = none := by
  have hnot : ¬ p.contains id = true := by
    rw [contains, hc]
    exact Bool.false_ne_true
  rw [← mem_numbers_iff, ← numbers_of_step hp, mem_numbers_iff, contains] at hnot
  exact Option.isNone_iff_eq_none.1 (Option.isSome_eq_false_iff.1 (eq_false_of_ne_true hnot))

end Pool

/-! ## Calls that are done -/

namespace CallStage

variable {ω σ : Type}

/-- Whether the handler is done. -/
def isDone : CallStage ω σ → Bool
  | ended _ | reporting | gone => true
  | starting _ | refused _ | awaiting _ | handed .. | carried .. => false

theorem isDone_of_isLive {stage : CallStage ω σ} (h : stage.isLive = true) :
    stage.isDone = false := by
  cases stage with
  | starting | awaiting | handed | carried => rfl
  | refused | ended | reporting | gone => cases h

theorem isDone_of_isOver {stage : CallStage ω σ} (h : stage.isOver = true) :
    stage.isDone = true := by
  cases stage with
  | reporting | gone => rfl
  | starting | refused | awaiting | handed | carried | ended => cases h

end CallStage

namespace Call

variable {ω σ : Type} {h : Handler ω σ} {c c' : Call ω σ} {s s' : Shared ω}

/-- **A call whose handler is done takes no more messages.** -/
def Deaf (c : Call ω σ) : Prop := c.stage.isDone = true → c.inbox.reading = false

theorem deaf_conclude (c : Call ω σ) (result : Except GatewayError Unit) :
    (c.conclude result).Deaf := fun _ => rfl

theorem deaf_of_live (hl : c.stage.isDone = false) : c.Deaf := by
  intro hd
  rw [hl] at hd
  cases hd

theorem Rests.deaf (hr : Rests h c s c' s') : c'.Deaf := by
  cases hr with
  | waiting hlive => exact deaf_of_live (CallStage.isDone_of_isLive hlive)
  | done => exact deaf_conclude c _

theorem Deaf.poll? (hd : c.Deaf) {allWithdrawn : Bool}
    (hp : c.poll? h allWithdrawn s = some (c', s')) : c'.Deaf := by
  cases polls_of_poll? hp with
  | dropped | finished | refused => exact deaf_conclude c _
  | resumed _ _ hr => exact (rests_of_resume hr).deaf
  | told hst =>
      have hreading := hd (by rw [hst]; rfl)
      exact fun _ => hreading

theorem deaf_of_carry? (hc : c.carry? s = some (c', s')) : c'.Deaf := by
  obtain ⟨effect, release, next, -, rfl, -⟩ := carry?_eq_some_iff.1 hc
  exact deaf_of_live rfl

theorem deaf_of_expire? (hc : c.expire? h s = some (c', s')) : c'.Deaf := by
  obtain ⟨state, limit, next, -, -, hr⟩ := expire?_eq_some_iff.1 hc
  exact (rests_of_resume hr).deaf

end Call

namespace Pool

variable {ω σ : Type} {h : Handler ω σ} {p p' : Pool ω σ} {s s' : Shared ω}

/-- **No call of a pool takes messages when its handler is done.** -/
def Deaf (p : Pool ω σ) : Prop := ∀ id c, p.call? id = some c → c.Deaf

/-- Operations that leave the stages alone, and who reads. -/
theorem Deaf.of_calls (hd : p.Deaf)
    (hp : ∀ {id c'}, p'.call? id = some c' → ∃ c, p.call? id = some c ∧ c'.stage = c.stage ∧
      c'.inbox.reading = c.inbox.reading) : p'.Deaf := by
  intro id c' hc' hdone
  obtain ⟨c, hc, hs, hr⟩ := hp hc'
  rw [hr]
  exact hd id c hc (hs ▸ hdone)

theorem Deaf.modify (hd : p.Deaf) (id : UInt64) {f : Call ω σ → Call ω σ}
    (hf : ∀ c, (f c).id = c.id) (hs : ∀ c, (f c).stage = c.stage)
    (hr : ∀ c, (f c).inbox.reading = c.inbox.reading) : (p.modify id f).Deaf := by
  refine hd.of_calls fun {i c'} hc' => ?_
  rw [call?_modify p id hf] at hc'
  split at hc'
  · obtain ⟨c, hc, rfl⟩ := Option.map_eq_some_iff.1 hc'
    exact ⟨c, hc, hs c, hr c⟩
  · exact ⟨c', hc', rfl, rfl⟩

theorem Deaf.feed? (hd : p.Deaf) {id : UInt64} {m : Bytes} (hp : p.feed? id m = some p') :
    p'.Deaf := by
  refine hd.of_calls fun {i c'} hc' => ?_
  obtain ⟨hother, hnone, hsome⟩ := call?_feed? hp i
  by_cases hi : i = id
  · subst hi
    cases hc : p.call? i with
    | none =>
        rw [hnone hc] at hc'
        cases hc'
    | some c =>
        obtain ⟨inbox, hput, hc''⟩ := hsome c hc
        rw [hc''] at hc'
        cases hc'
        exact ⟨c, rfl, rfl, Inbox.reading_put? hput⟩
  · rw [hother hi] at hc'
    exact ⟨c', hc', rfl, rfl⟩

theorem Deaf.step (hd : p.Deaf) {m : Move} (hp : Step h p s m p' s') : p'.Deaf := by
  intro id c' hc'
  cases hc : p.call? id with
  | none =>
      rw [call?_none_of_step hp hc] at hc'
      cases hc'
  | some c =>
      rcases call?_of_step hp hc with ⟨hsame, -⟩ | ⟨d, hnew, hacts⟩
      · rw [hsame] at hc'
        cases hc'
        exact hd id c' hc
      · rw [hnew] at hc'
        cases hc'
        cases hacts with
        | poll hp => exact (hd id c hc).poll? hp
        | carry hp => exact Call.deaf_of_carry? hp
        | expire hp => exact Call.deaf_of_expire? hp
        | report hs =>
            have hdone : c.stage.isDone = true := by
              rw [hs]
              rfl
            have hdeaf := hd id c hc hdone
            exact fun _ => hdeaf

end Pool

end DeviceGateway
