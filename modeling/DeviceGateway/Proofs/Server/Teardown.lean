import DeviceGateway.Proofs.Call.PoolNumbers
import DeviceGateway.Proofs.Server.Steps

/-!
# Withdrawing all calls

When the loop leaves, it goes through the calls of the pool and withdraws each. From then on no call
comes and none goes (`numbers_of_leaving`), and every call is withdrawn or will be
(`withdraws_of_run?`). When the loop waits for the calls, all of them are withdrawn
(`withdrawn_of_joining`).
-/

namespace DeviceGateway.Connection

variable {ω σ : Type} {s : Server ω σ} {c c' d : Connection ω σ}

/-! ## States that are reached -/

/-- **A numbered state**: no two calls have the same number, and no more reports wait than there is
room for. -/
structure Ordered (c : Connection ω σ) : Prop where
  numbered : c.pool.Numbered
  room : c.pool.events.length ≤ Pool.eventCapacity

theorem ordered_start (world : ω) : (start world : Connection ω σ).Ordered :=
  ⟨List.nodup_nil, Nat.zero_le _⟩

theorem Ordered.of_pool (hc : c.Ordered) (hn : c'.pool.numbers = c.pool.numbers)
    (he : c'.pool.events = c.pool.events) : c'.Ordered := by
  refine ⟨?_, he ▸ hc.room⟩
  rw [Pool.Numbered, hn]
  exact hc.numbered

theorem Ordered.step {m : Move} (hc : c.Ordered) (hstep : Step s c m c') : c'.Ordered := by
  cases hstep with
  | halfClose => exact hc.of_pool (Pool.numbers_halfClose _ _) rfl
  | cancel => exact hc.of_pool (Pool.numbers_cancel _ _) rfl
  | feed _ hf => exact hc.of_pool (Pool.numbers_feed? hf) (Pool.events_feed? hf)
  | tear => exact hc.of_pool (Pool.numbers_tear _ _) (Pool.events_tear _ _)
  | accept _ _ _ _ hl =>
      refine ⟨hc.numbered.spawn hl, ?_⟩
      obtain ⟨-, rfl⟩ := Pool.spawn_eq_ok_iff.1 hl
      exact hc.room
  | notice _ hn =>
      refine ⟨hc.numbered.notice hn, ?_⟩
      have hroom := hc.room
      obtain ⟨rest, he, rfl⟩ := Pool.notice?_eq_some_iff.1 hn
      rw [he, List.length_cons] at hroom
      exact Nat.le_of_succ_le hroom
  | pool hp =>
      refine ⟨?_, ?_⟩
      · rw [Pool.Numbered, Pool.numbers_of_step hp]
        exact hc.numbered
      · cases hp with
        | report _ _ hroom =>
            show (c.pool.events ++ [_]).length ≤ _
            rw [List.length_append]
            exact hroom
        | _ => exact hc.room
  | _ => exact hc.of_pool rfl rfl

theorem ordered_of_run? {world : ω} {ms : List Move} (hr : (start world).run? s ms = some c) :
    c.Ordered := run?_induction Ordered.step (ordered_start world) hr

/-! ## Leaving -/

/-- The steps that are left of withdrawing all calls, once the loop leaves. -/
def stepsLeft? (c : Connection ω σ) : Option (List Pool.TeardownStep) :=
  match c.stage with
  | .withdrawing steps _ => some steps
  | .joining _ | .flushing _ | .closed _ => some []
  | .serving | .feeding .. | .rejecting _ => none

/-- A loop that does not leave now has a state in which it did not leave before. -/
theorem stepsLeft?_of_stage {stage : LoopStage} (hs : c.stage = stage) :
    c.stepsLeft? = { c with stage := stage }.stepsLeft? := by
  subst hs
  rfl

/-- **Once the loop leaves, no call comes and none goes.** -/
theorem numbers_of_leaving {m : Move} {steps : List Pool.TeardownStep}
    (hl : c.stepsLeft? = some steps) (hstep : Step s c m c') :
    c'.pool.numbers = c.pool.numbers := by
  cases hstep with
  | accept hs | notice hs =>
      rw [stepsLeft?_of_stage hs] at hl
      cases hl
  | halfClose => exact Pool.numbers_halfClose _ _
  | cancel => exact Pool.numbers_cancel _ _
  | feed _ hf => exact Pool.numbers_feed? hf
  | tear => exact Pool.numbers_tear _ _
  | pool hp => exact Pool.numbers_of_step hp
  | _ => rfl

/-- Once the loop leaves, it goes on leaving, and the steps that are left are fewer. -/
theorem stepsLeft?_of_step {m : Move} {steps : List Pool.TeardownStep}
    (hl : c.stepsLeft? = some steps) (hstep : Step s c m c') :
    ∃ done left, steps = done ++ left ∧ c'.stepsLeft? = some left := by
  have hno : ∀ {stage : LoopStage}, c.stage = stage →
      { c with stage := stage }.stepsLeft? = some steps :=
    fun hs => (stepsLeft?_of_stage hs).symm.trans hl
  cases hstep with
  | readFault hs | readEnd hs | refuse hs | duplicate hs | accept hs | message hs | halfClose hs
  | cancel hs | status hs | notice hs | heed hs | feed hs | answer hs | unheard hs => cases hno hs
  | @tear t ts result hs =>
      cases hno hs
      exact ⟨[t], ts, rfl, rfl⟩
  | torn hs | join hs | flush hs =>
      cases hno hs
      exact ⟨[], [], rfl, rfl⟩
  | _ => exact ⟨[], steps, rfl, hl⟩

/-- **Once the loop leaves**, it goes on leaving with the same calls. -/
theorem leaving_of_run? {ms : List Move} {steps : List Pool.TeardownStep}
    (hl : c.stepsLeft? = some steps) (hr : c.run? s ms = some d) :
    (∃ left, d.stepsLeft? = some left) ∧ d.pool.numbers = c.pool.numbers := by
  have keeps : ∀ {e e' : Connection ω σ} {m : Move},
      (∃ left, e.stepsLeft? = some left) ∧ e.pool.numbers = c.pool.numbers → Step s e m e' →
      (∃ left, e'.stepsLeft? = some left) ∧ e'.pool.numbers = c.pool.numbers := by
    rintro e e' m ⟨⟨left, hl⟩, hn⟩ hstep
    obtain ⟨-, left', -, hl'⟩ := stepsLeft?_of_step hl hstep
    exact ⟨⟨left', hl'⟩, (numbers_of_leaving hl hstep).trans hn⟩
  exact run?_induction keeps ⟨⟨steps, hl⟩, rfl⟩ hr

/-! ## Calls that are withdrawn -/

/-- **Every call is withdrawn or will be**, once the loop leaves. -/
def Withdraws (c : Connection ω σ) : Prop :=
  ∀ steps, c.stepsLeft? = some steps →
    ∀ call ∈ c.pool.calls, call.withdrawn = true ∨ .withdraw call.id ∈ steps

theorem withdraw_mem_teardown {p : Pool ω σ} {call : Call ω σ} (hm : call ∈ p.calls) :
    Pool.TeardownStep.withdraw call.id ∈ p.teardown :=
  List.mem_flatMap.2 ⟨call, hm, by simp⟩

theorem withdraws_leave (c : Connection ω σ) (result : Except GatewayError Unit) :
    (c.leave result).Withdraws := by
  rintro steps hl call hm
  cases hl
  exact Or.inr (withdraw_mem_teardown hm)

theorem Withdraws.of_calls (hc : c.Withdraws) (hl : c'.stepsLeft? = c.stepsLeft?)
    (hp : ∀ call' ∈ c'.pool.calls, ∃ call ∈ c.pool.calls,
      call.id = call'.id ∧ call.SameOutside call') : c'.Withdraws := by
  intro steps hs call' hm
  obtain ⟨call, hm, hid, hw, -⟩ := hp call' hm
  rw [hw, ← hid]
  exact hc steps (hl ▸ hs) call hm

theorem Withdraws.of_none (hl : c.stepsLeft? = none) : c.Withdraws := by
  intro steps hs
  rw [hl] at hs
  cases hs

/-- What one step of withdrawing all calls does to a call. -/
theorem mem_tear {p : Pool ω σ} {t : Pool.TeardownStep} {call' : Call ω σ}
    (hm : call' ∈ (p.tear t).calls) :
    ∃ call ∈ p.calls, call.id = call'.id ∧ call.stage = call'.stage ∧
      call.supervised = call'.supervised ∧
      call'.withdrawn = (call.withdrawn || t = .withdraw call.id) ∧
      call'.inbox.sending = (call.inbox.sending && !decide (t = .endMessages call.id)) := by
  cases t with
  | endMessages id =>
      obtain ⟨call, hcall, rfl⟩ := List.mem_map.1 hm
      refine ⟨call, hcall, ?_⟩
      by_cases hid : call.id = id
      · simp [hid, Inbox.endSending]
      · simp [hid, Ne.symm hid]
  | withdraw id =>
      obtain ⟨call, hcall, rfl⟩ := List.mem_map.1 hm
      refine ⟨call, hcall, ?_⟩
      by_cases hid : call.id = id
      · simp [hid]
      · simp [hid, Ne.symm hid]

theorem Withdraws.step {m : Move} (hc : c.Withdraws) (hstep : Step s c m c') : c'.Withdraws := by
  have unchanged : ∀ call' ∈ c.pool.calls, ∃ call ∈ c.pool.calls,
      call.id = call'.id ∧ call.SameOutside call' := fun call hm => ⟨call, hm, rfl, rfl, rfl⟩
  cases hstep with
  | readFault | readEnd | duplicate | heed => exact withdraws_leave _ _
  | refuse | message | feed | answer | unheard => exact .of_none rfl
  | accept hs | halfClose hs | cancel hs | status hs | notice hs =>
      exact .of_none (stepsLeft?_of_stage hs)
  | @tear t ts result hs =>
      rintro steps hl call' hm
      cases hl
      obtain ⟨call, hm, hid, -, -, hw, -⟩ := mem_tear hm
      rw [hw, ← hid]
      rcases hc _ (stepsLeft?_of_stage hs) call hm with hw | hmem
      · exact Or.inl (by rw [hw, Bool.true_or])
      · rcases List.mem_cons.1 hmem with rfl | hmem
        · exact Or.inl (by simp)
        · exact Or.inr hmem
  | torn hs | join hs | flush hs => exact hc.of_calls (stepsLeft?_of_stage hs).symm unchanged
  | pool hp => exact hc.of_calls rfl fun call' hm => Pool.mem_of_step hp hm
  | _ => exact hc.of_calls rfl unchanged

theorem withdraws_of_run? {world : ω} {ms : List Move} (hr : (start world).run? s ms = some c) :
    c.Withdraws := run?_induction Withdraws.step (.of_none rfl) hr

/-- **While the loop waits for the calls to end, all of them are withdrawn.** -/
theorem withdrawn_of_joining {result : Except GatewayError Unit} (hc : c.Withdraws)
    (hs : c.stage = .joining result) : ∀ call ∈ c.pool.calls, call.withdrawn = true := by
  intro call hm
  exact (hc [] (stepsLeft?_of_stage hs) call hm).resolve_right List.not_mem_nil

end DeviceGateway.Connection
