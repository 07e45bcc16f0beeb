import DeviceGateway.Loopback.ServerSession
import DeviceGateway.Proofs.Frame.Stream
import DeviceGateway.Proofs.Gateway.Accepting
import DeviceGateway.Proofs.Server.Statuses

/-!
# What a caller hears of the end of its call

A call that is accepted tells its caller how it ended, with one status, as long as the status fits
a frame (`one_status_if_it_fits`). A status that does not fit is not sent, and then the caller hears
nothing at all. A caller can bring this about: the name of a service that does not exist comes back
in the wording of the error, and a request has room for a name that a status has no room for
(`silent_end_of_long_name`).
-/

namespace DeviceGateway.Connection

variable {ω σ : Type} {s : Server ω σ} {c c' d : Connection ω σ} {id : UInt64}

/-! ## Runs to the end of a call -/

/-- **The task of a call ends with the last step of a run.** -/
structure EndsTask (s : Server ω σ) (c : Connection ω σ) (id : UInt64) (ms : List Move)
    (d : Connection ω σ) : Prop where
  run : c.run? s ms = some d
  ended : d.isOver id = true
  first : ∀ e ∈ c.visited s ms.dropLast, e.isOver id = false

/-- What holds in the first state and is kept, as long as something else holds, holds in all. -/
theorem of_visited {P Q : Connection ω σ → Prop}
    (keeps : ∀ {c c' m}, P c → Step s c m c' → Q c' → P c') {ms : List Move} (hc : P c)
    (hq : ∀ e ∈ c.visited s ms, Q e) : ∀ e ∈ c.visited s ms, P e := by
  induction ms generalizing c with
  | nil =>
      intro e he
      rw [visited, List.mem_singleton] at he
      rwa [he]
  | cons m ms ih =>
      cases hm : c.step? s m with
      | none =>
          intro e he
          rw [visited, hm, List.mem_singleton] at he
          rwa [he]
      | some c' =>
          rw [visited_cons hm] at hq ⊢
          have hlater : ∀ e ∈ c'.visited s ms, Q e := fun e he => hq e (List.mem_cons_of_mem _ he)
          have hc' := keeps hc (step_of_step? hm) (hlater c' (mem_visited_self c' ms))
          intro e he
          rcases List.mem_cons.1 he with rfl | he
          · exact hc
          · exact ih hc' hlater e he

/-- Until its task is over, a call stays in the pool. -/
theorem EndsTask.contains {ms : List Move} (hend : EndsTask s c id ms d) (hc : c.Sound)
    (hin : c.pool.contains id = true) : ∀ e ∈ c.visited s ms, e.pool.contains id = true := by
  obtain ⟨hr, -, hfirst⟩ := hend
  induction ms generalizing c with
  | nil =>
      intro e he
      rw [visited, List.mem_singleton] at he
      rwa [he]
  | cons m ms ih =>
      obtain ⟨c', hm, hr⟩ := run?_cons.1 hr
      have hstep := step_of_step? hm
      -- The task is not over before the last step, so no step takes the call away.
      have hin' := contains_of_step hc hstep hin (hfirst c (mem_visited_self c _))
      rw [visited_cons hm]
      intro e he
      rcases List.mem_cons.1 he with rfl | he
      · exact hin
      · cases ms with
        | nil =>
            rw [visited, List.mem_singleton] at he
            rwa [he]
        | cons m' ms =>
            refine ih (hc.step hstep) hin' hr (fun k hk => hfirst k ?_) e he
            rw [List.dropLast_cons_cons, visited_cons hm]
            exact List.mem_cons_of_mem _ hk

/-! ## Calls without a handler -/

/-- A stage from which a call comes to this error and to nothing else. -/
def Doomed (e : GatewayError) (stage : CallStage ω σ) : Prop :=
  stage = .refused e ∨ stage = .ended (.error e) ∨ stage.isOver = true

theorem Turn.doomed {m : Move} {e : GatewayError} {stage stage' : CallStage ω σ}
    (ht : Turn s id c m c' stage stage') (hd : Doomed e stage) : Doomed e stage' := by
  cases ht with
  | quiet hp =>
      have hover := hp.isOver_eq
      cases hp with
      | still => exact hd
      | worked hl hs =>
          rcases hd with rfl | rfl | ho
          · cases hl
          · cases hl
          · exact Or.inr (Or.inr (hover.trans ho))
      | refused =>
          rcases hd with he | he | ho
          · cases he
            exact Or.inr (Or.inl rfl)
          · cases he
          · cases ho
      | reported => exact Or.inr (Or.inr rfl)
  | refused | answered | unheard => exact hd
  | told => exact Or.inr (Or.inr rfl)

/-- **A call without a handler ends with the error for which it has none.** -/
theorem result_of_refused {ms : List Move} {e : GatewayError} {result : Except GatewayError Unit}
    (hs : c.pool.standing? id = some (true, .refused e))
    (hin : ∀ k ∈ c.visited s ms, k.pool.contains id = true)
    (hend : ∃ k ∈ c.visited s ms, k.pool.standing? id = some (true, .ended result)) :
    result = .error e := by
  -- What the call may come to is fixed from the start, so that is what every step keeps.
  have keeps : ∀ {c c' : Connection ω σ} {m : Move},
      (∃ stage, c.pool.standing? id = some (true, stage) ∧ Doomed e stage) → Step s c m c' →
      c'.pool.contains id = true →
      ∃ stage, c'.pool.standing? id = some (true, stage) ∧ Doomed e stage := by
    rintro c c' m ⟨stage, hs, hd⟩ hstep hin
    obtain ⟨stage', hs', ht⟩ := turn_of_step hstep hs hin
    exact ⟨stage', hs', ht.doomed hd⟩
  obtain ⟨k, hk, hended⟩ := hend
  obtain ⟨stage, hs', hd⟩ := of_visited keeps ⟨_, hs, Or.inl rfl⟩ hin k hk
  rw [hended] at hs'
  cases hs'
  rcases hd with h | h | h
  · cases h
  · cases h
    rfl
  · cases h

/-! ## Two steps to the end -/

/-- A result is told at once if the outbox is open and has room. -/
theorem tell?_of_room (call : Call ω σ) {shared : Shared ω} (result : Except GatewayError Unit)
    (ho : shared.outbox.isOpen = true)
    (hroom : shared.outbox.queue.length < shared.outbox.capacity) :
    ∃ outbox, call.tell? shared result =
      some ({ call with stage := .reporting }, { shared with outbox }) ∧ outbox.isOpen = true := by
  unfold Call.tell?
  cases Frame.status call.id (Status.ofResult result) with
  | error e => exact ⟨shared.outbox, rfl, ho⟩
  | ok f =>
      have hput : shared.outbox.put? f = _ := Outbox.put?_eq_ok_iff.2 ⟨ho, hroom, rfl⟩
      simp only [hput]
      exact ⟨_, rfl, ho⟩

/-- **A call without a handler may come to its end in two steps**, in which nothing is read. -/
theorem endsTask_of_refused {e : GatewayError}
    (hs : c.pool.standing? id = some (true, .refused e)) (ho : c.shared.outbox.isOpen = true)
    (hroom : c.shared.outbox.queue.length < c.shared.outbox.capacity) :
    let ms : List Move := [.pool (.poll id), .pool (.poll id)]
    ∃ d, EndsTask s c id ms d ∧ d.shared.outbox.isOpen = true ∧ c.framesRead s ms = [] := by
  intro ms
  obtain ⟨call, hcall, hstands⟩ := Option.map_eq_some_iff.1 hs
  rw [Prod.mk.injEq] at hstands
  obtain ⟨hsup, hst⟩ := hstands
  have hid := Pool.id_of_call? hcall
  have hid1 : (call.conclude (.error e)).id = id := hid
  -- The handler that is not there is done, and then the caller is told.
  have h1 : c.step? s (.pool (.poll id)) = _ := poll_refused hcall hst
  have hcall1 : (c.pool.replace (call.conclude (.error e))).call? id =
      some (call.conclude (.error e)) := by
    rw [Pool.call?_replace hcall hid1, if_pos rfl]
  have hst1 := Call.stage_conclude hsup (.error e)
  obtain ⟨outbox, htell, hopen⟩ :=
    tell?_of_room (call.conclude (.error e)) (.error e) ho hroom
  have h2 : ({ c with pool := c.pool.replace (call.conclude (.error e)) } :
      Connection ω σ).step? s (.pool (.poll id)) = _ := poll_ended hcall1 hst1 htell
  refine ⟨_, ⟨run?_cons.2 ⟨_, h1, run?_cons.2 ⟨_, h2, rfl⟩⟩, ?_, ?_⟩, hopen, ?_⟩
  · rw [isOver, Pool.standing?_replace hcall1 (show Call.id { call.conclude (.error e) with
      stage := .reporting } = id from hid), Function.update_self]
    rfl
  · show ∀ k ∈ c.visited s [.pool (.poll id)], k.isOver id = false
    rw [visited_cons h1]
    intro k hk
    rcases List.mem_cons.1 hk with rfl | hk
    · rw [isOver, hs]
      rfl
    · rw [visited, List.mem_singleton] at hk
      rw [hk, isOver, Pool.standing?_of_call? hcall1, hst1]
      rfl
  · rw [framesRead_cons h1, framesRead_cons h2]
    rfl

/-! ## The status of a call -/

/-- What is known of the statuses of a call when its task has ended and the outbox is open. -/
theorem statuses_at_end {ms : List Move} {stage : CallStage ω σ} (hc : c.Sound)
    (hserving : c.stage = .serving) (hs : c.pool.standing? id = some (true, stage))
    (hnot : stage.isOver = false) (hend : EndsTask s c id ms d)
    (hopen : d.shared.outbox.isOpen = true) :
    ∃ result,
      (∃ e ∈ c.visited s ms, e.pool.standing? id = some (true, .ended result)) ∧
      (∀ e, stage = .refused e → result = .error e) ∧
      statuses id (c.framesQueued s ms) + d.refusing id =
        malformedCalls id (c.framesRead s ms) + (Status.ofResult result).fits.toNat ∧
      (malformedCalls id (c.framesRead s ms) = 0 →
        statuses id (c.framesQueued s ms) = (Status.ofResult result).fits.toNat) := by
  have hin := hend.contains hc (by
    rw [Pool.contains_eq, hs]
    rfl)
  have hzero : c.refusing id = 0 := refusing_of_serving hserving
  obtain ⟨stage', hs', hbal⟩ := balance_of_run hend.run hs hin
  have hover : stage'.isOver = true := by
    have := hend.ended
    rwa [isOver, hs'] at this
  have hwaiting := hbal.waiting
  rcases hbal.exact hopen with ⟨hsame, -⟩ | ⟨-, -, result, hmet, heq⟩
  · rw [hover, hnot] at hsame
    cases hsame
  · refine ⟨result, hmet, ?_, by omega, fun _ => by omega⟩
    rintro e rfl
    exact result_of_refused hs hin hmet

/-- **A call that is accepted ends with one status, if the status fits a frame**: in every state
that is reached, whatever the request, and in every run to the end of the call after which the
outbox is open. A request without a handler ends with the error for which it has none. Any further
status under the same number answers a malformed request that came under it. -/
theorem one_status_if_it_fits (s : Server ω σ) (world : ω) {before : List Move}
    (hreach : (start world).run? s before = some c) {f : Frame} {rest : Bytes} {r : CallRequest}
    (hread : c.Reads s f rest) (hk : f.kind = .call)
    (hp : (Payload.ofBytes f.payload : Except GatewayError CallRequest) = .ok r)
    (hfree : c.pool.contains f.callId = false) :
    ∃ c', c.step? s .read = some c' ∧
      c'.pool.standing? f.callId = some (true, .opening (s.accept r)) ∧
      ∀ ms d, EndsTask s c' f.callId ms d → d.shared.outbox.isOpen = true →
        ∃ result,
          (∃ e ∈ c'.visited s ms, e.pool.standing? f.callId = some (true, .ended result)) ∧
          (∀ e, s.accept r = .error e → result = .error e) ∧
          statuses f.callId (c'.framesQueued s ms) + d.refusing f.callId =
            malformedCalls f.callId (c'.framesRead s ms) +
              (Status.ofResult result).fits.toNat ∧
          (malformedCalls f.callId (c'.framesRead s ms) = 0 →
            statuses f.callId (c'.framesQueued s ms) = (Status.ofResult result).fits.toNat) := by
  obtain ⟨pool, hspawn, hstep⟩ := step?_accept hread hk hp hfree
  have hs : pool.standing? f.callId = some (true, .opening (s.accept r)) := by
    rw [Pool.standing?_spawn hspawn, Function.update_self]
  have hsound := (sound_of_run? hreach).step (step_of_step? hstep)
  have hnot : (CallStage.opening (s.accept r)).isOver = false := by
    cases s.accept r <;> rfl
  refine ⟨_, hstep, hs, fun ms d hend hopen => ?_⟩
  obtain ⟨result, hmet, hresult, hcount⟩ :=
    statuses_at_end hsound hread.serving hs hnot hend hopen
  refine ⟨result, hmet, fun e he => hresult e ?_, hcount⟩
  rw [he]
  rfl

/-- A request without a handler, for which the caller gets its one status. -/
theorem one_status_for_cancelled_request :
    let s : Server Unit Unit :=
      ⟨⟨fun _ => 0, rfl⟩, ⟨fun _ => .finish (.ok ()), fun _ w => w⟩, fun _ => .error .cancelled⟩
    let f : Frame := ⟨.call, 1, Payload.toBytes (⟨"", "", []⟩ : CallRequest), by decide⟩
    let c : Connection Unit Unit := arrived () (f.toBytes s.checksum)
    let ms : List Move := [.pool (.poll 1), .pool (.poll 1)]
    ∃ c' d, c.step? s .read = some c' ∧ EndsTask s c' 1 ms d ∧ d.shared.outbox.isOpen = true ∧
      statuses 1 (c'.framesQueued s ms) = 1 := by
  intro s f c ms
  have hread : c.Reads s f [] := reads_last rfl rfl
  have hp : (Payload.ofBytes f.payload : Except GatewayError CallRequest) = .ok ⟨"", "", []⟩ :=
    CallRequest.ofBytes_toBytes (by decide)
  obtain ⟨c', hstep, hs, hall⟩ :=
    one_status_if_it_fits s () (run?_arrive () _) hread rfl hp rfl
  obtain ⟨pool, hspawn, haccept⟩ := step?_accept hread rfl hp rfl
  cases hstep.symm.trans haccept
  obtain ⟨d, hend, hopen, hnone⟩ :=
    endsTask_of_refused (s := s) hs rfl (show 0 < outboxCapacity by decide)
  obtain ⟨result, -, hresult, -, hone⟩ := hall ms d hend hopen
  refine ⟨_, d, hstep, hend, hopen, ?_⟩
  rw [hresult _ rfl] at hone
  exact hone (by rw [hnone]; rfl)

/-! ## Calls that end silently -/

/-- **A service that does not exist, with a name that a status has no room for**: whatever the
gateway and its disk, the caller may hear nothing of the end of its call. -/
theorem silent_end_of_unknown_service (g : Gateway) (world : GatewayWorld) {f : Frame}
    {r : CallRequest} (hk : f.kind = .call)
    (hp : (Payload.ofBytes f.payload : Except GatewayError CallRequest) = .ok r)
    (hunknown : ∀ group ∈ ServiceGroup.all, group.name ≠ r.service)
    (hlong : (Status.ofError (.notFound ("service " ++ r.service))).fits = false) :
    let ms : List Move := [.pool (.poll f.callId), .pool (.poll f.callId)]
    ∃ c c' d, (start world).run? g.server [.arrive (f.toBytes g.server.checksum)] = some c ∧
      c.Reads g.server f [] ∧ c.pool.contains f.callId = false ∧
      c.step? g.server .read = some c' ∧ EndsTask g.server c' f.callId ms d ∧
      d.shared.outbox.isOpen = true ∧ statuses f.callId (c'.framesQueued g.server ms) = 0 := by
  intro ms
  have hread : (arrived world (f.toBytes g.server.checksum)).Reads g.server f [] :=
    reads_last rfl rfl
  obtain ⟨pool, hspawn, hstep⟩ := step?_accept hread hk hp rfl
  have hs : pool.standing? f.callId =
      some (true, .refused (.notFound ("service " ++ r.service))) := by
    rw [Pool.standing?_spawn hspawn, Function.update_self]
    show some (true, CallStage.opening (g.accept r)) = _
    rw [g.accept_of_unknown hunknown]
    rfl
  obtain ⟨d, hend, hopen, hnone⟩ :=
    endsTask_of_refused (s := g.server)
      (c := { arrived world (f.toBytes g.server.checksum) with unread := [], pool }) hs rfl
      (show 0 < outboxCapacity by decide)
  obtain ⟨result, -, hresult, -, hcount⟩ :=
    statuses_at_end ((sound_arrived world _).step (step_of_step? hstep)) rfl hs rfl hend hopen
  refine ⟨_, _, d, rfl, hread, rfl, hstep, hend, hopen, ?_⟩
  rw [hresult _ rfl] at hcount
  refine (hcount (by rw [hnone]; rfl)).trans ?_
  show (Status.ofError _).fits.toNat = 0
  rw [hlong]
  rfl

/-- A request that just fits a frame, for a service with a name of more than a million letters. -/
theorem silent_end_of_long_name :
    let g : Gateway := ⟨"/media", ⟨"/staging", "/install", "1"⟩, fun _ _ _ => none, ⟨0⟩⟩
    let world : GatewayWorld := ⟨⟨[], [], [], 0⟩, .new⟩
    let r : CallRequest := ⟨String.ofList (List.replicate 1048552 'a'), "", []⟩
    let ms : List Move := [.pool (.poll 1), .pool (.poll 1)]
    ∃ f c c' d, f.kind = .call ∧ f.callId = 1 ∧ f.payload = Payload.toBytes r ∧
      (Payload.ofBytes f.payload : Except GatewayError CallRequest) = .ok r ∧
      (start world).run? g.server [.arrive (f.toBytes g.server.checksum)] = some c ∧
      c.Reads g.server f [] ∧ c.pool.contains 1 = false ∧ c.step? g.server .read = some c' ∧
      EndsTask g.server c' 1 ms d ∧ d.shared.outbox.isOpen = true ∧
      statuses 1 (c'.framesQueued g.server ms) = 0 := by
  intro g world r ms
  have hname : (Text.Utf8.encode r.service).length = 1048552 :=
    Text.Utf8.length_encode_replicate 1048552 'a'
  have hlen : (Payload.toBytes r).length = 1048576 := by
    rw [CallRequest.length_toBytes, hname]
    rfl
  have hp : (Payload.ofBytes (Payload.toBytes r) : Except GatewayError CallRequest) = .ok r :=
    CallRequest.ofBytes_toBytes (by rw [hlen]; decide)
  have hunknown : ∀ group ∈ ServiceGroup.all, group.name ≠ r.service := by
    intro group _ h
    have hletters := congrArg String.length h
    rw [String.length_ofList, List.length_replicate] at hletters
    cases group
    all_goals
      revert hletters
      decide
  have hlong : (Status.ofError (.notFound ("service " ++ r.service))).fits = false := by
    have hwords : (Text.Utf8.encode ("not found: " ++ ("service " ++ r.service))).length =
        11 + (8 + 1048552) := by
      rw [Text.Utf8.encode_append, List.length_append, Text.Utf8.encode_append,
        List.length_append, hname]
      rfl
    have hmessage : (Status.ofError (.notFound ("service " ++ r.service))).message =
      "not found: " ++ ("service " ++ r.service) := rfl
    rw [Status.fits, hmessage, hwords]
    decide
  let f : Frame := ⟨.call, 1, Payload.toBytes r, Nat.le_of_eq hlen⟩
  obtain ⟨c, c', d, hrun, hread, hfree, hstep, hend, hopen, hnone⟩ :=
    silent_end_of_unknown_service g world (f := f) rfl hp hunknown hlong
  exact ⟨f, c, c', d, rfl, rfl, rfl, hp, hrun, hread, hfree, hstep, hend, hopen, hnone⟩

end DeviceGateway.Connection
