import DeviceGateway.Proofs.Server.CallEnds

/-!
# Numbers that are in use

A frame that would open a call under the number of a call in flight breaks the rules, and the loop
leaves with an error and sends nothing. But it finds this out only when it has read the request: a
request that does not decode is refused with a status first, whatever its number
(`live_number_guarded_if_decodes`). So a call in flight may be answered by a frame that is not its
own, and two statuses may come under one number (`two_statuses_under_one_number`).
-/

namespace DeviceGateway.Connection

variable {ω σ : Type} {s : Server ω σ} {c c' d : Connection ω σ} {id : UInt64}

/-- The loop leaves over a number that is in use. -/
def duplicateNumber (id : UInt64) : Except GatewayError Unit :=
  .error (.protocol s!"duplicate call id {id.toNat}")

/-- **The loop reads a frame and leaves over its number**: nothing is sent, no call is touched, and
whatever happens later, the loop keeps the error. -/
def LeavesOver (s : Server ω σ) (c : Connection ω σ) (f : Frame) : Prop :=
  ∃ c', c.step? s .read = some c' ∧ c'.pool = c.pool ∧ c'.shared = c.shared ∧
    c.queuedBy c' = [] ∧ ∀ ms d, c'.run? s ms = some d →
      d.leaving? = some (duplicateNumber f.callId)

/-- **The loop reads a frame and answers it**: it does not leave, and if there is room in the
outbox, it puts in a status with the number of the frame and reads on. -/
def Answers (s : Server ω σ) (c : Connection ω σ) (f : Frame) : Prop :=
  ∃ c', c.step? s .read = some c' ∧ c'.pool = c.pool ∧ c'.leaving? = none ∧
    (c.shared.outbox.isOpen = true → c.shared.outbox.queue.length < c.shared.outbox.capacity →
      ∃ g d, g.isStatusOf f.callId = true ∧ c'.step? s .proceed = some d ∧ d.pool = c.pool ∧
        d.stage = .serving ∧ c'.queuedBy d = [g])

/-- **The loop reads a frame and accepts a call**, under whose number, as long as the call is in the
pool, there come no more statuses than malformed requests and, when its task is over, one more. If
the outbox is still open, there come no fewer, apart from that one. -/
def Accepts (s : Server ω σ) (c : Connection ω σ) (f : Frame) : Prop :=
  ∃ c', c.step? s .read = some c' ∧ c'.pool.contains f.callId = true ∧
    ∀ ms d, c'.run? s ms = some d →
      (∀ e ∈ c'.visited s ms, e.pool.contains f.callId = true) →
      statuses f.callId (c'.framesQueued s ms) + d.refusing f.callId ≤
        malformedCalls f.callId (c'.framesRead s ms) + (d.isOver f.callId).toNat ∧
      (d.shared.outbox.isOpen = true → ∃ told ≤ (d.isOver f.callId).toNat,
        statuses f.callId (c'.framesQueued s ms) + d.refusing f.callId =
          malformedCalls f.callId (c'.framesRead s ms) + told)

section

variable {f : Frame} {rest : Bytes} {r : CallRequest}

/-- A request that decodes, under a number that is in use. -/
theorem leavesOver_of_ok (hread : c.Reads s f rest) (hk : f.kind = .call)
    (hp : (Payload.ofBytes f.payload : Except GatewayError CallRequest) = .ok r)
    (hlive : c.pool.contains f.callId = true) : c.LeavesOver s f := by
  refine ⟨_, step?_duplicate hread hk hp hlive, rfl, rfl, List.drop_length, ?_⟩
  intro ms d hr
  exact leaving?_of_run? rfl hr

/-- A request that does not decode is refused, and with room in the outbox answered. -/
theorem answered_of_error {e : GatewayError} (hread : c.Reads s f rest) (hk : f.kind = .call)
    (hp : (Payload.ofBytes f.payload : Except GatewayError CallRequest) = .error e)
    (ho : c.shared.outbox.isOpen = true)
    (hroom : c.shared.outbox.queue.length < c.shared.outbox.capacity) :
    ∃ g c' d, g.isStatusOf f.callId = true ∧ c.step? s .read = some c' ∧ c'.pool = c.pool ∧
      c.queuedBy c' = [] ∧ c'.step? s .proceed = some d ∧ d.pool = c.pool ∧ d.stage = .serving ∧
      c'.queuedBy d = [g] ∧
      d.shared.outbox = { c.shared.outbox with queue := c.shared.outbox.queue ++ [g] } := by
  obtain ⟨g, hg, hstep⟩ := step?_refuse hread hk hp
  have hstatus : g.isStatusOf f.callId = true := by
    rw [Frame.isStatusOf_of_status hg]
    exact decide_eq_true rfl
  refine ⟨g, _, _, hstatus, hstep, rfl, List.drop_length, step?_answer rfl ho hroom, rfl, rfl, ?_,
    rfl⟩
  show (c.written ++ (c.shared.outbox.queue ++ [g])).drop (c.written ++ _).length = [g]
  rw [← List.append_assoc, List.drop_left]

/-- A request that does not decode, under any number. -/
theorem answers_of_error {e : GatewayError} (hread : c.Reads s f rest) (hk : f.kind = .call)
    (hp : (Payload.ofBytes f.payload : Except GatewayError CallRequest) = .error e) :
    c.Answers s f := by
  obtain ⟨g, hg, hstep⟩ := step?_refuse hread hk hp
  refine ⟨_, hstep, rfl, rfl, fun ho hroom => ?_⟩
  obtain ⟨a, c', d, ha, hstep', -, -, hanswer, hpool, hserving, hq, -⟩ :=
    answered_of_error hread hk hp ho hroom
  cases hstep.symm.trans hstep'
  exact ⟨a, d, ha, hanswer, hpool, hserving, hq⟩

/-- A request that decodes, under a free number. -/
theorem accepts_of_ok (hread : c.Reads s f rest) (hk : f.kind = .call)
    (hp : (Payload.ofBytes f.payload : Except GatewayError CallRequest) = .ok r)
    (hfree : c.pool.contains f.callId = false) : c.Accepts s f := by
  obtain ⟨pool, hspawn, hstep⟩ := step?_accept hread hk hp hfree
  have hs : pool.standing? f.callId = some (true, .opening (s.accept r)) := by
    rw [Pool.standing?_spawn hspawn, Function.update_self]
  have hnot : (CallStage.opening (s.accept r)).isOver = false := by
    cases s.accept r <;> rfl
  refine ⟨_, hstep, by rw [Pool.contains_eq, hs]; rfl, ?_⟩
  intro ms d hr hin
  have hzero : ({ c with unread := rest, pool } : Connection ω σ).refusing f.callId = 0 :=
    refusing_of_serving hread.serving
  obtain ⟨stage', hs', hbal⟩ := balance_of_run hr hs hin
  have hover : d.isOver f.callId = stage'.isOver := by
    rw [isOver, hs']
    rfl
  have hmost := hbal.most
  rw [hnot, hzero, Bool.toNat_false] at hmost
  rw [hover]
  refine ⟨by omega, fun hopen => ?_⟩
  rcases hbal.exact hopen with ⟨-, heq⟩ | ⟨-, hafter, result, -, heq⟩
  · exact ⟨0, Nat.zero_le _, by omega⟩
  · refine ⟨(Status.ofResult result).fits.toNat, ?_, by omega⟩
    rw [hafter]
    exact Bool.toNat_le _

/-- **A number in use is guarded against requests that decode, and against no others.** In every
state, a frame that would open a call under the number of a call in flight makes the loop leave with
an error and sends nothing, if its request decodes; otherwise it is answered with a status under
that number. So from the moment when a call is accepted, and as long as it is in the pool, its
number comes with one status at most, not counting those that answer malformed requests. -/
theorem live_number_guarded_if_decodes (s : Server ω σ) (c : Connection ω σ)
    (hread : c.Reads s f rest) (hk : f.kind = .call) :
    (c.pool.contains f.callId = true →
      (∀ r, (Payload.ofBytes f.payload : Except GatewayError CallRequest) = .ok r →
        c.LeavesOver s f) ∧
      (∀ e, (Payload.ofBytes f.payload : Except GatewayError CallRequest) = .error e →
        c.Answers s f)) ∧
    (c.pool.contains f.callId = false →
      ∀ r, (Payload.ofBytes f.payload : Except GatewayError CallRequest) = .ok r →
        c.Accepts s f) :=
  ⟨fun hlive => ⟨fun _ hp => leavesOver_of_ok hread hk hp hlive,
    fun _ hp => answers_of_error hread hk hp⟩,
    fun hfree _ hp => accepts_of_ok hread hk hp hfree⟩

end

/-- The same request twice: the first is accepted, and the loop leaves over the second. -/
theorem leaves_over_repeated_request :
    let s : Server Unit Unit :=
      ⟨⟨fun _ => 0, rfl⟩, ⟨fun _ => .finish (.ok ()), fun _ w => w⟩, fun _ => .error .cancelled⟩
    let f : Frame := ⟨.call, 1, Payload.toBytes (⟨"", "", []⟩ : CallRequest), by decide⟩
    let bytes := f.toBytes s.checksum
    let c : Connection Unit Unit := arrived () (bytes ++ bytes)
    ∃ c', c.Reads s f bytes ∧ c.Accepts s f ∧ c.step? s .read = some c' ∧ c'.Reads s f [] ∧
      c'.pool.contains 1 = true ∧ c'.LeavesOver s f := by
  intro s f bytes c
  have hread : c.Reads s f bytes := reads_toBytes rfl rfl
  have hp : (Payload.ofBytes f.payload : Except GatewayError CallRequest) = .ok ⟨"", "", []⟩ :=
    CallRequest.ofBytes_toBytes (by decide)
  have haccepts := (live_number_guarded_if_decodes s c hread rfl).2 rfl _ hp
  obtain ⟨pool, hspawn, hstep⟩ := step?_accept hread rfl hp rfl
  have hread' : Reads s { c with unread := bytes, pool } f [] :=
    reads_last rfl rfl
  have hlive : pool.contains 1 = true := by
    rw [Pool.contains_eq, Pool.standing?_spawn hspawn, Function.update_self]
    rfl
  have hleaves := ((live_number_guarded_if_decodes s _ hread' rfl).1 hlive).1 _ hp
  exact ⟨_, hread, haccepts, hstep, hread', hlive, hleaves⟩

/-- **A call may be answered twice**: by a status that is not its own, when a malformed request
comes under its number, and by its own. -/
theorem two_statuses_of_malformed {f : Frame} {rest : Bytes} {e e' : GatewayError} (hc : c.Sound)
    (hs : c.pool.standing? f.callId = some (true, .refused e)) (hread : c.Reads s f rest)
    (hk : f.kind = .call)
    (hp : (Payload.ofBytes f.payload : Except GatewayError CallRequest) = .error e')
    (ho : c.shared.outbox.isOpen = true)
    (hroom : c.shared.outbox.queue.length + 1 < c.shared.outbox.capacity)
    (hfits : (Status.ofError e).fits = true) :
    let ms : List Move := [.read, .proceed, .pool (.poll f.callId), .pool (.poll f.callId)]
    ∃ d, c.run? s ms = some d ∧ (∀ k ∈ c.visited s ms, k.pool.contains f.callId = true) ∧
      statuses f.callId (c.framesQueued s ms) = 2 := by
  intro ms
  have hlive : c.pool.contains f.callId = true := by
    rw [Pool.contains_eq, hs]
    rfl
  -- First the loop answers the malformed request, then the call itself ends.
  obtain ⟨g, c', d, hg, hrefuse, hpool', hq, hanswer, hpool, hserving, hq', hbox⟩ :=
    answered_of_error hread hk hp ho (Nat.lt_of_succ_lt hroom)
  have hs' : d.pool.standing? f.callId = some (true, .refused e) := by rw [hpool, hs]
  have hopen' : d.shared.outbox.isOpen = true := by rw [hbox, ho]
  have hroom' : d.shared.outbox.queue.length < d.shared.outbox.capacity := by
    rw [hbox, List.length_append]
    exact hroom
  have hsound := (hc.step (step_of_step? hrefuse)).step (step_of_step? hanswer)
  obtain ⟨last, hend, hopen, hnone⟩ := endsTask_of_refused (s := s) hs' hopen' hroom'
  obtain ⟨result, -, hresult, -, hcount⟩ :=
    statuses_at_end hsound hserving hs' rfl hend hopen
  rw [hresult e rfl] at hcount
  refine ⟨last, run?_cons.2 ⟨c', hrefuse, run?_cons.2 ⟨d, hanswer, hend.run⟩⟩, ?_, ?_⟩
  · rw [visited_cons hrefuse, visited_cons hanswer]
    intro k hk
    rcases List.mem_cons.1 hk with rfl | hk
    · exact hlive
    · rcases List.mem_cons.1 hk with rfl | hk
      · rw [hpool', hlive]
      · exact hend.contains hsound (by rw [hpool, hlive]) k hk
  · have hlast : statuses f.callId (d.framesQueued s [.pool (.poll f.callId),
        .pool (.poll f.callId)]) = (Status.ofError e).fits.toNat := hcount (by rw [hnone]; rfl)
    have hone : statuses f.callId [g] = 1 := by
      rw [statuses, List.countP_singleton, hg]
      rfl
    rw [framesQueued_cons hrefuse, framesQueued_cons hanswer, hq, hq', List.nil_append,
      statuses_append, hone, hlast, hfits]
    rfl

/-- A call in flight, and under its number a frame without a request: the loop goes on, and two
statuses come under the number before the call leaves the pool. -/
theorem two_statuses_under_one_number :
    let g : Gateway := ⟨"/media", ⟨"/staging", "/install", "1"⟩, fun _ _ _ => none, ⟨0⟩⟩
    let s := g.server
    let world : GatewayWorld := ⟨⟨[], [], [], 0⟩, .new⟩
    let f : Frame := ⟨.call, 1, Payload.toBytes (⟨"radio", "", []⟩ : CallRequest), by decide⟩
    let empty : Frame := ⟨.call, 1, [], by decide⟩
    let data := f.toBytes s.checksum ++ empty.toBytes s.checksum
    let ms : List Move := [.read, .proceed, .pool (.poll 1), .pool (.poll 1)]
    ∃ c d, (start world).run? s [.arrive data, .read] = some c ∧ c.Reads s empty [] ∧
      c.pool.contains 1 = true ∧ ¬ c.LeavesOver s empty ∧ c.run? s ms = some d ∧
      (∀ e ∈ c.visited s ms, e.pool.contains 1 = true) ∧
      statuses 1 (c.framesQueued s ms) = 2 := by
  intro g s world f empty data ms
  have hp : (Payload.ofBytes f.payload : Except GatewayError CallRequest) =
    .ok ⟨"radio", "", []⟩ := CallRequest.ofBytes_toBytes (by decide)
  have hempty : (Payload.ofBytes empty.payload : Except GatewayError CallRequest) =
    .error (.encoding "io error: unexpected end of file") := rfl
  let first : Connection GatewayWorld HandlerState := arrived world data
  have hread : first.Reads s f (empty.toBytes s.checksum) := reads_toBytes rfl rfl
  obtain ⟨pool, hspawn, haccept⟩ := step?_accept hread rfl hp rfl
  have hs : pool.standing? 1 = some (true, .refused (.notFound "service radio")) := by
    rw [Pool.standing?_spawn hspawn]
    show some (true, CallStage.opening (g.accept ⟨"radio", "", []⟩)) = _
    rw [g.accept_of_unknown (by intro group _; cases group <;> decide)]
    rfl
  have hrun : (start world).run? s [.arrive data, .read] = some _ :=
    run?_cons.2 ⟨first, step?_arrive world data, run?_cons.2 ⟨_, haccept, rfl⟩⟩
  have hlive : pool.contains 1 = true := by
    rw [Pool.contains_eq, hs]
    rfl
  have hreadEmpty : Reads s { first with unread := empty.toBytes s.checksum, pool } empty [] :=
    reads_last rfl rfl
  obtain ⟨d, hr, hin, htwo⟩ := two_statuses_of_malformed
    ((sound_arrived world data).step (step_of_step? haccept)) hs hreadEmpty rfl hempty rfl
    (show 1 < outboxCapacity by decide) (by decide)
  refine ⟨_, d, hrun, hreadEmpty, hlive, ?_, hr, hin, htwo⟩
  rintro ⟨e, hstep, -, -, -, hkeeps⟩
  obtain ⟨e', hstep', -, hstays, -⟩ := answers_of_error hreadEmpty rfl hempty
  cases hstep.symm.trans hstep'
  cases hstays.symm.trans (hkeeps [] e rfl)

end DeviceGateway.Connection
