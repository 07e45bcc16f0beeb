import DeviceGateway.Proofs.Server.CallEnds
import DeviceGateway.Proofs.Server.Teardown

/-!
# Waiting for the calls to end

A loop that has withdrawn all calls waits until each has reported its end, but reads no reports
meanwhile. The channel of the reports has room for so many, and each of the reports that wait in it
is that of a call that is gone. So with no more calls than that the loop never waits in vain, and
with more of them it comes to a state in which all calls that are left wait for room, which never
comes (`stuck_reachable_iff`).
-/

namespace DeviceGateway.Connection

variable {ω σ : Type} {s : Server ω σ} {c c' d : Connection ω σ} {id : UInt64}

/-- **Stuck**: the loop waits for calls to end, and each that has not ended waits for room for its
report. -/
structure Stuck (c : Connection ω σ) : Prop where
  joining : ∃ result, c.stage = .joining result
  waiting : ∃ call ∈ c.pool.calls, call.stage.isGone = false
  blocked : ∀ call ∈ c.pool.calls, call.stage.isGone = false → call.stage = .reporting
  full : Pool.eventCapacity ≤ c.pool.events.length

/-! ## Never coming out -/

theorem Stuck.isOver (hc : c.Stuck) {call : Call ω σ} (hm : call ∈ c.pool.calls) :
    call.stage.isOver = true := by
  cases hg : call.stage.isGone with
  | true => rw [Pool.isGone_iff.1 hg]; rfl
  | false => rw [hc.blocked call hm hg]; rfl

/-- A state that is stuck stays stuck: what may still happen is the doing of the caller, the writer
or the system. -/
theorem Stuck.step {m : Move} (hc : c.Stuck) (hstep : Step s c m c') : c'.Stuck := by
  obtain ⟨result, hj⟩ := hc.joining
  have hno : ∀ {stage : LoopStage}, c.stage = stage → stage = .joining result :=
    fun hs => hs.symm.trans hj
  cases hstep with
  | readFault hs | readEnd hs | refuse hs | duplicate hs | accept hs | message hs | halfClose hs
  | cancel hs | status hs | notice hs | heed hs | feed hs | answer hs | unheard hs | tear hs
  | torn hs | flush hs => cases hno hs
  | join hs hg =>
      obtain ⟨call, hm, hnot⟩ := hc.waiting
      rw [List.all_eq_true.1 hg call hm] at hnot
      cases hnot
  | pool hp =>
      have over_of_call? : ∀ {i : UInt64} {call : Call ω σ}, c.pool.call? i = some call →
          call.stage.isOver = true := fun hcall => hc.isOver (Pool.mem_of_call? hcall)
      cases hp with
      | poll hcall hp =>
          have hnot := (Call.advances_of_poll? hp).2.2.not_over
          rw [over_of_call? hcall] at hnot
          cases hnot
      | carry hcall hp =>
          have hnot := (Call.advances_of_carry? hp).2.2.not_over
          rw [over_of_call? hcall] at hnot
          cases hnot
      | expire hcall hp =>
          have hnot := (Call.advances_of_expire? hp).2.2.not_over
          rw [over_of_call? hcall] at hnot
          cases hnot
      | report _ _ hroom => exact absurd hroom (Nat.not_lt.2 hc.full)
      | orphan => exact ⟨hc.joining, hc.waiting, hc.blocked, hc.full⟩
  | _ => exact ⟨hc.joining, hc.waiting, hc.blocked, hc.full⟩

/-- **A state that is stuck stays stuck for ever.** -/
theorem Stuck.of_reaches (hc : c.Stuck) (hr : Reaches s c d) : d.Stuck := hr.keeps Stuck.step hc

/-! ## With few calls -/

/-- **A state that is stuck has more calls than there is room for reports.** -/
theorem Stuck.lt_size (hc : c.Stuck) (hs : c.Sound) (ho : c.Ordered) :
    Pool.eventCapacity < c.pool.size := by
  obtain ⟨call, hm, hg⟩ := hc.waiting
  calc Pool.eventCapacity ≤ c.pool.events.length := hc.full
    _ = c.pool.goneCount := Pool.length_events hs.kept ho.numbered
    _ < c.pool.size := Pool.goneCount_lt_of_mem hm hg

/-! ## With many calls -/

/-- The loop waits for calls that are withdrawn, and nobody takes what they say. -/
structure Winding (result : Except GatewayError Unit) (c : Connection ω σ) : Prop where
  joining : c.stage = .joining result
  closed : c.shared.outbox.isOpen = false
  sound : c.Sound
  ordered : c.Ordered
  withdraws : c.Withdraws

section Winding

variable {result : Except GatewayError Unit}

theorem Winding.step {m : Move} (hc : c.Winding result) (hm : c.step? s m = some c')
    (hj : c'.stage = .joining result) : c'.Winding result :=
  have hstep := step_of_step? hm
  ⟨hj, closed_of_step hstep hc.closed, hc.sound.step hstep, hc.ordered.step hstep,
    hc.withdraws.step hstep⟩

/-- From the withdrawing of the calls the loop comes to wait for them. -/
theorem reaches_joining {steps : List Pool.TeardownStep}
    (hs : c.stage = .withdrawing steps result) :
    ∃ d, Reaches s c d ∧ d.stage = .joining result := by
  induction steps generalizing c with
  | nil =>
      have ht : c.step? s .proceed = some { c with stage := .joining result } := by
        simp only [step?, proceed?, hs]
      exact ⟨_, .of_step ht, rfl⟩
  | cons t ts ih =>
      have ht : c.step? s .proceed =
          some { c with pool := c.pool.tear t, stage := .withdrawing ts result } := by
        simp only [step?, proceed?, hs]
      obtain ⟨d, hr, hd⟩ := ih (c := { c with pool := c.pool.tear t,
                                              stage := .withdrawing ts result }) rfl
      exact ⟨d, (Reaches.of_step ht).trans hr, hd⟩

/-- Telling a result to nobody takes no room. -/
theorem tell?_of_closed (call : Call ω σ) {shared : Shared ω} (r : Except GatewayError Unit)
    (hc : shared.outbox.isOpen = false) :
    call.tell? shared r = some ({ call with stage := .reporting }, shared) := by
  unfold Call.tell?
  cases Frame.status call.id (Status.ofResult r) with
  | error e => rfl
  | ok f => simp only [Outbox.put?_eq_error_iff.2 ⟨hc, rfl⟩]

/-- A call with a result tells it to nobody, and its task is over. -/
theorem Winding.reaches_over_of_ended {r : Except GatewayError Unit} (hc : c.Winding result)
    (hs : c.pool.standing? id = some (true, .ended r)) :
    ∃ d, Reaches s c d ∧ d.Winding result ∧
      d.pool.standing? = Function.update c.pool.standing? id (some (true, .reporting)) := by
  obtain ⟨call, hcall, hstands⟩ := Option.map_eq_some_iff.1 hs
  rw [Prod.mk.injEq] at hstands
  have hid : call.id = id := Pool.id_of_call? hcall
  have hm : c.step? s (.pool (.poll id)) = _ :=
    poll_ended hcall hstands.2 (tell?_of_closed call r hc.closed)
  refine ⟨_, .of_step hm, hc.step hm hc.joining, ?_⟩
  rw [← hstands.1]
  exact Pool.standing?_replace hcall (show Call.id { call with stage := .reporting } = id from hid)

/-- **Every call may come to its end** while the loop waits for it. -/
theorem Winding.reaches_over {stage : CallStage ω σ} (hc : c.Winding result)
    (hs : c.pool.standing? id = some (true, stage)) :
    ∃ d after, Reaches s c d ∧ d.Winding result ∧ after.isOver = true ∧
      d.pool.standing? = Function.update c.pool.standing? id (some (true, after)) := by
  obtain ⟨call, hcall, hstands⟩ := Option.map_eq_some_iff.1 hs
  rw [Prod.mk.injEq] at hstands
  obtain ⟨hsup, hst⟩ := hstands
  have hid : call.id = id := Pool.id_of_call? hcall
  -- What is left to do once the handler is done.
  have finish : ∀ {e : GatewayError} {shared : Shared ω},
      c.step? s (.pool (.poll id)) =
        some { c with pool := c.pool.replace (call.conclude (.error e)), shared } →
      ∃ d after, Reaches s c d ∧ d.Winding result ∧ after.isOver = true ∧
        d.pool.standing? = Function.update c.pool.standing? id (some (true, after)) := by
    intro e shared hm
    have hended : (c.pool.replace (call.conclude (.error e))).standing? =
        Function.update c.pool.standing? id (some (true, .ended (.error e))) := by
      rw [Pool.standing?_replace hcall (show (call.conclude (.error e)).id = id from hid),
        Call.stage_conclude hsup, show (call.conclude (.error e)).supervised = true from hsup]
    have hstands : (c.pool.replace (call.conclude (.error e))).standing? id =
        some (true, .ended (.error e)) := by rw [hended, Function.update_self]
    obtain ⟨d, hr, hd, hu⟩ := (hc.step hm hc.joining).reaches_over_of_ended (s := s) hstands
    refine ⟨d, .reporting, (Reaches.of_step hm).trans hr, hd, rfl, hu.trans ?_⟩
    rw [hended, Function.update_idem]
  have hw := withdrawn_of_joining hc.withdraws hc.joining call (Pool.mem_of_call? hcall)
  cases stage with
  | reporting | gone =>
      exact ⟨c, _, .refl c, hc, rfl, (Function.update_eq_self_iff.2 hs.symm).symm⟩
  | ended r =>
      obtain ⟨d, hr, hd, hu⟩ := hc.reaches_over_of_ended (s := s) hs
      exact ⟨d, _, hr, hd, rfl, hu⟩
  | refused e => exact finish (poll_refused hcall hst)
  | starting | awaiting | handed | carried =>
      exact finish (poll_withdrawn hcall hsup hw (by rw [hst]; rfl))

/-- All calls may come to their ends. -/
theorem Winding.reaches_all_over (hc : c.Winding result) (ids : List UInt64) :
    ∃ d, Reaches s c d ∧ d.Winding result ∧ d.pool.numbers = c.pool.numbers ∧
      ∀ id ∈ ids, d.pool.contains id = true → d.isOver id = true := by
  induction ids with
  | nil => exact ⟨c, .refl c, hc, rfl, fun _ h => absurd h List.not_mem_nil⟩
  | cons id ids ih =>
      obtain ⟨d, hr, hd, hn, hover⟩ := ih
      by_cases hin : d.pool.contains id = true
      · rw [Pool.contains_eq, Option.isSome_iff_exists] at hin
        obtain ⟨⟨sup, stage⟩, hs⟩ := hin
        obtain rfl := hd.sound.supervised hs
        obtain ⟨e, after, hre, he, hafter, hu⟩ := hd.reaches_over (s := s) hs
        have hne := (leaving_of_run? (stepsLeft?_of_stage hd.joining) hre.choose_spec).2
        refine ⟨e, hr.trans hre, he, hne.trans hn, fun i hi hin => ?_⟩
        rw [isOver, hu]
        -- The end of one call changes nothing for the calls that have ended already.
        by_cases hid : i = id
        · rw [hid, Function.update_self]
          exact hafter
        · rw [Function.update_of_ne hid]
          refine hover i ((List.mem_cons.1 hi).resolve_left hid) ?_
          rwa [← Pool.mem_numbers_iff, ← hne, Pool.mem_numbers_iff]
      · refine ⟨d, hr, hd, hn, fun i hi hin' => ?_⟩
        rcases List.mem_cons.1 hi with rfl | hi
        · exact absurd hin' hin
        · exact hover i hi hin'

theorem reporting_of_over {stage : CallStage ω σ} (ho : stage.isOver = true)
    (hg : stage.isGone = false) : stage = .reporting := by
  cases stage with
  | reporting => rfl
  | gone => cases hg
  | _ => cases ho

/-- All calls are over. -/
def AllOver (c : Connection ω σ) : Prop := ∀ call ∈ c.pool.calls, call.stage.isOver = true

theorem Winding.reaches_allOver (hc : c.Winding result) :
    ∃ d, Reaches s c d ∧ d.Winding result ∧ d.pool.size = c.pool.size ∧ d.AllOver := by
  obtain ⟨d, hr, hd, hn, hover⟩ := hc.reaches_all_over (s := s) c.pool.numbers
  refine ⟨d, hr, hd, ?_, fun call hm => ?_⟩
  · rw [← Pool.length_numbers, hn, Pool.length_numbers]
  · have hcall := (Pool.call?_eq_some_iff hd.ordered.numbered).2 ⟨hm, rfl⟩
    have hin : d.pool.contains call.id = true := by
      rw [Pool.contains, hcall]
      rfl
    have := hover call.id (hn ▸ Pool.mem_numbers_iff.2 hin) hin
    rwa [isOver, Pool.standing?_of_call? hcall] at this

/-- A call whose task is over reports its end, if there is room. -/
theorem step?_report {call : Call ω σ} (hcall : c.pool.call? id = some call)
    (hst : call.stage = .reporting) (hroom : c.pool.events.length < Pool.eventCapacity) :
    c.step? s (.pool (.report id)) =
      some { c with pool := { c.pool.replace { call with stage := .gone } with
                              events := c.pool.events ++ [id] } } := by
  simp only [step?, Pool.step?, Pool.report?, hcall, hst, if_pos hroom, Option.map_some]

/-- **With more calls than room for reports, the loop comes to a state that is stuck**, once all
calls are over: they report until there is no room. -/
theorem Winding.reaches_stuck_of_allOver (hc : c.Winding result) (ha : c.AllOver)
    (hlt : Pool.eventCapacity < c.pool.size) : ∃ d, Reaches s c d ∧ d.Stuck := by
  generalize hroom : Pool.eventCapacity - c.pool.events.length = room
  induction room generalizing c with
  | zero =>
      have hfull : Pool.eventCapacity ≤ c.pool.events.length := Nat.sub_eq_zero_iff_le.1 hroom
      have hgone : c.pool.goneCount < c.pool.size := by
        rw [← Pool.length_events hc.sound.kept hc.ordered.numbered]
        exact Nat.lt_of_le_of_lt hc.ordered.room hlt
      refine ⟨c, .refl c, ⟨⟨_, hc.joining⟩, Pool.exists_not_gone hgone, ?_, hfull⟩⟩
      intro call hm hg
      exact reporting_of_over (ha call hm) hg
  | succ room ih =>
      have hfree : c.pool.events.length < Pool.eventCapacity := by omega
      have hgone : c.pool.goneCount < c.pool.size := by
        rw [← Pool.length_events hc.sound.kept hc.ordered.numbered]
        omega
      obtain ⟨call, hm, hg⟩ := Pool.exists_not_gone hgone
      have hst : call.stage = .reporting := reporting_of_over (ha call hm) hg
      have hcall := (Pool.call?_eq_some_iff hc.ordered.numbered).2 ⟨hm, rfl⟩
      have hstep := step?_report (s := s) hcall hst hfree
      let c' : Connection ω σ :=
        { c with pool := { c.pool.replace { call with stage := .gone } with
                           events := c.pool.events ++ [call.id] } }
      have hover : c'.AllOver := by
        intro k hk
        rcases Pool.mem_replace hk with hk | ⟨rfl, -⟩
        · exact ha k hk
        · rfl
      have hsize : c'.pool.size = c.pool.size := by
        rw [← Pool.length_numbers, ← Pool.length_numbers,
          Pool.numbers_of_step (Pool.Step.report hcall hst hfree (h := s.handler) (s := c.shared))]
      have hleft : Pool.eventCapacity - c'.pool.events.length = room := by
        rw [List.length_append, List.length_singleton]
        omega
      obtain ⟨d, hr, hd⟩ := ih (hc.step hstep hc.joining) hover (by rwa [hsize]) hleft
      exact ⟨d, (Reaches.of_step hstep).trans hr, hd⟩

/-- **With more calls than room for reports, the loop may come to a state that is stuck.** -/
theorem reaches_stuck (hs : c.Sound) (ho : c.Ordered) (hw : c.Withdraws)
    (hj : c.stage = .joining result) (hlt : Pool.eventCapacity < c.pool.size) :
    ∃ d, Reaches s c d ∧ d.Stuck := by
  -- The caller is gone, so nothing that the calls say waits for room.
  let c' : Connection ω σ :=
    { c with shared := { c.shared with outbox := c.shared.outbox.close } }
  have hm : c.step? s .failWriting = some c' := rfl
  have hstep := step_of_step? hm
  have hc : c'.Winding result := ⟨hj, rfl, hs.step hstep, ho.step hstep, hw.step hstep⟩
  obtain ⟨d, hr, hd, hsize, ha⟩ := hc.reaches_allOver (s := s)
  obtain ⟨e, hr', he⟩ := hd.reaches_stuck_of_allOver (s := s) ha (by rwa [hsize])
  exact ⟨e, ((Reaches.of_step hm).trans hr).trans hr', he⟩

end Winding

/-- **A loop that leaves may get stuck exactly if it has more calls than there is room for
reports**, in every state that is reached and whatever the calls do. Then it never comes out, and
the connection is never closed. -/
theorem stuck_reachable_iff (s : Server ω σ) (world : ω) (hreach : Reaches s (start world) c)
    (hl : (∃ steps result, c.stage = .withdrawing steps result) ∨
      ∃ result, c.stage = .joining result) :
    ((∃ d, Reaches s c d ∧ d.Stuck) ↔ Pool.eventCapacity < c.pool.size) ∧
      ∀ d, Reaches s c d → d.Stuck → ∀ e, Reaches s d e → e.Stuck ∧ e.result? = none := by
  have hsteps : ∃ steps, c.stepsLeft? = some steps := by
    rcases hl with ⟨steps, result, hs⟩ | ⟨result, hs⟩
    · exact ⟨steps, stepsLeft?_of_stage hs⟩
    · exact ⟨[], stepsLeft?_of_stage hs⟩
  obtain ⟨steps, hsteps⟩ := hsteps
  have hsize : ∀ {d}, Reaches s c d → d.pool.size = c.pool.size := by
    rintro d ⟨ms, hr⟩
    rw [← Pool.length_numbers, (leaving_of_run? hsteps hr).2, Pool.length_numbers]
  have hkept : ∀ {d}, Reaches s c d → d.Sound ∧ d.Ordered ∧ d.Withdraws := by
    intro d hr
    obtain ⟨ms, hr⟩ := hreach.trans hr
    exact ⟨sound_of_run? hr, ordered_of_run? hr, withdraws_of_run? hr⟩
  refine ⟨⟨?_, fun hlt => ?_⟩, ?_⟩
  · rintro ⟨d, hr, hd⟩
    rw [← hsize hr]
    exact hd.lt_size (hkept hr).1 (hkept hr).2.1
  · have hjoin : ∃ d result, Reaches s c d ∧ d.stage = .joining result := by
      rcases hl with ⟨steps, result, hs⟩ | ⟨result, hs⟩
      · obtain ⟨d, hr, hd⟩ := reaches_joining (s := s) hs
        exact ⟨d, result, hr, hd⟩
      · exact ⟨c, result, .refl c, hs⟩
    obtain ⟨d, result, hr, hj⟩ := hjoin
    obtain ⟨hsound, hordered, hwithdraws⟩ := hkept hr
    obtain ⟨e, hr', he⟩ :=
      reaches_stuck (s := s) hsound hordered hwithdraws hj (by rwa [hsize hr])
    exact ⟨e, hr.trans hr', he⟩
  · intro d _ hd e hr
    have he := hd.of_reaches hr
    obtain ⟨result, hj⟩ := he.joining
    exact ⟨he, by rw [result?, hj]⟩

/-! ## Many calls on one connection -/

/-- **As many calls as there are numbers** can be in flight on one connection. -/
theorem reaches_many (s : Server ω σ) (world : ω) {r : CallRequest}
    (hr : (Payload.toBytes r).length ≤ Frame.maxPayload) {n : Nat} (hn : n ≤ UInt64.size) :
    ∃ c, Reaches s (start world) c ∧ c.stage = .serving ∧ c.unread = [] ∧ c.hungUp = false ∧
      c.pool.numbers = (List.range n).map UInt64.ofNat := by
  induction n with
  | zero => exact ⟨_, .refl _, rfl, rfl, rfl, rfl⟩
  | succ n ih =>
      obtain ⟨c, hreach, hs, hu, hh, hnumbers⟩ := ih (Nat.le_of_succ_le hn)
      -- One more frame arrives and is read, under the next number.
      let f : Frame := ⟨.call, UInt64.ofNat n, Payload.toBytes r, hr⟩
      have harrive : c.step? s (.arrive (f.toBytes s.checksum)) =
          some { c with unread := f.toBytes s.checksum } := by
        simp only [step?, hh, hu, Bool.false_eq_true, if_false, List.nil_append]
      have hfree : c.pool.contains (UInt64.ofNat n) = false := by
        rw [← Bool.not_eq_true, ← Pool.mem_numbers_iff, hnumbers, List.mem_map]
        rintro ⟨k, hk, heq⟩
        have hlt : n < UInt64.size := hn
        have hk := List.mem_range.1 hk
        have := congrArg UInt64.toNat heq
        rw [UInt64.toNat_ofNat_of_lt' (Nat.lt_trans hk hlt), UInt64.toNat_ofNat_of_lt' hlt] at this
        omega
      have hread : Reads s { c with unread := f.toBytes s.checksum } f [] := reads_last hs rfl
      have hfits : Frame.maxPayload < Bytes.bound 8 := by decide
      obtain ⟨pool, hspawn, hstep⟩ := step?_accept hread rfl
        (CallRequest.ofBytes_toBytes (Nat.lt_of_le_of_lt hr hfits)) hfree
      refine ⟨_, (hreach.trans (.of_step harrive)).trans (.of_step hstep), hs, rfl, hh, ?_⟩
      rw [List.range_succ, List.map_append, ← hnumbers]
      exact Pool.numbers_spawn hspawn

/-- The caller hangs up, and the loop leaves. -/
theorem reaches_leave (hs : c.stage = .serving) (hu : c.unread = []) :
    ∃ d, Reaches s c d ∧ d.pool = c.pool ∧ d.stage = .withdrawing c.pool.teardown (.ok ()) := by
  have hhang : c.step? s .hangUp = some { c with hungUp := true } := rfl
  have hread : ({ c with hungUp := true } : Connection ω σ).step? s .read =
      some ({ c with hungUp := true }.leave (.ok ())) := by
    have hmore : Frame.decode s.checksum ([] : Bytes) = .more := rfl
    simp [step?, isServing, hs, read?, hu, hmore]
  exact ⟨_, (Reaches.of_step hhang).trans (.of_step hread), rfl, rfl⟩

/-- Many uploads are begun, and the caller hangs up. -/
theorem reaches_leave_of_many (g : Gateway) (world : GatewayWorld) {n : Nat} (hn : n ≤ UInt64.size) :
    ∃ c, Reaches g.server (start world) c ∧ c.pool.size = n ∧
      c.stage = .withdrawing c.pool.teardown (.ok ()) := by
  obtain ⟨c, hreach, hs, hu, -, hnumbers⟩ :=
    reaches_many g.server world (r := ⟨"filesystem", "upload", []⟩) (by decide) hn
  obtain ⟨d, hr, hpool, hd⟩ := reaches_leave (s := g.server) hs hu
  refine ⟨d, hreach.trans hr, ?_, by rw [hd, hpool]⟩
  rw [hpool, ← Pool.length_numbers, hnumbers, List.length_map, List.length_range]

/-- With as many uploads as there is room for reports, the loop never gets stuck. -/
theorem never_stuck_with_room :
    let g : Gateway := ⟨"/media", ⟨"/staging", "/install", "1"⟩, fun _ _ _ => none, ⟨0⟩⟩
    let world : GatewayWorld := ⟨⟨[], [], [], 0⟩, .new⟩
    ∃ c, Reaches g.server (start world) c ∧ c.pool.size = 1024 ∧
      c.stage = .withdrawing c.pool.teardown (.ok ()) ∧
      ¬ ∃ d, Reaches g.server c d ∧ d.Stuck := by
  intro g world
  obtain ⟨c, hreach, hsize, hs⟩ := reaches_leave_of_many g world (n := 1024) (by decide)
  refine ⟨c, hreach, hsize, hs, ?_⟩
  rw [(stuck_reachable_iff g.server world hreach (Or.inl ⟨_, _, hs⟩)).1, hsize]
  decide

/-- **With one upload more, the loop may get stuck** after the caller has hung up. -/
theorem stuck_with_one_more :
    let g : Gateway := ⟨"/media", ⟨"/staging", "/install", "1"⟩, fun _ _ _ => none, ⟨0⟩⟩
    let world : GatewayWorld := ⟨⟨[], [], [], 0⟩, .new⟩
    ∃ c d, Reaches g.server (start world) c ∧ c.pool.size = 1025 ∧
      c.stage = .withdrawing c.pool.teardown (.ok ()) ∧ Reaches g.server c d ∧ d.Stuck := by
  intro g world
  obtain ⟨c, hreach, hsize, hs⟩ := reaches_leave_of_many g world (n := 1025) (by decide)
  obtain ⟨d, hr, hj⟩ := reaches_joining (s := g.server) hs
  obtain ⟨ms, hrun⟩ := hreach.trans hr
  have hsame : d.pool.size = 1025 := by
    obtain ⟨ns, hns⟩ := hr
    rw [← Pool.length_numbers, (leaving_of_run? (stepsLeft?_of_stage hs) hns).2,
      Pool.length_numbers, hsize]
  obtain ⟨e, hr', he⟩ := reaches_stuck (s := g.server) (sound_of_run? hrun)
    (ordered_of_run? hrun) (withdraws_of_run? hrun) hj (by rw [hsame]; decide)
  exact ⟨c, e, hreach, hsize, hs, hr.trans hr', he⟩

end DeviceGateway.Connection
