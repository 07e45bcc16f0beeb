import DeviceGateway.Proofs.Server.Steps

/-!
# Statuses of one call

Two kinds of senders put statuses with the number of a call into the outbox: the call itself at its
end, and the loop when it refuses a request that does not decode, whatever number that came under.
What a step does to the account of one number is a `Turn`; over a run along which the call stays in
the pool the account balances (`balance_of_run`): every status is that of the call or the answer to
a malformed request, and while the outbox is open neither kind is lost.
-/

namespace DeviceGateway

/-- Whether the frame would open the call with a number, but holds no request. -/
def Frame.isMalformedCall (id : UInt64) (f : Frame) : Bool :=
  f.kind = .call && f.callId = id &&
    !(Payload.ofBytes f.payload : Except GatewayError CallRequest).isOk

/-- How many frames end the call with a number. -/
def statuses (id : UInt64) (fs : List Frame) : Nat := fs.countP (·.isStatusOf id)

/-- How many frames would open the call with a number, but hold no request. -/
def malformedCalls (id : UInt64) (fs : List Frame) : Nat := fs.countP (·.isMalformedCall id)

namespace Connection

variable {ω σ : Type} {s : Server ω σ} {c c' d : Connection ω σ} {id : UInt64}

/-! ## What a run does -/

/-- The frames that were put into the outbox and written, or still wait there. -/
def sent (c : Connection ω σ) : List Frame := c.written ++ c.shared.outbox.queue

/-- The frames that a step puts into the outbox. -/
def queuedBy (c c' : Connection ω σ) : List Frame := c'.sent.drop c.sent.length

/-- The frame that a step reads. -/
def frameRead (s : Server ω σ) (c : Connection ω σ) : Move → List Frame
  | .read =>
    match Frame.decode s.checksum c.unread with
    | .frame f _ => [f]
    | _ => []
  | _ => []

/-- **The states that a run comes through**, the first and the last included. -/
def visited (s : Server ω σ) (c : Connection ω σ) : List Move → List (Connection ω σ)
  | [] => [c]
  | m :: ms =>
    c :: match c.step? s m with
      | none => []
      | some c' => visited s c' ms

/-- **The frames that are put into the outbox in a run**, in order. -/
def framesQueued (s : Server ω σ) (c : Connection ω σ) : List Move → List Frame
  | [] => []
  | m :: ms =>
    match c.step? s m with
    | none => []
    | some c' => c.queuedBy c' ++ framesQueued s c' ms

/-- **The frames that the loop reads in a run**, in order. -/
def framesRead (s : Server ω σ) (c : Connection ω σ) : List Move → List Frame
  | [] => []
  | m :: ms =>
    match c.step? s m with
    | none => []
    | some c' => c.frameRead s m ++ framesRead s c' ms

/-- How many statuses with a number the loop has made and not put into the outbox yet. -/
def refusing (c : Connection ω σ) (id : UInt64) : Nat :=
  match c.stage with
  | .rejecting g => statuses id [g]
  | _ => 0

theorem refusing_of_serving (hs : c.stage = .serving) : c.refusing id = 0 := by
  rw [refusing, hs]

theorem refusing_of_rejecting {g : Frame} (hs : c.stage = .rejecting g) :
    c.refusing id = statuses id [g] := by
  rw [refusing, hs]

theorem queuedBy_of_same (hs : c'.sent = c.sent) : c.queuedBy c' = [] := by
  rw [queuedBy, hs, List.drop_length]

theorem queuedBy_of_queue {new : List Frame} (hw : c'.written = c.written)
    (hq : c'.shared.outbox.queue = c.shared.outbox.queue ++ new) : c.queuedBy c' = new := by
  rw [queuedBy, sent, sent, hw, hq, ← List.append_assoc, List.drop_left]

theorem mem_of_queuedBy {new : List Frame} {g : Frame} (hg : g ∈ c.queuedBy c')
    (hw : c'.written = c.written)
    (hq : c'.shared.outbox.queue = c.shared.outbox.queue ++ new) : g ∈ new :=
  queuedBy_of_queue hw hq ▸ hg

/-- Nothing is put into an outbox that is closed. -/
theorem queuedBy_failWriting (c : Connection ω σ) :
    c.queuedBy { c with shared := { c.shared with outbox := c.shared.outbox.close } } = [] := by
  refine List.drop_eq_nil_of_le ?_
  show (c.written ++ []).length ≤ _
  rw [sent, List.append_nil, List.length_append]
  exact Nat.le_add_right _ _

theorem statuses_of_same (hs : c'.sent = c.sent) : statuses id (c.queuedBy c') = 0 := by
  rw [queuedBy_of_same hs]
  rfl

theorem statuses_of_put? {f : Frame} {n : Nat} (hw : c'.written = c.written)
    (hp : c.shared.outbox.put? f = some (.ok c'.shared.outbox)) (hn : statuses id [f] = n) :
    statuses id (c.queuedBy c') = n := by
  obtain ⟨-, -, hb⟩ := Outbox.put?_eq_ok_iff.1 hp
  have hq : c'.shared.outbox.queue = c.shared.outbox.queue ++ [f] := by rw [hb]
  rw [queuedBy_of_queue hw hq, hn]

theorem visited_cons {m : Move} {ms : List Move} (hm : c.step? s m = some c') :
    c.visited s (m :: ms) = c :: c'.visited s ms := by
  rw [visited, hm]

theorem framesQueued_cons {m : Move} {ms : List Move} (hm : c.step? s m = some c') :
    c.framesQueued s (m :: ms) = c.queuedBy c' ++ c'.framesQueued s ms := by
  rw [framesQueued, hm]

theorem framesRead_cons {m : Move} {ms : List Move} (hm : c.step? s m = some c') :
    c.framesRead s (m :: ms) = c.frameRead s m ++ c'.framesRead s ms := by
  rw [framesRead, hm]

theorem statuses_append (fs gs : List Frame) :
    statuses id (fs ++ gs) = statuses id fs + statuses id gs := List.countP_append

theorem statuses_singleton_le (id : UInt64) (f : Frame) : statuses id [f] ≤ 1 :=
  List.countP_le_length

theorem malformedCalls_append (fs gs : List Frame) :
    malformedCalls id (fs ++ gs) = malformedCalls id fs + malformedCalls id gs :=
  List.countP_append

theorem mem_visited_self (c : Connection ω σ) (ms : List Move) : c ∈ c.visited s ms := by
  cases ms with
  | nil => exact List.mem_singleton_self c
  | cons m ms => exact List.mem_cons_self

/-! ## One step -/

/-- **What a step means for the account of one number**, under which a supervised call stands. -/
inductive Turn (s : Server ω σ) (id : UInt64) (c : Connection ω σ) (m : Move)
    (c' : Connection ω σ) : CallStage ω σ → CallStage ω σ → Prop where
  /-- The call may get on, and nothing happens to the account. -/
  | quiet {stage stage' : CallStage ω σ} (hp : Pool.Passage stage stage')
      (hw : c'.refusing id = c.refusing id) (hq : statuses id (c.queuedBy c') = 0)
      (hr : malformedCalls id (c.frameRead s m) = 0) : Turn s id c m c' stage stage'
  /-- A malformed request under this number is refused. -/
  | refused {stage : CallStage ω σ} (hw : c.refusing id = 0) (hw' : c'.refusing id = 1)
      (hq : statuses id (c.queuedBy c') = 0) (hr : malformedCalls id (c.frameRead s m) = 1) :
      Turn s id c m c' stage stage
  /-- The status of a refusal is put into the outbox. -/
  | answered {stage : CallStage ω σ} (hw : c.refusing id = 1) (hw' : c'.refusing id = 0)
      (hq : statuses id (c.queuedBy c') = 1) (hr : malformedCalls id (c.frameRead s m) = 0) :
      Turn s id c m c' stage stage
  /-- The status of a refusal is lost, for nobody writes any more. -/
  | unheard {stage : CallStage ω σ} (hw : c.refusing id = 1) (hw' : c'.refusing id = 0)
      (hq : statuses id (c.queuedBy c') = 0) (hr : malformedCalls id (c.frameRead s m) = 0)
      (hc : c.shared.outbox.isOpen = false) : Turn s id c m c' stage stage
  /-- The call tells its caller how it ended, as far as that is possible. -/
  | told {result : Except GatewayError Unit} (hw : c'.refusing id = c.refusing id)
      (hq : statuses id (c.queuedBy c') ≤ 1)
      (hfits : c.shared.outbox.isOpen = true →
        statuses id (c.queuedBy c') = (Status.ofResult result).fits.toNat)
      (hr : malformedCalls id (c.frameRead s m) = 0) : Turn s id c m c' (.ended result) .reporting

theorem frameRead_of_frame {f : Frame} {rest : Bytes}
    (hd : Frame.decode s.checksum c.unread = .frame f rest) : c.frameRead s .read = [f] := by
  rw [frameRead, hd]

theorem malformedCalls_of_kind {f : Frame} (hk : f.kind ≠ .call) : malformedCalls id [f] = 0 := by
  rw [malformedCalls, List.countP_singleton, Frame.isMalformedCall, decide_eq_false hk]
  rfl

theorem malformedCalls_of_ok {f : Frame} {r : CallRequest}
    (hp : (Payload.ofBytes f.payload : Except GatewayError CallRequest) = .ok r) :
    malformedCalls id [f] = 0 := by
  rw [malformedCalls, List.countP_singleton, Frame.isMalformedCall, hp]
  simp [Except.isOk, Except.toBool]

theorem malformedCalls_of_error {f : Frame} {e : GatewayError} (hk : f.kind = .call)
    (hp : (Payload.ofBytes f.payload : Except GatewayError CallRequest) = .error e) :
    malformedCalls id [f] = if f.callId = id then 1 else 0 := by
  rw [malformedCalls, List.countP_singleton, Frame.isMalformedCall, hp, hk]
  simp [Except.isOk, Except.toBool]

theorem statuses_of_status {i : UInt64} {st : Status} {g : Frame}
    (hg : Frame.status i st = .ok g) : statuses id [g] = if i = id then 1 else 0 := by
  rw [statuses, List.countP_singleton, Frame.isStatusOf_of_status hg]
  simp

/-- A step in which the outbox stays as it is, and no refusal is made or answered. -/
theorem Turn.still {m : Move} {stage : CallStage ω σ} (hw : c'.refusing id = c.refusing id)
    (hs : c'.sent = c.sent) (hr : malformedCalls id (c.frameRead s m) = 0) :
    Turn s id c m c' stage stage := .quiet .still hw (statuses_of_same hs) hr

/-- What is no step of the pool: the call stays as it stands. -/
theorem turn_of_other {m : Move} (hstep : Step s c m c') (hm : ∀ move, m ≠ .pool move)
    (stage : CallStage ω σ) : Turn s id c m c' stage stage := by
  cases hstep with
  | arrive _ | hangUp | stop => exact .still rfl rfl rfl
  | readFault hs hd =>
      refine .still (refusing_of_serving hs).symm rfl ?_
      rw [frameRead, hd]
      rfl
  | readEnd hs hd _ =>
      refine .still (refusing_of_serving hs).symm rfl ?_
      rw [frameRead, hd]
      rfl
  | @refuse f g rest e hs hd hk hp hg =>
      have hread : malformedCalls id [f] = _ := malformedCalls_of_error hk hp
      have hmade : statuses id [g] = _ := statuses_of_status hg
      rw [← frameRead_of_frame hd] at hread
      split at hread
      · next hi =>
        rw [if_pos hi] at hmade
        exact .refused (refusing_of_serving hs) hmade (statuses_of_same rfl) hread
      · next hi =>
        rw [if_neg hi] at hmade
        exact .still (hmade.trans (refusing_of_serving hs).symm) rfl hread
  | duplicate hs hd hk hp hl =>
      refine .still (refusing_of_serving hs).symm rfl ?_
      rw [frameRead_of_frame hd, malformedCalls_of_ok hp]
  | accept hs hd hk hp hl =>
      refine .still rfl rfl ?_
      rw [frameRead_of_frame hd, malformedCalls_of_ok hp]
  | message hs hd hk =>
      refine .still (refusing_of_serving hs).symm rfl ?_
      rw [frameRead_of_frame hd, malformedCalls_of_kind (by rw [hk]; nofun)]
  | halfClose hs hd hk | cancel hs hd hk | status hs hd hk =>
      refine .still rfl rfl ?_
      rw [frameRead_of_frame hd, malformedCalls_of_kind (by rw [hk]; nofun)]
  | notice hs hn => exact .still rfl rfl rfl
  | heed hs hw => exact .still (refusing_of_serving hs).symm rfl rfl
  | feed hs hf => exact .still (by rw [refusing, refusing, hs]) rfl rfl
  | @answer g outbox hs hp =>
      have hg : c.refusing id = _ := refusing_of_rejecting hs
      by_cases hi : statuses id [g] = 0
      · exact .quiet .still (hi.symm.trans hg.symm) (statuses_of_put? rfl hp hi) rfl
      · have hone : statuses id [g] = 1 := by
          have := statuses_singleton_le id g
          omega
        exact .answered (hg.trans hone) rfl (statuses_of_put? rfl hp hone) rfl
  | @unheard g hs hc =>
      have hg : c.refusing id = _ := refusing_of_rejecting hs
      by_cases hi : statuses id [g] = 0
      · exact .still (hi.symm.trans hg.symm) rfl rfl
      · have hone : statuses id [g] = 1 := by
          have := statuses_singleton_le id g
          omega
        exact .unheard (hg.trans hone) rfl (statuses_of_same rfl) rfl hc
  | tear hs | torn hs | join hs _ | flush hs _ =>
      exact .still (by rw [refusing, refusing, hs]) rfl rfl
  | @write f rest hq =>
      refine .still rfl ?_ rfl
      rw [sent, sent, hq, List.append_assoc]
      rfl
  | failWriting =>
      refine .quiet .still rfl ?_ rfl
      rw [queuedBy_failWriting]
      rfl
  | pool hp => exact absurd rfl (hm _)

/-- A step of the pool. -/
theorem turn_of_pool {move : Pool.Move} {pool : Pool ω σ} {shared : Shared ω}
    {stage : CallStage ω σ} (hp : Pool.Step s.handler c.pool c.shared move pool shared)
    (hs : c.pool.standing? id = some (true, stage)) :
    ∃ stage', pool.standing? id = some (true, stage') ∧
      Turn s id c (.pool move) { c with pool, shared } stage stage' := by
  -- Nothing but the outbox has a part in what is sent.
  have same : shared.outbox = c.shared.outbox →
      statuses id (c.queuedBy { c with pool, shared }) = 0 := by
    intro hb
    refine statuses_of_same ?_
    rw [sent, sent, hb]
  obtain ⟨stage', hs', ⟨hpass, hbox⟩ | ⟨result, rfl, rfl, htold⟩⟩ := Pool.passage_of_step hp hs
  · refine ⟨stage', hs', .quiet hpass rfl ?_ rfl⟩
    rcases hbox with hbox | ⟨f, hf, hput⟩
    · exact same hbox
    · refine statuses_of_put? rfl hput ?_
      rw [statuses, List.countP_singleton, hf]
      rfl
  · refine ⟨.reporting, hs', ?_⟩
    cases htold with
    | sent f hf hput =>
        have hone : statuses id (c.queuedBy { c with pool, shared }) = 1 :=
          statuses_of_put? rfl hput ((statuses_of_status hf).trans (if_pos rfl))
        refine .told rfl (Nat.le_of_eq hone) (fun _ => ?_) rfl
        rw [hone, Frame.status_eq_ok_iff.1 ⟨f, hf⟩]
        rfl
    | closed f hf hclosed hb =>
        refine .told rfl (by rw [same hb]; exact Nat.zero_le 1) (fun hopen => ?_) rfl
        rw [hclosed] at hopen
        cases hopen
    | tooLarge e hf hb =>
        refine .told rfl (by rw [same hb]; exact Nat.zero_le 1) (fun _ => ?_) rfl
        have hfits : (Status.ofResult result).fits = false := by
          rw [← Bool.not_eq_true]
          intro hfits
          obtain ⟨f, hok⟩ := Frame.status_eq_ok_iff.2 hfits
          cases hf.symm.trans hok
        rw [same hb, hfits]
        rfl

/-- **Every step is a turn** for a supervised call that stays in the pool. -/
theorem turn_of_step {m : Move} {stage : CallStage ω σ} (hstep : Step s c m c')
    (hs : c.pool.standing? id = some (true, stage)) (hin : c'.pool.contains id = true) :
    ∃ stage', c'.pool.standing? id = some (true, stage') ∧ Turn s id c m c' stage stage' := by
  by_cases hm : ∃ move, m = .pool move
  · obtain ⟨move, rfl⟩ := hm
    cases hstep with
    | pool hp => exact turn_of_pool hp hs
  · refine ⟨stage, ?_, turn_of_other hstep (fun move h => hm ⟨move, h⟩) stage⟩
    rcases standing?_of_step hstep hs with h | h | ⟨-, hnone⟩
    · exact h
    · exact absurd h hm
    · rw [Pool.contains_eq, hnone] at hin
      cases hin

/-- No turn brings a status that is neither that of the call nor the answer to a refusal. -/
theorem Turn.most {m : Move} {stage stage' : CallStage ω σ} (ht : Turn s id c m c' stage stage') :
    statuses id (c.queuedBy c') + c'.refusing id + stage.isOver.toNat ≤
      c.refusing id + malformedCalls id (c.frameRead s m) + stage'.isOver.toNat := by
  cases ht with
  | quiet hp hw hq hr =>
      rw [hp.isOver_eq]
      omega
  | refused hw hw' hq hr => omega
  | answered hw hw' hq hr => omega
  | unheard hw hw' hq hr hc => omega
  | told hw hq hfits hr =>
      simp only [CallStage.isOver, Bool.toNat_true, Bool.toNat_false]
      omega

theorem Turn.waiting {m : Move} {stage stage' : CallStage ω σ}
    (ht : Turn s id c m c' stage stage') :
    c'.refusing id ≤ c.refusing id + malformedCalls id (c.frameRead s m) := by
  cases ht with
  | quiet | refused | answered | unheard | told => omega

/-- While the outbox is open, no turn loses the answer to a refusal, and the status of a call is
lost only if it does not fit. -/
theorem Turn.exact {m : Move} {stage stage' : CallStage ω σ}
    (ht : Turn s id c m c' stage stage') (hopen : c.shared.outbox.isOpen = true) :
    (stage'.isOver = stage.isOver ∧ statuses id (c.queuedBy c') + c'.refusing id =
        c.refusing id + malformedCalls id (c.frameRead s m)) ∨
      ∃ result, stage = .ended result ∧ stage' = .reporting ∧
        statuses id (c.queuedBy c') + c'.refusing id =
          c.refusing id + malformedCalls id (c.frameRead s m) +
            (Status.ofResult result).fits.toNat := by
  cases ht with
  | quiet hp hw hq hr => exact Or.inl ⟨hp.isOver_eq, by omega⟩
  | refused hw hw' hq hr => exact Or.inl ⟨rfl, by omega⟩
  | answered hw hw' hq hr => exact Or.inl ⟨rfl, by omega⟩
  | unheard hw hw' hq hr hc =>
      rw [hc] at hopen
      cases hopen
  | @told result hw hq hfits hr =>
      have := hfits hopen
      exact Or.inr ⟨result, rfl, rfl, by omega⟩

/-! ## Runs -/

/-- **The account of one number over a run**, under which a supervised call stands. No more statuses
are put into the outbox than malformed requests are refused, and one more when the task of the call
has ended in the run; and unless the outbox is closed, no fewer, except that the status of the call
must fit a frame. -/
structure Balance (s : Server ω σ) (id : UInt64) (c : Connection ω σ) (ms : List Move)
    (d : Connection ω σ) (stage stage' : CallStage ω σ) : Prop where
  most : statuses id (c.framesQueued s ms) + d.refusing id + stage.isOver.toNat ≤
    c.refusing id + malformedCalls id (c.framesRead s ms) + stage'.isOver.toNat
  waiting : d.refusing id ≤ c.refusing id + malformedCalls id (c.framesRead s ms)
  exact : d.shared.outbox.isOpen = true →
    (stage'.isOver = stage.isOver ∧
      statuses id (c.framesQueued s ms) + d.refusing id =
        c.refusing id + malformedCalls id (c.framesRead s ms)) ∨
    (stage.isOver = false ∧ stage'.isOver = true ∧
      ∃ result, (∃ e ∈ c.visited s ms, e.pool.standing? id = some (true, .ended result)) ∧
        statuses id (c.framesQueued s ms) + d.refusing id =
          c.refusing id + malformedCalls id (c.framesRead s ms) +
            (Status.ofResult result).fits.toNat)

/-- A closed outbox is not opened again. -/
theorem closed_of_step {m : Move} (hstep : Step s c m c') (hc : c.shared.outbox.isOpen = false) :
    c'.shared.outbox.isOpen = false := by
  cases hstep with
  | answer hs hp => exact absurd hp (Outbox.put?_of_closed hc)
  | failWriting => rfl
  | pool hp => exact Pool.closed_of_step hp hc
  | _ => exact hc

theorem open_of_run? {ms : List Move} (hr : c.run? s ms = some d)
    (ho : d.shared.outbox.isOpen = true) : c.shared.outbox.isOpen = true := by
  by_contra hc
  have hd := run?_induction (fun h hstep => closed_of_step hstep h) (eq_false_of_ne_true hc) hr
  rw [hd] at ho
  cases ho

/-- **The account balances** over every run along which the call stays in the pool. -/
theorem balance_of_run {ms : List Move} {stage : CallStage ω σ} (hr : c.run? s ms = some d)
    (hs : c.pool.standing? id = some (true, stage))
    (hin : ∀ e ∈ c.visited s ms, e.pool.contains id = true) :
    ∃ stage', d.pool.standing? id = some (true, stage') ∧ Balance s id c ms d stage stage' := by
  induction ms generalizing c stage with
  | nil =>
      cases hr
      refine ⟨stage, hs, ⟨?_, ?_, fun _ => Or.inl ⟨rfl, ?_⟩⟩⟩
      all_goals simp [framesQueued, framesRead, statuses, malformedCalls]
  | cons m ms ih =>
      obtain ⟨e, hm, hrest⟩ := run?_cons.1 hr
      rw [visited_cons hm] at hin
      have hine := hin e (List.mem_cons_of_mem _ (mem_visited_self e ms))
      obtain ⟨middle, hmid, hturn⟩ := turn_of_step (step_of_step? hm) hs hine
      obtain ⟨stage', hs', hbal⟩ :=
        ih hrest hmid fun k hk => hin k (List.mem_cons_of_mem _ hk)
      refine ⟨stage', hs', ?_⟩
      -- The turn of the first step goes before the account of the steps after it.
      obtain ⟨hmost, hwaiting, hexact⟩ := hbal
      have hmost1 := hturn.most
      have hwaiting1 := hturn.waiting
      constructor
      · rw [framesQueued_cons hm, framesRead_cons hm, statuses_append, malformedCalls_append]
        omega
      · rw [framesRead_cons hm, malformedCalls_append]
        omega
      · intro ho
        rw [framesQueued_cons hm, framesRead_cons hm, statuses_append, malformedCalls_append,
          visited_cons hm]
        -- The call tells its result in this step, later, or not at all.
        rcases hturn.exact (open_of_run? hr ho) with ⟨hsame1, heq1⟩ | ⟨result, rfl, rfl, heq1⟩
        · rw [← hsame1]
          rcases hexact ho with ⟨hsame, heq⟩ | ⟨hbefore, hafter, result, ⟨k, hk, hended⟩, heq⟩
          · exact Or.inl ⟨hsame, by omega⟩
          · refine Or.inr ⟨hbefore, hafter, result, ?_, by omega⟩
            exact ⟨k, List.mem_cons_of_mem _ hk, hended⟩
        · rcases hexact ho with ⟨hsame, heq⟩ | ⟨hbefore, -⟩
          · exact Or.inr ⟨rfl, hsame, result, ⟨c, List.mem_cons_self, hs⟩, by omega⟩
          · cases hbefore

end Connection

end DeviceGateway
