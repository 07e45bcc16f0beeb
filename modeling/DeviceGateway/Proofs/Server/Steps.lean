import DeviceGateway.Proofs.Call.PoolSteps
import DeviceGateway.Proofs.Frame.Stream
import DeviceGateway.Proofs.Wire.StatusSize
import DeviceGateway.Server.Connection

/-!
# Steps of a connection

Each thing that can happen to a connection, with what must hold before and what comes of it
(`step_of_step?`). In every state that is reached, the pool is kept well and every call in it is
supervised (`sound_of_run?`), so that a call leaves the pool only after its task is over
(`contains_of_step`). Once the loop leaves, it keeps its result to the end (`leaving?_of_run?`).
-/

namespace DeviceGateway.Connection

variable {ω σ : Type} {s : Server ω σ} {c c' d : Connection ω σ}

/-- **What a step of a connection does**: one case for each thing that can happen. -/
inductive Step (s : Server ω σ) (c : Connection ω σ) : Move → Connection ω σ → Prop where
  | arrive {data : Bytes} (ho : c.hungUp = false) :
      Step s c (.arrive data) { c with unread := c.unread ++ data }
  | hangUp : Step s c .hangUp { c with hungUp := true }
  | stop : Step s c .stop { c with pool := c.pool.cancelParent }
  | readFault {e : FrameFault} {rest : Bytes} (hs : c.stage = .serving)
      (hd : Frame.decode s.checksum c.unread = .fault e rest) :
      Step s c .read ({ c with unread := rest }.leave (.error e.toError))
  | readEnd (hs : c.stage = .serving) (hd : Frame.decode s.checksum c.unread = .more)
      (hh : c.hungUp = true) :
      Step s c .read (c.leave
        (if c.unread.isEmpty then .ok () else .error (.io "bytes remaining on stream")))
  | refuse {f g : Frame} {rest : Bytes} {e : GatewayError} (hs : c.stage = .serving)
      (hd : Frame.decode s.checksum c.unread = .frame f rest) (hk : f.kind = .call)
      (hp : (Payload.ofBytes f.payload : Except GatewayError CallRequest) = .error e)
      (hg : Frame.status f.callId (.ofError e) = .ok g) :
      Step s c .read { c with unread := rest, stage := .rejecting g }
  | duplicate {f : Frame} {rest : Bytes} {r : CallRequest} (hs : c.stage = .serving)
      (hd : Frame.decode s.checksum c.unread = .frame f rest) (hk : f.kind = .call)
      (hp : (Payload.ofBytes f.payload : Except GatewayError CallRequest) = .ok r)
      (hl : c.pool.contains f.callId = true) :
      Step s c .read ({ c with unread := rest }.leave
        (.error (.protocol s!"duplicate call id {f.callId.toNat}")))
  | accept {f : Frame} {rest : Bytes} {r : CallRequest} {pool : Pool ω σ} (hs : c.stage = .serving)
      (hd : Frame.decode s.checksum c.unread = .frame f rest) (hk : f.kind = .call)
      (hp : (Payload.ofBytes f.payload : Except GatewayError CallRequest) = .ok r)
      (hl : c.pool.spawn f.callId true (.opening (s.accept r)) = .ok pool) :
      Step s c .read { c with unread := rest, pool }
  | message {f : Frame} {rest : Bytes} (hs : c.stage = .serving)
      (hd : Frame.decode s.checksum c.unread = .frame f rest) (hk : f.kind = .message) :
      Step s c .read { c with unread := rest, stage := .feeding f.callId f.payload }
  | halfClose {f : Frame} {rest : Bytes} (hs : c.stage = .serving)
      (hd : Frame.decode s.checksum c.unread = .frame f rest) (hk : f.kind = .halfClose) :
      Step s c .read { c with unread := rest, pool := c.pool.halfClose f.callId }
  | cancel {f : Frame} {rest : Bytes} (hs : c.stage = .serving)
      (hd : Frame.decode s.checksum c.unread = .frame f rest) (hk : f.kind = .cancel) :
      Step s c .read { c with unread := rest, pool := c.pool.cancel f.callId }
  | status {f : Frame} {rest : Bytes} (hs : c.stage = .serving)
      (hd : Frame.decode s.checksum c.unread = .frame f rest) (hk : f.kind = .status) :
      Step s c .read { c with unread := rest }
  | notice {id : UInt64} {pool : Pool ω σ} (hs : c.stage = .serving)
      (hn : c.pool.notice? = some (id, pool)) : Step s c .notice { c with pool }
  | heed (hs : c.stage = .serving) (hw : c.pool.allWithdrawn = true) :
      Step s c .heed (c.leave (.ok ()))
  | feed {id : UInt64} {m : Bytes} {pool : Pool ω σ} (hs : c.stage = .feeding id m)
      (hf : c.pool.feed? id m = some pool) : Step s c .proceed { c with pool, stage := .serving }
  | answer {g : Frame} {outbox : Outbox} (hs : c.stage = .rejecting g)
      (hp : c.shared.outbox.put? g = some (.ok outbox)) :
      Step s c .proceed { c with shared := { c.shared with outbox }, stage := .serving }
  | unheard {g : Frame} (hs : c.stage = .rejecting g) (hc : c.shared.outbox.isOpen = false) :
      Step s c .proceed { c with stage := .serving }
  | tear {t : Pool.TeardownStep} {ts : List Pool.TeardownStep} {result : Except GatewayError Unit}
      (hs : c.stage = .withdrawing (t :: ts) result) :
      Step s c .proceed { c with pool := c.pool.tear t, stage := .withdrawing ts result }
  | torn {result : Except GatewayError Unit} (hs : c.stage = .withdrawing [] result) :
      Step s c .proceed { c with stage := .joining result }
  | join {result : Except GatewayError Unit} (hs : c.stage = .joining result)
      (hg : c.pool.calls.all (·.stage.isGone) = true) :
      Step s c .proceed { c with stage := .flushing result }
  | flush {result : Except GatewayError Unit} (hs : c.stage = .flushing result)
      (hq : c.shared.outbox.queue = []) : Step s c .proceed { c with stage := .closed result }
  | write {f : Frame} {rest : List Frame} (hq : c.shared.outbox.queue = f :: rest) :
      Step s c .write
        { c with shared := { c.shared with outbox := { c.shared.outbox with queue := rest } }
                 written := c.written ++ [f] }
  | failWriting :
      Step s c .failWriting { c with shared := { c.shared with outbox := c.shared.outbox.close } }
  | pool {m : Pool.Move} {pool : Pool ω σ} {shared : Shared ω}
      (hp : Pool.Step s.handler c.pool c.shared m pool shared) :
      Step s c (.pool m) { c with pool, shared }

/-! ## Inversion -/

theorem isServing_iff : c.isServing = true ↔ c.stage = .serving := by
  unfold isServing
  split
  · next h => simp only [h]
  · next h => exact ⟨nofun, fun hs => absurd hs h⟩

theorem step_of_read? (hs : c.stage = .serving) (hr : c.read? s = some c') : Step s c .read c' := by
  unfold read? at hr
  split at hr
  · next f rest hd =>
    cases hr
    unfold dispatch
    split
    · next hk =>
      unfold openCall
      split
      · next e hp =>
        obtain ⟨g, hg⟩ := f.status_of_malformed hp
        unfold reject
        rw [hg]
        exact .refuse hs hd hk hp hg
      · next r hp =>
        split
        · next hl => exact .duplicate hs hd hk hp hl
        · next hfree =>
          have hspawn := Pool.spawn_of_free true (.opening (s.accept r))
            (eq_false_of_ne_true hfree)
          rw [hspawn]
          exact .accept hs hd hk hp hspawn
    · next hk => exact .message hs hd hk
    · next hk => exact .halfClose hs hd hk
    · next hk => exact .cancel hs hd hk
    · next hk => exact .status hs hd hk
  · next e rest hd =>
    cases hr
    exact .readFault hs hd
  · next hd =>
    split at hr
    · cases hr
    · next hh =>
      have hh : c.hungUp = true := by simpa using hh
      have hend : Step s c .read _ := .readEnd hs hd hh
      split at hr
      · next he =>
        rw [if_pos he] at hend
        cases hr
        exact hend
      · next he =>
        rw [if_neg he] at hend
        cases hr
        exact hend

theorem step_of_proceed? (hp : c.proceed? = some c') : Step s c .proceed c' := by
  unfold proceed? at hp
  split at hp
  · cases hp
  · cases hp
  · next id m hs =>
    rw [Option.map_eq_some_iff] at hp
    obtain ⟨pool, hf, rfl⟩ := hp
    exact .feed hs hf
  · next g hs =>
    split at hp
    · cases hp
    · next e hput =>
      cases hp
      exact .unheard hs (Outbox.put?_eq_error_iff.1 hput).1
    · next outbox hput =>
      cases hp
      exact .answer hs hput
  · next t ts result hs =>
    cases hp
    exact .tear hs
  · next result hs =>
    cases hp
    exact .torn hs
  · next result hs =>
    split at hp
    · next hg =>
      cases hp
      exact .join hs hg
    · cases hp
  · next result hs =>
    split at hp
    · next hq =>
      cases hp
      exact .flush hs (List.isEmpty_iff.1 hq)
    · cases hp

theorem step_of_step? {m : Move} (hp : c.step? s m = some c') : Step s c m c' := by
  cases m with
  | arrive data =>
      simp only [step?] at hp
      split at hp
      · cases hp
      · next ho =>
        cases hp
        exact .arrive (eq_false_of_ne_true ho)
  | hangUp => cases hp; exact .hangUp
  | stop => cases hp; exact .stop
  | read =>
      simp only [step?] at hp
      split at hp
      · next hs => exact step_of_read? (isServing_iff.1 hs) hp
      · cases hp
  | notice =>
      simp only [step?] at hp
      split at hp
      · next hs =>
        rw [Option.map_eq_some_iff] at hp
        obtain ⟨⟨id, pool⟩, hn, rfl⟩ := hp
        exact .notice (isServing_iff.1 hs) hn
      · cases hp
  | heed =>
      simp only [step?] at hp
      split at hp
      · next hs =>
        rw [Bool.and_eq_true] at hs
        cases hp
        exact .heed (isServing_iff.1 hs.1) hs.2
      · cases hp
  | proceed => exact step_of_proceed? hp
  | write =>
      simp only [step?, write?, Outbox.take?] at hp
      split at hp
      · cases hp
      · next f rest hq =>
        cases hp
        exact .write hq
  | failWriting => cases hp; exact .failWriting
  | pool m =>
      simp only [step?, Option.map_eq_some_iff] at hp
      obtain ⟨⟨pool, shared⟩, hm, rfl⟩ := hp
      exact .pool (Pool.step_of_step? hm)

/-! ## Octets and frames -/

/-- A step in which the connection takes no octets in and gives no frames out. -/
def Move.isInside : Move → Bool
  | .notice | .heed | .proceed | .pool _ => true
  | .arrive _ | .hangUp | .stop | .read | .write | .failWriting => false

theorem Step.inside_keeps {m : Move} (h : Step s c m c') (hm : m.isInside = true) :
    c'.unread = c.unread ∧ c'.hungUp = c.hungUp ∧ c'.written = c.written := by
  cases h with
  | notice | heed | feed | answer | unheard | tear | torn | join | flush | pool =>
      exact ⟨rfl, rfl, rfl⟩
  | _ => cases hm

/-- Without a whole frame nothing is read as long as the caller stays. -/
theorem not_read_of_more (hd : Frame.decode s.checksum c.unread = .more) (hh : c.hungUp = false) :
    ¬ Step s c .read c' := by
  intro h
  cases h with
  | readEnd _ _ hgone =>
      rw [hh] at hgone
      cases hgone
  | readFault _ hd' | refuse _ hd' | duplicate _ hd' | accept _ hd' | message _ hd' | halfClose _ hd'
  | cancel _ hd' | status _ hd' =>
      rw [hd] at hd'
      cases hd'

/-- A frame that is read is taken off the octets. -/
theorem Step.read_keeps {f : Frame} {rest : Bytes} (h : Step s c .read c')
    (hd : Frame.decode s.checksum c.unread = .frame f rest) :
    c'.unread = rest ∧ c'.hungUp = c.hungUp ∧ c'.written = c.written := by
  cases h with
  | readFault _ hd' | readEnd _ hd' =>
      rw [hd] at hd'
      cases hd'
  | refuse _ hd' | duplicate _ hd' | accept _ hd' | message _ hd' | halfClose _ hd'
  | cancel _ hd' | status _ hd' =>
      rw [hd] at hd'
      cases hd'
      exact ⟨rfl, rfl, rfl⟩

/-- **Reading a frame is dispatching it**, and only a loop that serves reads. -/
theorem Step.eq_dispatch {f : Frame} {rest : Bytes} (h : Step s c .read c')
    (hd : Frame.decode s.checksum c.unread = .frame f rest) :
    c.stage = .serving ∧ c' = { c with unread := rest }.dispatch s f := by
  cases h with
  | readFault _ hd' | readEnd _ hd' =>
      rw [hd] at hd'
      cases hd'
  | refuse hs hd' hk hp hg =>
      rw [hd] at hd'
      cases hd'
      exact ⟨hs, by simp only [dispatch, hk, openCall, hp, reject, hg]⟩
  | duplicate hs hd' hk hp hl =>
      rw [hd] at hd'
      cases hd'
      exact ⟨hs, by simp only [dispatch, hk, openCall, hp, hl, if_true]⟩
  | accept hs hd' hk hp hl =>
      rw [hd] at hd'
      cases hd'
      have hfree := (Pool.spawn_eq_ok_iff.1 hl).1
      exact ⟨hs, by simp only [dispatch, hk, openCall, hp, hfree, hl, Bool.false_eq_true, if_false]⟩
  | message hs hd' hk | halfClose hs hd' hk | cancel hs hd' hk | status hs hd' hk =>
      rw [hd] at hd'
      cases hd'
      exact ⟨hs, by simp only [dispatch, hk]⟩

/-! ## Reading a call -/

/-- **The loop is about to read a frame.** -/
structure Reads (s : Server ω σ) (c : Connection ω σ) (f : Frame) (rest : Bytes) : Prop where
  serving : c.stage = .serving
  decoded : Frame.decode s.checksum c.unread = .frame f rest

section Reading

variable {f : Frame} {rest : Bytes}

theorem reads_toBytes (hs : c.stage = .serving) (hu : c.unread = f.toBytes s.checksum ++ rest) :
    c.Reads s f rest := by
  refine ⟨hs, ?_⟩
  rw [hu, Frame.decode_toBytes_append]

theorem reads_last (hs : c.stage = .serving) (hu : c.unread = f.toBytes s.checksum) :
    c.Reads s f [] := reads_toBytes hs (hu.trans (List.append_nil _).symm)

theorem step?_read (hread : c.Reads s f rest) :
    c.step? s .read = some ({ c with unread := rest }.dispatch s f) := by
  rw [step?, if_pos (isServing_iff.2 hread.serving), read?, hread.decoded]

/-- A request under a free number is accepted. -/
theorem step?_accept {r : CallRequest} (hread : c.Reads s f rest) (hk : f.kind = .call)
    (hp : (Payload.ofBytes f.payload : Except GatewayError CallRequest) = .ok r)
    (hfree : c.pool.contains f.callId = false) :
    ∃ pool, c.pool.spawn f.callId true (.opening (s.accept r)) = .ok pool ∧
      c.step? s .read = some { c with unread := rest, pool } := by
  have hspawn := Pool.spawn_of_free true (.opening (s.accept r)) hfree
  refine ⟨_, hspawn, ?_⟩
  rw [step?_read hread, dispatch, hk]
  simp only [openCall, hp, hfree, hspawn, Bool.false_eq_true, if_false]

/-- A request under a number that is in use makes the loop leave. -/
theorem step?_duplicate {r : CallRequest} (hread : c.Reads s f rest) (hk : f.kind = .call)
    (hp : (Payload.ofBytes f.payload : Except GatewayError CallRequest) = .ok r)
    (hlive : c.pool.contains f.callId = true) :
    c.step? s .read = some ({ c with unread := rest }.leave
      (.error (.protocol s!"duplicate call id {f.callId.toNat}"))) := by
  rw [step?_read hread, dispatch, hk]
  simp only [openCall, hp, hlive, if_true]

/-- A message waits for room in the inbox of its call. -/
theorem step?_message (hread : c.Reads s f rest) (hk : f.kind = .message) :
    c.step? s .read = some { c with unread := rest, stage := .feeding f.callId f.payload } := by
  rw [step?_read hread, dispatch, hk]

/-- A malformed request is refused with a status, whatever number it comes under. -/
theorem step?_refuse {e : GatewayError} (hread : c.Reads s f rest) (hk : f.kind = .call)
    (hp : (Payload.ofBytes f.payload : Except GatewayError CallRequest) = .error e) :
    ∃ g, Frame.status f.callId (.ofError e) = .ok g ∧
      c.step? s .read = some { c with unread := rest, stage := .rejecting g } := by
  obtain ⟨g, hg⟩ := f.status_of_malformed hp
  refine ⟨g, hg, ?_⟩
  rw [step?_read hread, dispatch, hk]
  simp only [openCall, hp, reject, hg]

end Reading

/-- The status of a refusal goes into the outbox, if there is room. -/
theorem step?_answer {g : Frame} (hs : c.stage = .rejecting g)
    (ho : c.shared.outbox.isOpen = true)
    (hroom : c.shared.outbox.queue.length < c.shared.outbox.capacity) :
    let outbox := { c.shared.outbox with queue := c.shared.outbox.queue ++ [g] }
    c.step? s .proceed =
      some { c with shared := { c.shared with outbox }, stage := .serving } := by
  intro outbox
  have hput : c.shared.outbox.put? g = some (.ok outbox) :=
    Outbox.put?_eq_ok_iff.2 ⟨ho, hroom, rfl⟩
  simp only [step?, proceed?, hs, hput]

/-! ## A call takes a step -/

theorem step?_poll {id : UInt64} {call call' : Call ω σ} {shared : Shared ω}
    (hcall : c.pool.call? id = some call)
    (hp : call.poll? s.handler c.pool.allWithdrawn c.shared = some (call', shared)) :
    c.step? s (.pool (.poll id)) = some { c with pool := c.pool.replace call', shared } := by
  simp only [step?, Pool.step?, Pool.act?, hcall, hp, Option.map_some]

theorem step?_carry {id : UInt64} {call call' : Call ω σ} {shared : Shared ω}
    (hcall : c.pool.call? id = some call) (hp : call.carry? c.shared = some (call', shared)) :
    c.step? s (.pool (.carry id)) = some { c with pool := c.pool.replace call', shared } := by
  simp only [step?, Pool.step?, Pool.act?, hcall, hp, Option.map_some]

theorem poll_refused {id : UInt64} {call : Call ω σ} {e : GatewayError}
    (hc : c.pool.call? id = some call)
    (hst : call.stage = .refused e) :
    c.step? s (.pool (.poll id)) =
      some { c with pool := c.pool.replace (call.conclude (.error e)) } := by
  exact step?_poll hc (Call.poll?_of_refused hst)

theorem poll_ended {id : UInt64} {call call' : Call ω σ} {shared : Shared ω}
    {result : Except GatewayError Unit}
    (hc : c.pool.call? id = some call) (hst : call.stage = .ended result)
    (ht : call.tell? c.shared result = some (call', shared)) :
    c.step? s (.pool (.poll id)) = some { c with pool := c.pool.replace call', shared } := by
  exact step?_poll hc ((Call.poll?_of_ended hst).trans ht)

/-- A call that is withdrawn is dropped where it stands. -/
theorem poll_withdrawn {id : UInt64} {call : Call ω σ} (hcall : c.pool.call? id = some call)
    (hsup : call.supervised = true) (hw : call.withdrawn = true) (hl : call.stage.isLive = true) :
    c.step? s (.pool (.poll id)) =
      some { c with pool := c.pool.replace (call.conclude (.error .cancelled))
                    shared := (call.abandon s.handler c.shared).2 } := by
  refine step?_poll hcall (Call.poll?_of_cancelled ?_)
  rw [Call.isCancelled, hsup, hw, hl, Bool.true_or, Bool.and_self, Bool.and_self]

/-! ## Runs -/

theorem run?_cons {m : Move} {ms : List Move} :
    c.run? s (m :: ms) = some d ↔ ∃ e, c.step? s m = some e ∧ e.run? s ms = some d := by
  rw [run?, Option.bind_eq_some_iff]

/-- **What every step keeps, every run keeps.** -/
theorem run?_induction {P : Connection ω σ → Prop}
    (keeps : ∀ {c c' m}, P c → Step s c m c' → P c') {ms : List Move} (hc : P c)
    (hr : c.run? s ms = some d) : P d := by
  induction ms generalizing c with
  | nil =>
      cases hr
      exact hc
  | cons m ms ih =>
      obtain ⟨e, hm, hr⟩ := run?_cons.1 hr
      exact ih (keeps hc (step_of_step? hm)) hr

theorem run?_append {ms ns : List Move} (hm : c.run? s ms = some c') (hn : c'.run? s ns = some d) :
    c.run? s (ms ++ ns) = some d := by
  induction ms generalizing c with
  | nil =>
      cases hm
      exact hn
  | cons m ms ih =>
      obtain ⟨e, he, hm⟩ := run?_cons.1 hm
      exact run?_cons.2 ⟨e, he, ih hm⟩

/-- **Something holds of every step of a run**, in the state in which it is taken. -/
def Throughout (s : Server ω σ) (P : Connection ω σ → Move → Prop) (c : Connection ω σ) :
    List Move → Prop
  | [] => True
  | m :: ms => P c m ∧ match c.step? s m with
    | none => True
    | some c' => Throughout s P c' ms

instance Throughout.decidable {P : Connection ω σ → Move → Prop} [∀ c m, Decidable (P c m)]
    (c : Connection ω σ) : (ms : List Move) → Decidable (Throughout s P c ms)
  | [] => isTrue trivial
  | m :: ms =>
    have : Decidable (match c.step? s m with
        | none => True
        | some c' => Throughout s P c' ms) :=
      match c.step? s m with
      | none => isTrue trivial
      | some c' => Throughout.decidable c' ms
    inferInstanceAs (Decidable (_ ∧ _))

theorem throughout_cons {P : Connection ω σ → Move → Prop} {m : Move} {ms : List Move}
    (hm : c.step? s m = some c') :
    Throughout s P c (m :: ms) ↔ P c m ∧ Throughout s P c' ms := by
  rw [Throughout, hm]

theorem throughout_of_forall {P : Connection ω σ → Move → Prop} {ms : List Move}
    (h : ∀ m ∈ ms, ∀ c, P c m) (c : Connection ω σ) : Throughout s P c ms := by
  induction ms generalizing c with
  | nil => trivial
  | cons m ms ih =>
      obtain ⟨hm, hms⟩ := List.forall_mem_cons.1 h
      refine ⟨hm c, ?_⟩
      cases c.step? s m with
      | none => trivial
      | some c' => exact ih hms c'

/-- A step of the pool that is no step of the call with a number. -/
def Move.isOthers (id : UInt64) : Move → Bool
  | .pool move => move.caller? != some id
  | _ => false

/-- Only steps of the pool work on the world. -/
theorem Step.world_outside {m : Move} (hstep : Step s c m c') (hm : ∀ move, m ≠ .pool move) :
    c'.shared.world = c.shared.world ∧ c'.shared.orphans = c.shared.orphans := by
  cases hstep with
  | pool => exact absurd rfl (hm _)
  | _ => exact ⟨rfl, rfl⟩

/-- Some run leads from one state to another. -/
def Reaches (s : Server ω σ) (c d : Connection ω σ) : Prop := ∃ ms, c.run? s ms = some d

namespace Reaches

theorem refl (c : Connection ω σ) : Reaches s c c := ⟨[], rfl⟩

theorem trans {e : Connection ω σ} : Reaches s c d → Reaches s d e → Reaches s c e := by
  rintro ⟨ms, hm⟩ ⟨ns, hn⟩
  exact ⟨ms ++ ns, run?_append hm hn⟩

theorem of_step {m : Move} (hm : c.step? s m = some d) : Reaches s c d :=
  ⟨[m], run?_cons.2 ⟨d, hm, rfl⟩⟩

/-- What every step keeps holds in every state that is reached. -/
theorem keeps {P : Connection ω σ → Prop} (hr : Reaches s c d)
    (keeps : ∀ {c c' m}, P c → Step s c m c' → P c') (hc : P c) : P d := by
  obtain ⟨ms, hm⟩ := hr
  exact run?_induction keeps hc hm

end Reaches

/-! ## Calls in the pool -/

/-- **A sound state**: the pool is kept well, and every call in it is supervised. -/
structure Sound (c : Connection ω σ) : Prop where
  kept : c.pool.WellKept
  supervised : ∀ {id sup stage}, c.pool.standing? id = some (sup, stage) → sup = true

theorem sound_start (world : ω) : (start world : Connection ω σ).Sound where
  kept := .empty
  supervised := nofun

theorem Sound.of_pool (hc : c.Sound) (hs : c'.pool.standing? = c.pool.standing?)
    (he : c'.pool.events = c.pool.events) : c'.Sound where
  kept := hc.kept.of_standing? hs he
  supervised h := hc.supervised (hs ▸ h)

theorem Sound.step {m : Move} (hc : c.Sound) (hstep : Step s c m c') : c'.Sound := by
  cases hstep with
  | halfClose hs hd hk => exact hc.of_pool (Pool.standing?_halfClose _ _) rfl
  | cancel hs hd hk => exact hc.of_pool (Pool.standing?_cancel _ _) rfl
  | feed hs hf => exact hc.of_pool (Pool.standing?_feed? hf) (Pool.events_feed? hf)
  | tear hs => exact hc.of_pool (Pool.standing?_tear _ _) (Pool.events_tear _ _)
  | @accept f rest r pool _ _ _ _ hl =>
      refine ⟨hc.kept.spawn hl ?_, ?_⟩
      -- A call begins with a handler or refused, but not gone.
      · cases s.accept r <;> nofun
      · intro id sup stage h
        have h : pool.standing? id = some (sup, stage) := h
        rw [Pool.standing?_spawn hl] at h
        by_cases hi : id = f.callId
        · subst hi
          rw [Function.update_self] at h
          cases h
          rfl
        · rw [Function.update_of_ne hi] at h
          exact hc.supervised h
  | @notice i pool _ hn =>
      refine ⟨(hc.kept.notice hn).1, ?_⟩
      intro id sup stage h
      have h : pool.standing? id = some (sup, stage) := h
      rw [Pool.standing?_notice hn] at h
      by_cases hi : id = i
      · subst hi
        rw [Function.update_self] at h
        cases h
      · rw [Function.update_of_ne hi] at h
        exact hc.supervised h
  | pool hp =>
      refine ⟨hc.kept.step hp, ?_⟩
      intro id sup stage h
      obtain ⟨before, hb⟩ := Pool.supervised_of_step hp h
      exact hc.supervised hb
  | _ => exact hc.of_pool rfl rfl

/-- A connection that has just been accepted, and on which octets have arrived. -/
def arrived (world : ω) (data : Bytes) : Connection ω σ := { start world with unread := data }

theorem step?_arrive (world : ω) (data : Bytes) :
    (start world).step? s (.arrive data) = some (arrived world data) := rfl

theorem run?_arrive (world : ω) (data : Bytes) :
    (start world).run? s [.arrive data] = some (arrived world data) := rfl

/-- A connection with one call, which has just been accepted. -/
def withCall (world : ω) (id : UInt64) (job : Job ω σ) : Connection ω σ :=
  { (start world : Connection ω σ) with pool := ⟨[.start id true (.starting job)], false, []⟩ }

/-- **A request that has arrived is accepted**, if there is a handler for it. -/
theorem step?_arrived {world : ω} {f : Frame} {r : CallRequest} {job : Job ω σ}
    (hk : f.kind = .call)
    (hp : (Payload.ofBytes f.payload : Except GatewayError CallRequest) = .ok r)
    (haccept : s.accept r = .ok job) :
    (arrived world (f.toBytes s.checksum)).step? s .read = some (withCall world f.callId job) := by
  have hread : (arrived world (f.toBytes s.checksum)).Reads s f [] := reads_last rfl rfl
  obtain ⟨pool, hspawn, hstep⟩ := step?_accept hread hk hp rfl
  rw [haccept] at hspawn
  cases hspawn
  exact hstep

theorem sound_arrived (world : ω) (data : Bytes) : (arrived world data : Connection ω σ).Sound :=
  (sound_start world).of_pool rfl rfl

/-- **Every state that is reached is sound.** -/
theorem sound_of_run? {world : ω} {ms : List Move} (hr : (start world).run? s ms = some c) :
    c.Sound := run?_induction Sound.step (sound_start world) hr

/-- Whether the task of the call with a number is over. -/
def isOver (c : Connection ω σ) (id : UInt64) : Bool :=
  (c.pool.standing? id).any (·.2.isOver)

/-- What is no step of the pool leaves a call as it stands, unless notice is taken of its end. -/
theorem standing?_of_step {m : Move} (hstep : Step s c m c') {id : UInt64}
    {stage : CallStage ω σ} (hs : c.pool.standing? id = some (true, stage)) :
    c'.pool.standing? id = some (true, stage) ∨ (∃ move, m = .pool move) ∨
      (∃ pool, c.pool.notice? = some (id, pool)) ∧ c'.pool.standing? id = none := by
  cases hstep with
  | halfClose _ _ _ => exact Or.inl (by rw [Pool.standing?_halfClose, hs])
  | cancel _ _ _ => exact Or.inl (by rw [Pool.standing?_cancel, hs])
  | feed _ hf => exact Or.inl (by rw [Pool.standing?_feed? hf, hs])
  | tear _ => exact Or.inl (by rw [Pool.standing?_tear, hs])
  | @accept f rest r pool _ _ _ _ hl =>
      have hne : id ≠ f.callId := by
        rintro rfl
        have hfree := (Pool.spawn_eq_ok_iff.1 hl).1
        rw [Pool.contains_eq, hs] at hfree
        cases hfree
      exact Or.inl (by rw [Pool.standing?_spawn hl, Function.update_of_ne hne, hs])
  | @notice i pool _ hn =>
      by_cases hi : id = i
      · subst hi
        refine Or.inr (Or.inr ⟨⟨pool, hn⟩, ?_⟩)
        rw [Pool.standing?_notice hn, Function.update_self]
      · exact Or.inl (by rw [Pool.standing?_notice hn, Function.update_of_ne hi, hs])
  | pool hp => exact Or.inr (Or.inl ⟨_, rfl⟩)
  | _ => exact Or.inl hs

/-- **A call leaves the pool only after its task is over.** -/
theorem contains_of_step {m : Move} (hc : c.Sound) (hstep : Step s c m c') {id : UInt64}
    (hin : c.pool.contains id = true) (hover : c.isOver id = false) :
    c'.pool.contains id = true := by
  rw [Pool.contains_eq, Option.isSome_iff_exists] at hin
  obtain ⟨⟨sup, stage⟩, hs⟩ := hin
  obtain rfl := hc.supervised hs
  rw [Pool.contains_eq, Option.isSome_iff_exists]
  rcases standing?_of_step hstep hs with h | ⟨move, rfl⟩ | ⟨⟨pool, hn⟩, -⟩
  · exact ⟨_, h⟩
  · cases hstep with
    | pool hp =>
        obtain ⟨stage', hs', -⟩ := Pool.passage_of_step hp hs
        exact ⟨_, hs'⟩
  · -- Notice is taken only of a call that is gone.
    obtain ⟨-, sup, hg⟩ := hc.kept.notice hn
    rw [isOver, hg] at hover
    cases hover

/-! ## Leaving -/

/-- The result that the loop has left with. -/
def leaving? (c : Connection ω σ) : Option (Except GatewayError Unit) :=
  match c.stage with
  | .withdrawing _ result | .joining result | .flushing result | .closed result => some result
  | .serving | .feeding .. | .rejecting _ => none

theorem leaving?_of_step {m : Move} {result : Except GatewayError Unit}
    (hl : c.leaving? = some result) (hstep : Step s c m c') : c'.leaving? = some result := by
  have hno : ∀ {stage : LoopStage}, c.stage = stage →
      { c with stage := stage }.leaving? = some result := by
    rintro stage rfl
    exact hl
  cases hstep with
  | readFault hs | readEnd hs | refuse hs | duplicate hs | accept hs | message hs | halfClose hs
  | cancel hs | status hs | notice hs | heed hs | feed hs | answer hs | unheard hs => cases hno hs
  | tear hs | torn hs | join hs | flush hs =>
      have h := hno hs
      exact h
  | _ => exact hl

/-- **A loop that leaves keeps its result** to the end. -/
theorem leaving?_of_run? {ms : List Move} {result : Except GatewayError Unit}
    (hl : c.leaving? = some result) (hr : c.run? s ms = some d) : d.leaving? = some result :=
  run?_induction leaving?_of_step hl hr

end DeviceGateway.Connection
