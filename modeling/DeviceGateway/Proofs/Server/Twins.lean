import DeviceGateway.Proofs.Call.Twins
import DeviceGateway.Proofs.Server.Statuses

/-!
# Connections on worlds that are alike

Two connections whose calls are twins and which have read and written the same go on in step: whatever
one of them can do, the other can do as well, and they have read and written the same again
(`Twin.run`). So what a caller is told depends on nothing but what the two worlds have in common. This
holds as long as the calls that are opened start with jobs that cannot tell like worlds apart
(`Server.Respects`).
-/

namespace DeviceGateway

variable {ω σ : Type} {R : ω → ω → Prop} {A : σ → σ → Prop} {allowed : CallRequest → Prop}

/-- If a frame opens a call, the request is one of those that are allowed. -/
def Frame.OpensOnly (allowed : CallRequest → Prop) (f : Frame) : Prop :=
  f.kind = .call →
    ∀ r, (Payload.ofBytes f.payload : Except GatewayError CallRequest) = .ok r → allowed r

/-- **A server that cannot tell like worlds apart**, as long as nothing else is asked of it than what
is allowed. -/
structure Server.Respects (s : Server ω σ) (R : ω → ω → Prop) (A : σ → σ → Prop)
    (allowed : CallRequest → Prop) : Prop where
  handler : s.handler.Respects R A
  accept : ∀ r job, allowed r → s.accept r = .ok job → Job.Twin R A job job

namespace Connection

/-- **Twin connections**: nobody can tell them apart from outside. -/
inductive Twin (R : ω → ω → Prop) (A : σ → σ → Prop) : Connection ω σ → Connection ω σ → Prop
  | mk (stage : LoopStage) (unread : Bytes) (hungUp : Bool) (written : List Frame)
      {p p' : Pool ω σ} {s s' : Shared ω} (pool : Pool.Twin R A p p') (shared : Shared.Twin R s s') :
      Twin R A ⟨p, s, stage, unread, hungUp, written⟩ ⟨p', s', stage, unread, hungUp, written⟩

variable {s : Server ω σ} {c c' d : Connection ω σ} {w w' : ω}

namespace Twin

theorem start (hw : R w w') : Twin R A (start w) (start w') :=
  .mk _ _ _ _ (.mk false [] .nil) (.mk _ hw .nil)

theorem leave (hc : Twin R A c c') (result : Except GatewayError Unit) :
    Twin R A (c.leave result) (c'.leave result) := by
  cases hc with
  | mk stage unread hungUp written pool shared =>
      unfold Connection.leave
      rw [pool.teardown]
      exact .mk _ _ _ _ pool shared

theorem reject (hc : Twin R A c c') (id : UInt64) (e : GatewayError) :
    Twin R A (c.reject id e) (c'.reject id e) := by
  unfold Connection.reject
  split
  · exact hc
  · cases hc with
    | mk stage unread hungUp written pool shared => exact .mk _ _ _ _ pool shared

/-- **Both loops open the call**, or refuse it. -/
theorem openCall (hs : s.Respects R A allowed) (hc : Twin R A c c') (id : UInt64) {payload : Bytes}
    (hallowed : ∀ r, (Payload.ofBytes payload : Except GatewayError CallRequest) = .ok r → allowed r) :
    Twin R A (c.openCall s id payload) (c'.openCall s id payload) := by
  have hon := hc
  cases hc with
  | mk stage unread hungUp written pool shared =>
  unfold Connection.openCall
  cases hr : (Payload.ofBytes payload : Except GatewayError CallRequest) with
  | error e => exact hon.reject id e
  | ok r =>
      dsimp only
      rw [pool.contains]
      split
      · exact hon.leave _
      · have hopening : CallStage.Twin R A (.opening (s.accept r)) (.opening (s.accept r)) :=
          .opening fun job hjob => hs.accept r job (hallowed r hr) hjob
        rcases pool.spawn id true hopening with ⟨e, he, he'⟩ | ⟨q, q', hq, hq', hpool⟩
        · rw [he, he']
          exact hon.reject id e
        · rw [hq, hq']
          exact .mk _ _ _ _ hpool shared

theorem dispatch (hs : s.Respects R A allowed) (hc : Twin R A c c') {f : Frame}
    (hf : f.OpensOnly allowed) : Twin R A (c.dispatch s f) (c'.dispatch s f) := by
  have hon := hc
  cases hc with
  | mk stage unread hungUp written pool shared =>
  unfold Connection.dispatch
  cases hk : f.kind with
  | call => exact hon.openCall hs f.callId (hf hk)
  | message => exact .mk _ _ _ _ pool shared
  | halfClose => exact .mk _ _ _ _ (pool.halfClose _) shared
  | cancel => exact .mk _ _ _ _ (pool.cancel _) shared
  | status => exact hon

theorem read? (hs : s.Respects R A allowed) (hc : Twin R A c c')
    (hf : ∀ f rest, Frame.decode s.checksum c.unread = .frame f rest → f.OpensOnly allowed) :
    Option.Rel (Twin R A) (c.read? s) (c'.read? s) := by
  have hon := hc
  cases hc with
  | mk stage unread hungUp written pool shared =>
  unfold Connection.read?
  dsimp only at hf ⊢
  cases hd : Frame.decode s.checksum unread with
  | frame f rest =>
      have hread : Twin R A ⟨_, _, stage, rest, hungUp, written⟩ ⟨_, _, stage, rest, hungUp, written⟩ :=
        .mk stage rest hungUp written pool shared
      exact .some (hread.dispatch hs (hf f rest hd))
  | fault e rest =>
      have hread : Twin R A ⟨_, _, stage, rest, hungUp, written⟩ ⟨_, _, stage, rest, hungUp, written⟩ :=
        .mk stage rest hungUp written pool shared
      exact .some (hread.leave _)
  | more =>
      dsimp only
      split
      · exact .none
      · split
        · exact .some (hon.leave _)
        · exact .some (hon.leave _)

theorem proceed? (hc : Twin R A c c') : Option.Rel (Twin R A) c.proceed? c'.proceed? := by
  cases hc with
  | mk stage unread hungUp written pool shared =>
  unfold Connection.proceed?
  cases stage with
  | serving | closed => exact .none
  | feeding id m =>
      have hfeed := pool.feed? id m
      dsimp only
      generalize Pool.feed? _ id m = x at hfeed ⊢
      generalize Pool.feed? _ id m = x' at hfeed ⊢
      cases hfeed with
      | none => exact .none
      | some hq => exact .some (.mk _ _ _ _ hq shared)
  | rejecting f =>
      cases shared with
      | mk outbox hw ho =>
          dsimp only
          cases outbox.put? f with
          | none => exact .none
          | some e =>
              cases e with
              | error e => exact .some (.mk _ _ _ _ pool (.mk outbox hw ho))
              | ok outbox' => exact .some (.mk _ _ _ _ pool (.mk outbox' hw ho))
  | withdrawing steps result =>
      cases steps with
      | nil => exact .some (.mk _ _ _ _ pool shared)
      | cons step rest => exact .some (.mk _ _ _ _ (pool.tear step) shared)
  | joining result =>
      dsimp only
      rw [pool.allGone]
      split
      · exact .some (.mk _ _ _ _ pool shared)
      · exact .none
  | flushing result =>
      cases shared with
      | mk outbox hw ho =>
          dsimp only
          split
          · exact .some (.mk _ _ _ _ pool (.mk outbox hw ho))
          · exact .none

theorem write? (hc : Twin R A c c') : Option.Rel (Twin R A) c.write? c'.write? := by
  cases hc with
  | mk stage unread hungUp written pool shared =>
  cases shared with
  | mk outbox hw ho =>
  unfold Connection.write?
  dsimp only
  cases outbox.take? with
  | none => exact .none
  | some e => exact .some (.mk _ _ _ _ pool (.mk _ hw ho))

/-- **Twin connections take the same step**, or none. -/
theorem step? (hs : s.Respects R A allowed) (hc : Twin R A c c') {m : Move}
    (hf : ∀ f ∈ c.frameRead s m, f.OpensOnly allowed) :
    Option.Rel (Twin R A) (c.step? s m) (c'.step? s m) := by
  have hon := hc
  -- Twins have the loop in common, so both are in the same case.
  cases hc with
  | mk stage unread hungUp written pool shared =>
  cases m with
  | arrive data =>
      unfold Connection.step?
      dsimp only
      split
      · exact .none
      · exact .some (.mk _ _ _ _ pool shared)
  | hangUp => exact .some (.mk _ _ _ _ pool shared)
  | stop => exact .some (.mk _ _ _ _ pool.cancelParent shared)
  | read =>
      unfold Connection.step?
      cases stage with
      | serving =>
          refine hon.read? hs fun f rest hd => hf f ?_
          rw [frameRead_of_frame hd]
          exact List.mem_singleton_self f
      | _ => exact .none
  | notice =>
      have hnotice := pool.notice?
      unfold Connection.step?
      cases stage with
      | serving =>
          simp only [isServing, if_true]
          generalize Pool.notice? _ = x at hnotice ⊢
          generalize Pool.notice? _ = x' at hnotice ⊢
          cases hnotice with
          | none => exact .none
          | some hq => exact .some (.mk _ _ _ _ hq.2 shared)
      | _ => exact .none
  | heed =>
      unfold Connection.step?
      dsimp only
      rw [pool.allWithdrawn]
      cases stage with
      | serving =>
          simp only [isServing, Bool.true_and]
          split
          · exact .some (hon.leave _)
          · exact .none
      | _ => exact .none
  | proceed => exact hon.proceed?
  | write => exact hon.write?
  | failWriting =>
      cases shared with
      | mk outbox hw ho => exact .some (.mk _ _ _ _ pool (.mk _ hw ho))
  | pool m =>
      have hpool := pool.step? hs.handler shared m
      unfold Connection.step?
      dsimp only
      generalize Pool.step? _ _ _ m = x at hpool ⊢
      generalize Pool.step? _ _ _ m = x' at hpool ⊢
      cases hpool with
      | none => exact .none
      | some hq => exact .some (.mk _ _ _ _ hq.1 hq.2)

/-- **Whatever one of them does, the other does as well.** -/
theorem run (hs : s.Respects R A allowed) (hc : Twin R A c c') {ms : List Move}
    (hrun : c.run? s ms = some d) (hf : ∀ f ∈ c.framesRead s ms, f.OpensOnly allowed) :
    ∃ d', c'.run? s ms = some d' ∧ Twin R A d d' := by
  -- Only the first run is given; each of its steps yields the other's.
  induction ms generalizing c c' with
  | nil =>
      cases hrun
      exact ⟨c', rfl, hc⟩
  | cons m ms ih =>
      obtain ⟨e, hm, hrest⟩ := Option.bind_eq_some_iff.1 hrun
      rw [framesRead_cons hm] at hf
      have hstep := hc.step? hs fun f hmem => hf f (List.mem_append_left _ hmem)
      rw [hm] at hstep
      obtain ⟨e', hm', he⟩ : ∃ e', c'.step? s m = some e' ∧ Twin R A e e' := by
        generalize c'.step? s m = x at hstep
        cases hstep with
        | some he => exact ⟨_, rfl, he⟩
      obtain ⟨d', hrun', hd⟩ := ih he hrest fun f hmem => hf f (List.mem_append_right _ hmem)
      refine ⟨d', ?_, hd⟩
      rw [run?, hm']
      exact hrun'

end Twin

end Connection

end DeviceGateway
