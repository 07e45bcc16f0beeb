import DeviceGateway.Gateway.Handlers
import DeviceGateway.Proofs.Call.Leading
import DeviceGateway.Proofs.Call.Polling
import DeviceGateway.Proofs.Gateway.Accepting

/-!
# Uploads that have not come to their end

An upload goes on from message to message until it gets the end of the messages, and only that makes
it finish. Whatever a message holds, it leads to the next one or to an error
(`Gateway.leads_takeChunk`), so a call that does not get the end of its messages stays unfinished or
fails (`Call.unfinished_of_poll?`). If it ends while it waits for a message, it gives up what it has
opened (`Call.released_of_poll?`).
-/

namespace DeviceGateway

/-! ## Uploads that go on -/

/-- The upload of a handler has not come to its end: it takes messages, or it has failed. -/
def HandlerState.Unfinished : HandlerState → Prop
  | .uploading _ | .ending (.error _) => True
  | .replying _ | .downloading .. | .asking .. | .ending (.ok ()) => False

namespace Gateway

variable (g : Gateway)

/-- **A message of an upload** leads to the next one, or to an error. -/
theorem leads_takeChunk (s : Upload.Session StagedPackage) (m : Bytes) :
    (g.takeChunk s (some m)).Leads (fun _ => ()) (fun state _ => state.Unfinished) () := by
  refine Job.Leads.bind (Job.leads_of_forall fun _ _ => trivial) ?_
  rintro ⟨_ | _, s'⟩ _ (_ : True)
  · exact fun _ _ => trivial
  · exact trivial

/-! ### Giving up -/

/-- If a step on a session failed, giving up what the session has opened since is giving up what it
had opened before. -/
def GivenUp (s : Upload.Session StagedPackage) (w : GatewayWorld)
    (answer : Except GatewayError Unit × Upload.Session StagedPackage) (w' : GatewayWorld) : Prop :=
  answer.1.isOk = false →
    answer.2.release g.staging.installer w' = s.release g.staging.installer w

theorem atOnce_fail (s : Upload.Session StagedPackage) (e : GatewayError) (w : GatewayWorld) :
    (s.fail g.staging.installer e).AtOnce (g.GivenUp s w) w := fun _ => rfl

theorem atOnce_take (s : Upload.Session StagedPackage) (data : Bytes) (w : GatewayWorld) :
    (s.take g.staging.installer data).AtOnce (g.GivenUp s w) w := by
  unfold Upload.Session.take
  split
  · exact nofun
  · split
    · exact g.atOnce_fail s _ w
    · next sink _ => cases sink <;> exact trivial

theorem atOnce_acceptMessage (s : Upload.Session StagedPackage) (m : Bytes) (w : GatewayWorld) :
    (s.acceptMessage g.staging.installer m).AtOnce (g.GivenUp s w) w := by
  unfold Upload.Session.acceptMessage
  split
  · exact fun _ => rfl
  · unfold Upload.Session.accept
    split
    · unfold Upload.Session.openSink
      split
      · exact fun _ => rfl
      · split
        · exact fun _ => rfl
        · exact trivial
      · exact trivial
    · exact g.atOnce_take s _ w
    all_goals exact fun _ => rfl

/-- **A message that makes an upload fail at once** makes it give up what it has opened. -/
theorem atOnce_takeChunk (s : Upload.Session StagedPackage) (m : Bytes) (w : GatewayWorld) :
    (g.takeChunk s (some m)).AtOnce
      (fun state w' => (∃ r, state = .ending r) → w' = s.release g.staging.installer w)
      w := by
  refine (g.atOnce_acceptMessage s m w).bind ?_
  rintro ⟨_ | _, s'⟩ w' hgiven
  · exact fun _ => hgiven rfl
  · rintro ⟨r, hr⟩
    cases hr

/-- The methods that take an upload. -/
def IsUpload (r : CallRequest) : Prop :=
  (r.service = "filesystem" ∧ r.method = "upload") ∨
    (r.service = "package-manager" ∧ r.method = "install")

/-- **A call of such a method** begins with a session that has got nothing yet. -/
theorem accept_of_isUpload {r : CallRequest} (hr : IsUpload r) :
    ∃ mode, g.accept r = .ok (.done (.uploading (.new mode))) := by
  rcases hr with ⟨hs, hm⟩ | ⟨hs, hm⟩
  · refine ⟨.save, ?_⟩
    rw [g.accept_of_method .filesystem hs (by rw [hm]; decide), hm]
    rfl
  · refine ⟨.install, ?_⟩
    rw [g.accept_of_method .packageManager hs (by rw [hm]; decide), hm]
    rfl

end Gateway

/-! ## One call -/

/-- The upload of a call has not come to its end, or it has failed. -/
def CallStage.Unfinished (stage : CallStage GatewayWorld HandlerState) : Prop :=
  stage.Leads (fun _ => ()) (fun state _ => state.Unfinished) () ∨
    (∃ e, stage = .ended (.error e)) ∨ stage.isOver = true

/-- While the handler is at work, the upload goes on. -/
theorem CallStage.Unfinished.leads {stage known : CallStage GatewayWorld HandlerState}
    (hu : stage.Unfinished) (heq : stage = known) (hl : known.isLive = true) :
    known.Leads (fun _ => ()) (fun state _ => state.Unfinished) () := by
  subst heq
  rcases hu with hleads | ⟨e, he⟩ | ho
  · exact hleads
  · rw [he] at hl
    cases hl
  · rw [CallStage.isOver_of_isLive hl] at ho
    cases ho

namespace Call

variable {g : Gateway} {c c' : Call GatewayWorld HandlerState}
  {s s' : Shared GatewayWorld}

theorem unfinished_conclude (c : Call GatewayWorld HandlerState) (e : GatewayError) :
    (c.conclude (.error e)).stage.Unfinished := by
  unfold conclude
  dsimp only
  split
  · exact Or.inr (Or.inl ⟨e, rfl⟩)
  · exact Or.inr (Or.inr rfl)

/-- Of the states in which an upload goes on, only an error ends the call. -/
theorem unfinished_of_finish {state : HandlerState} {result : Except GatewayError Unit}
    (hstate : state.Unfinished) (hfinish : g.handler.await state = .finish result) :
    (c.conclude result).stage.Unfinished := by
  cases state with
  | ending r =>
      cases r with
      | ok => cases hstate
      | error e =>
          cases hfinish
          exact unfinished_conclude c e
  | _ => cases hfinish

theorem unfinished_of_resume {k : Call GatewayWorld HandlerState} {t : Shared GatewayWorld}
    {j : Job GatewayWorld HandlerState} {w : GatewayWorld}
    (hr : resume g.handler k t j w = (c', s'))
    (hj : j.Leads (fun _ => ()) (fun state _ => state.Unfinished) ()) : c'.stage.Unfinished := by
  rcases leads_of_resume hr hj with ⟨hl, -⟩ | ⟨state, result, hstate, hfinish, rfl⟩
  · exact Or.inl hl
  · exact unfinished_of_finish hstate hfinish

/-- The end of the messages is not to be had, unless the call is withdrawn. -/
theorem not_ending {allWithdrawn : Bool} {inbox : Inbox}
    (hstays : c.isCancelled allWithdrawn = false) (hsup : c.supervised = true)
    (hl : c.stage.isLive = true)
    (hend : c.inbox.queue = [] → c.inbox.sending = false →
      (c.withdrawn || allWithdrawn) = true) : c.inbox.take? ≠ some (none, inbox) := by
  intro htake
  cases Inbox.takes_of_take? htake with
  | ending hqueue hsending =>
      rw [isCancelled, hsup, hend hqueue hsending, hl] at hstays
      cases hstays

/-- **A poll that does not take the end of the messages** leaves an upload unfinished. -/
theorem unfinished_of_poll? {allWithdrawn : Bool} (hu : c.stage.Unfinished)
    (hsup : c.supervised = true)
    (hend : c.inbox.queue = [] → c.inbox.sending = false →
      (c.withdrawn || allWithdrawn) = true)
    (hp : c.poll? g.handler allWithdrawn s = some (c', s')) : c'.stage.Unfinished := by
  cases polls_of_poll? hp with
  | dropped | refused => exact unfinished_conclude c _
  | told => exact Or.inr (Or.inr rfl)
  | finished _ hst hfinish => exact unfinished_of_finish (hu.leads hst rfl) hfinish
  | resumed hstays hres hr =>
      have hl := hres.live
      cases hres with
      | started hst | carried hst => exact unfinished_of_resume hr (hu.leads hst rfl)
      | @received state next m inbox hst hawait htake =>
          -- An upload that waits takes a message, for the end of its messages is not to be had.
          have hstate : state.Unfinished := hu.leads hst rfl
          cases state with
          | uploading session =>
              cases hawait
              cases m with
              | some m => exact unfinished_of_resume hr (g.leads_takeChunk session m)
              | none => exact absurd htake (not_ending hstays hsup hl hend)
          | ending => cases hawait
          | _ => cases hstate
      | @sent state _ _ _ _ hst hawait | @answered state _ _ _ hst hawait
      | @withdrawn state _ hst hawait | @deafened state _ hst hawait =>
          have hstate : state.Unfinished := hu.leads hst rfl
          cases state with
          | uploading | ending => cases hawait
          | _ => cases hstate

theorem unfinished_of_carry? (hu : c.stage.Unfinished) (hc : c.carry? s = some (c', s')) :
    c'.stage.Unfinished := by
  rcases hu with hl | ⟨e, he⟩ | ho
  · exact Or.inl (leads_carry? hc hl).1
  · obtain ⟨_, _, _, hst, -⟩ := carry?_eq_some_iff.1 hc
    cases he.symm.trans hst
  · rw [(advances_of_carry? hc).2.2.not_over] at ho
    cases ho

/-- An upload asks no provider. -/
theorem expire?_of_unfinished (hu : c.stage.Unfinished) : c.expire? g.handler s = none := by
  refine Option.eq_none_iff_forall_ne_some.2 fun _ he => ?_
  obtain ⟨state, limit, next, hst, hawait, -⟩ := expire?_eq_some_iff.1 he
  have hstate : state.Unfinished := hu.leads hst rfl
  cases state with
  | asking => cases hstate
  | _ => cases hawait

/-- **An upload that ends while it waits for a message** gives up what it has opened. -/
theorem released_of_poll? {allWithdrawn : Bool} {session : Upload.Session StagedPackage}
    (hst : c.stage = .awaiting (.uploading session))
    (hend : c.inbox.queue = [] → c.inbox.sending = false → (c.withdrawn || allWithdrawn) = true)
    (hsup : c.supervised = true) (hp : c.poll? g.handler allWithdrawn s = some (c', s'))
    (hl : c'.stage.isLive = false) :
    s'.world = session.release g.staging.installer s.world := by
  cases polls_of_poll? hp with
  | dropped =>
      unfold abandon
      rw [hst]
      rfl
  | finished _ hat hfinish =>
      cases hst.symm.trans hat
      cases hfinish
  | refused hat | told hat => cases hst.symm.trans hat
  | resumed hstays hres hr =>
      have hlive := hres.live
      cases hres with
      | @received _ next m inbox hat hawait htake =>
          cases hst.symm.trans hat
          cases hawait
          cases m with
          | none => exact absurd htake (not_ending hstays hsup hlive hend)
          | some m =>
              obtain ⟨state, result, hpost, hfinish⟩ :=
                atOnce_resume (h := g.handler) { c with inbox } s
                  (g.atOnce_takeChunk session m s.world) (by rw [hr]; exact hl)
              rw [hr] at hpost
              cases state with
              | ending r => exact hpost ⟨r, rfl⟩
              | _ => cases hfinish
      | started hat | carried hat => cases hst.symm.trans hat
      | sent hat hawait | answered hat hawait | withdrawn hat hawait | deafened hat hawait =>
          cases hst.symm.trans hat
          cases hawait

end Call

end DeviceGateway
