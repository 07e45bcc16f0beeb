import DeviceGateway.Proofs.Gateway.Withdrawal
import DeviceGateway.Proofs.Server.LostConnection

/-!
# Uploads that are cancelled

Whenever the call of an upload ends, by itself or because it is cancelled, it has gone well and its
file is kept, or it has failed and no file has come, unless it is cancelled in one of three gaps
(`all_or_nothing_outside_gaps`). The gaps are there: a call that is cancelled while its file is being
made leaves that file (`cancelled_while_the_file_is_made`), one that is cancelled right after its
package was moved leaves it installed (`cancelled_after_the_package_is_moved`), and so does one whose
receipt waits to be sent (`cancelled_before_the_receipt_is_sent`).
-/

namespace DeviceGateway

namespace Gateway

/-- What becomes of the data of an upload that a request begins. -/
def uploadMode (r : CallRequest) : Upload.Mode :=
  if r.method = "install" then .install else .save

theorem accept_uploadMode (g : Gateway) {r : CallRequest} (hr : IsUpload r) :
    g.accept r = .ok (.done (.uploading (.new (uploadMode r)))) := by
  unfold uploadMode
  rcases hr with ⟨hs, hm⟩ | ⟨hs, hm⟩
  · rw [g.accept_of_method .filesystem hs (by rw [hm]; decide), hm, if_neg (by decide)]
    rfl
  · rw [g.accept_of_method .packageManager hs (by rw [hm]; decide), hm, if_pos rfl]
    rfl

end Gateway

namespace Connection

section Stages

variable {ω σ : Type} {s : Server ω σ} {c c' : Connection ω σ} {id : UInt64}

/-- Whether the handler of the call with a number is at work. -/
def isAtWork (c : Connection ω σ) (id : UInt64) : Bool :=
  (c.pool.standing? id).any (·.2.isLive)

/-- How the call with a number has ended, as long as its caller has not been told. -/
def ended? (c : Connection ω σ) (id : UInt64) : Option (Except GatewayError Unit) :=
  match c.pool.standing? id with
  | some (_, .ended result) => some result
  | _ => none

theorem standing?_of_ended? {result : Except GatewayError Unit} (h : c.ended? id = some result) :
    ∃ sup, c.pool.standing? id = some (sup, .ended result) := by
  unfold ended? at h
  split at h
  · next sup r hs =>
    cases h
    exact ⟨sup, hs⟩
  · cases h

end Stages

variable {g : Gateway} {known : Place → Nat → Prop} {mode : Upload.Mode}
  {c c' d : Connection GatewayWorld HandlerState} {id : UInt64}

/-- **The upload under a number is under way**, and nothing else is waiting to be carried out. -/
def UploadUnderway (g : Gateway) (known : Place → Nat → Prop) (mode : Upload.Mode) (id : UInt64)
    (c : Connection GatewayWorld HandlerState) : Prop :=
  ∃ stage, c.pool.standing? id = some (true, stage) ∧
    g.Underway known mode stage c.shared.world ∧ c.shared.orphans = []

/-- **A step spares the upload under a number**: it is a step of that call, or it leaves the files
and directories of the disk where they are, and makes no files but known ones. -/
def SparesUpload (g : Gateway) (known : Place → Nat → Prop) (id : UInt64)
    (c : Connection GatewayWorld HandlerState) (m : Move) : Prop :=
  m.isOthers id = true → ∀ c', c.step? g.server m = some c' →
    c'.shared.orphans = c.shared.orphans ∧ Gateway.Spares known c.shared.world c'.shared.world

/-- An upload that is alone is spared. -/
theorem spares_alone {ms : List Move} (h : ∀ m ∈ ms, m.isOthers id = false)
    (c : Connection GatewayWorld HandlerState) :
    Throughout g.server (SparesUpload g known id) c ms := by
  refine throughout_of_forall (fun m hm c hothers => ?_) c
  cases (h m hm).symm.trans hothers

/-- **One step**: the upload is under way again, or it ends. -/
theorem UploadUnderway.step {m : Move} (hu : c.UploadUnderway g known mode id) (hsound : c.Sound)
    (hm : c.step? g.server m = some c') (hspares : SparesUpload g known id c m) :
    c'.UploadUnderway g known mode id ∨
      ∃ stage result, c.pool.standing? id = some (true, stage) ∧
        c'.pool.standing? id = some (true, .ended result) ∧
        g.Ends known mode stage result c'.shared.settled := by
  obtain ⟨stage, hs, hstage, horphans⟩ := hu
  have hstep := step_of_step? hm
  by_cases hpool : ∃ move, m = .pool move
  · obtain ⟨move, rfl⟩ := hpool
    cases hstep with
    | pool hp =>
        obtain ⟨call, hcall, hstands⟩ := Option.map_eq_some_iff.1 hs
        rw [Prod.mk.injEq] at hstands
        obtain ⟨hsup, rfl⟩ := hstands
        rcases Pool.call?_of_step hp hcall with ⟨hcall', hother⟩ | ⟨call', hcall', hacts⟩
        · obtain ⟨hsame, hspare⟩ := hspares (bne_iff_ne.2 hother) _ hm
          refine .inl ⟨call.stage, ?_, Gateway.undisturbed_underway _ _ _ hstage hspare,
            hsame.trans horphans⟩
          rw [Pool.standing?_of_call? hcall', hsup]
        · cases hacts with
          | poll hp =>
              have hsup' := (Call.advances_of_poll? hp).2.1.trans hsup
              rcases Call.uploadGoes_of_poll? hsup horphans hstage hp with
                ⟨hstage', horphans'⟩ | ⟨result, hended, hends⟩
              · refine .inl ⟨call'.stage, ?_, hstage', horphans'⟩
                rw [Pool.standing?_of_call? hcall', hsup']
              · refine .inr ⟨call.stage, result, hs, ?_, hends⟩
                rw [Pool.standing?_of_call? hcall', hsup', hended]
          | carry hp =>
              have hsup' := (Call.advances_of_carry? hp).2.1.trans hsup
              obtain ⟨hstage', hsame⟩ := Call.underway_of_carry? hstage hp
              refine .inl ⟨call'.stage, ?_, hstage', hsame.trans horphans⟩
              rw [Pool.standing?_of_call? hcall', hsup']
          | expire hp =>
              have hnone : call.expire? g.server.handler c.shared = none :=
                Call.expire?_of_underway hstage
              cases hnone.symm.trans hp
          | report hreporting =>
              rw [hreporting] at hstage
              cases hstage
  · have hno : ∀ move, m ≠ .pool move := fun move hmove => hpool ⟨move, hmove⟩
    obtain ⟨hworld, hsame⟩ := hstep.world_outside hno
    rcases standing?_of_step hstep hs with hs' | hmove | ⟨⟨pool, hn⟩, -⟩
    · exact .inl ⟨stage, hs', hworld ▸ hstage, hsame.trans horphans⟩
    · exact absurd hmove hpool
    · -- Notice is taken only of a call that is gone.
      obtain ⟨-, sup, hgone⟩ := hsound.kept.notice hn
      rw [hs] at hgone
      cases hgone
      cases hstage

/-- **As long as its handler is at work** and the others spare it, an upload is under way. -/
theorem underway_of_run {ms : List Move} (hu : c.UploadUnderway g known mode id) (hsound : c.Sound)
    (hr : c.run? g.server ms = some d)
    (hwork : ∀ e ∈ c.visited g.server ms, e.isAtWork id = true)
    (hspares : Throughout g.server (SparesUpload g known id) c ms) :
    d.UploadUnderway g known mode id ∧ d.Sound := by
  induction ms generalizing c with
  | nil =>
      cases hr
      exact ⟨hu, hsound⟩
  | cons m ms ih =>
      obtain ⟨c', hm, hr⟩ := run?_cons.1 hr
      rw [visited_cons hm] at hwork
      rw [throughout_cons hm] at hspares
      rcases hu.step hsound hm hspares.1 with hu' | ⟨stage, result, -, hended, -⟩
      · exact ih hu' (hsound.step (step_of_step? hm)) hr
          (fun e he => hwork e (List.mem_cons_of_mem _ he)) hspares.2
      · have hatWork := hwork c' (List.mem_cons_of_mem _ (mem_visited_self c' ms))
        rw [isAtWork, hended] at hatWork
        cases hatWork

/-- **Cancelling an upload is all or nothing outside of three gaps**: from the request on, in every
run in which the others spare it, and wherever the call stands in the step in which it ends, it has
gone well and its file is kept, or it has failed and no file has come, once everything that was
handed over has been carried out; or it has failed while its file was being made, or after its
package was moved, or while its receipt waited to be sent. -/
theorem all_or_nothing_outside_gaps (g : Gateway) (world : GatewayWorld) {before : List Move}
    (hreach : (start world).run? g.server before = some c) {f : Frame} {rest : Bytes}
    {r : CallRequest} (hread : c.Reads g.server f rest) (hk : f.kind = .call)
    (hp : (Payload.ofBytes f.payload : Except GatewayError CallRequest) = .ok r)
    (hup : Gateway.IsUpload r) (hfree : c.pool.contains f.callId = false)
    (known : Place → Nat → Prop) (hknown : Gateway.Nothing known c.shared.world)
    (horphans : c.shared.orphans = []) :
    ∃ c', c.step? g.server .read = some c' ∧
      ∀ ms d, c'.run? g.server ms = some d →
        (∀ e ∈ c'.visited g.server ms, e.isAtWork f.callId = true) →
        Throughout g.server (SparesUpload g known f.callId) c' ms →
        ∀ m e result, SparesUpload g known f.callId d m → d.step? g.server m = some e →
          e.ended? f.callId = some result →
          ∃ stage, d.pool.standing? f.callId = some (true, stage) ∧
            g.Ends known (Gateway.uploadMode r) stage result e.shared.settled := by
  obtain ⟨pool, hspawn, hstep⟩ := step?_accept hread hk hp hfree
  have hs : pool.standing? f.callId =
      some (true, .starting (.done (.uploading (.new (Gateway.uploadMode r))))) := by
    rw [Pool.standing?_spawn hspawn, Function.update_self]
    show some (true, CallStage.opening (g.accept r)) = _
    rw [g.accept_uploadMode hup]
    rfl
  have hbegun : UploadUnderway g known (Gateway.uploadMode r) f.callId { c with unread := rest, pool } :=
    ⟨_, hs, .starting hknown, horphans⟩
  have hsound := (sound_of_run? hreach).step (step_of_step? hstep)
  refine ⟨_, hstep, fun ms d hr hwork hspares m e result hspare hm hended => ?_⟩
  obtain ⟨hu, hsound⟩ := underway_of_run hbegun hsound hr hwork hspares
  obtain ⟨sup, hended⟩ := standing?_of_ended? hended
  rcases hu.step hsound hm hspare with ⟨stage, hs', hstage, -⟩ | ⟨stage, result', hs', he, hends⟩
  · -- An upload that is under way has not ended.
    cases hs'.symm.trans hended
    cases hstage
  · cases he.symm.trans hended
    exact ⟨stage, hs', hends⟩

/-! ## Cancelling one upload -/

/-- The gateway of the runs below. -/
def plainGateway : Gateway := ⟨"/media", ⟨"/staging", "/install", "1"⟩, fun _ _ _ => none, ⟨0⟩⟩

/-- A request for an upload, to be saved or to be installed. -/
def modeRequest : Upload.Mode → Frame
  | .save => uploadRequest
  | .install =>
    ⟨.call, 1, Payload.toBytes (⟨"package-manager", "install", []⟩ : CallRequest), by decide⟩

/-- The caller has sent all its messages. -/
def lastFrame : Frame := ⟨.halfClose, 1, [], by decide⟩

/-- The caller cancels its call. -/
def cancelFrame : Frame := ⟨.cancel, 1, [], by decide⟩

/-- An upload has been accepted, and this is still to be read. -/
def accepted (mode : Upload.Mode) (unread : Bytes) : Connection GatewayWorld HandlerState :=
  { (start ⟨Disk.ofClock 0, .new⟩ : Connection GatewayWorld HandlerState) with
    pool := ⟨[.start 1 true (.starting (.done (.uploading (.new mode))))], false, []⟩
    unread }

theorem step?_modeRequest (g : Gateway) (mode : Upload.Mode) (rest : Bytes) :
    (arrived ⟨Disk.ofClock 0, .new⟩ ((modeRequest mode).toBytes .standard ++ rest)).step? g.server
      .read = some (accepted mode rest) := by
  have hread : (arrived ⟨Disk.ofClock 0, .new⟩
      ((modeRequest mode).toBytes .standard ++ rest)).Reads g.server (modeRequest mode) rest :=
    reads_toBytes rfl rfl
  obtain ⟨r, hp, hk, hid, haccept⟩ : ∃ r : CallRequest,
      (Payload.ofBytes (modeRequest mode).payload : Except GatewayError CallRequest) = .ok r ∧
        (modeRequest mode).kind = .call ∧ (modeRequest mode).callId = 1 ∧
        g.accept r = .ok (.done (.uploading (.new mode))) := by
    cases mode with
    | save =>
        exact ⟨_, ofBytes_uploadRequest, rfl, rfl, g.accept_of_method .filesystem rfl (by decide)⟩
    | install =>
        exact ⟨_, CallRequest.ofBytes_toBytes (by decide), rfl, rfl,
          g.accept_of_method .packageManager rfl (by decide)⟩
  obtain ⟨pool, hspawn, hstep⟩ := step?_accept hread hk hp rfl
  obtain ⟨-, rfl⟩ := Pool.spawn_eq_ok_iff.1 hspawn
  rw [hstep, hid]
  show some { accepted mode rest with
    pool := Pool.mk [.start 1 true (.opening (g.accept r))] false [] } = _
  rw [haccept]
  rfl

/-- An upload is cancelled while it waits for its next message: it fails, and its file is gone. -/
theorem cancelled_between_messages :
    let g := plainGateway
    let c := accepted .save (uploadMessage.toBytes .standard)
    let ms : List Move :=
      [.read, .proceed, .pool (.poll 1), .pool (.poll 1), .pool (.carry 1), .pool (.poll 1),
        .pool (.carry 1), .pool (.poll 1), .pool (.carry 1), .pool (.poll 1),
        .arrive (cancelFrame.toBytes .standard), .read]
    ∃ d e stage, c.run? g.server ms = some d ∧ d.step? g.server (.pool (.poll 1)) = some e ∧
      d.shared.world.disk.fileData "a" = .ok [65] ∧
      d.pool.standing? 1 = some (true, stage) ∧
      g.Ends (fun _ _ => False) .save stage (.error .cancelled) e.shared.settled ∧
      e.shared.settled.disk.fileData "a" = .error .missing := by
  intro g c ms
  obtain ⟨c', hstep, hall⟩ := all_or_nothing_outside_gaps g ⟨Disk.ofClock 0, .new⟩
    (run?_arrive _ (uploadRequest.toBytes .standard ++ uploadMessage.toBytes .standard))
    (reads_toBytes rfl rfl) rfl ofBytes_uploadRequest (Or.inl ⟨rfl, rfl⟩) rfl (fun _ _ => False)
    ⟨Disk.nothingNew_ofClock _ 0, Disk.standing_ofClock 0⟩ rfl
  cases (step?_modeRequest g .save _).symm.trans hstep
  have hrun : ((c.run? g.server ms).bind fun d => (d.step? g.server (.pool (.poll 1))).map fun e =>
      (decide (e.ended? 1 = some (.error .cancelled)), d.shared.world.disk.fileData "a",
        e.shared.settled.disk.fileData "a")) = some (true, .ok [65], .error .missing) := by
    decide +kernel
  have hwork : ∀ v ∈ c.visited g.server ms, v.isAtWork 1 = true := by decide +kernel
  obtain ⟨d, hd, hrun⟩ := Option.bind_eq_some_iff.1 hrun
  obtain ⟨e, he, hlast⟩ := Option.map_eq_some_iff.1 hrun
  simp only [Prod.mk.injEq, decide_eq_true_eq] at hlast
  obtain ⟨hended, hbefore, hafter⟩ := hlast
  obtain ⟨stage, hs, hends⟩ := hall ms d hd hwork (spares_alone (by decide) c) _ e _
    (fun hothers => by cases hothers) he hended
  exact ⟨d, e, stage, hd, he, hbefore, hs, hends, hafter⟩

/-! ## The gaps -/

/-- **A call is cancelled and a file of it is left**: the caller is told that the call was cancelled,
nothing is waiting to be carried out, and the file is there. -/
def LeavesFile (g : Gateway) (mode : Upload.Mode) (sent : Bytes) (ms : List Move) (path : String)
    (data : Bytes) : Prop :=
  ∃ c d, (start ⟨Disk.ofClock 0, .new⟩).run? g.server
      [.arrive ((modeRequest mode).toBytes .standard ++ sent), .read] = some c ∧
    c.run? g.server ms = some d ∧
    d.written.map (·.payload) = [Payload.toBytes (Status.ofError .cancelled)] ∧
    d.shared.orphans = [] ∧ d.shared.world.disk.fileData path = .ok data

theorem leavesFile_of_run {g : Gateway} {mode : Upload.Mode} {sent : Bytes} {ms : List Move}
    {path : String} {data : Bytes}
    (h : ((accepted mode sent).run? g.server ms).any fun d =>
      decide (d.written.map (·.payload) = [Payload.toBytes (Status.ofError .cancelled)] ∧
        d.shared.orphans.isEmpty ∧ d.shared.world.disk.fileData path = .ok data)) :
    LeavesFile g mode sent ms path data := by
  rw [Option.any_eq_true] at h
  obtain ⟨d, hd, hleft⟩ := h
  obtain ⟨htold, horphans, hdata⟩ := of_decide_eq_true hleft
  exact ⟨accepted mode sent, d, run?_cons.2 ⟨_, step?_arrive _ _, run?_cons.2
    ⟨_, step?_modeRequest g mode sent, rfl⟩⟩, hd, htold, List.isEmpty_iff.1 horphans, hdata⟩

/-- **An upload that is cancelled while its file is being made** leaves that file. -/
theorem cancelled_while_the_file_is_made :
    LeavesFile plainGateway .save (uploadMessage.toBytes .standard)
      [.read, .proceed, .pool (.poll 1), .pool (.poll 1), .pool (.carry 1), .pool (.poll 1),
        .arrive (cancelFrame.toBytes .standard), .read, .pool (.poll 1), .pool .orphan,
        .pool (.poll 1), .write] "a" [] :=
  leavesFile_of_run (by decide +kernel)

/-- **An installation that is cancelled right after its package was moved** leaves it installed. -/
theorem cancelled_after_the_package_is_moved :
    LeavesFile plainGateway .install
      (uploadMessage.toBytes .standard ++ lastFrame.toBytes .standard)
      [.read, .proceed, .read, .pool (.poll 1), .pool (.poll 1), .pool (.carry 1), .pool (.poll 1),
        .pool (.carry 1), .pool (.poll 1), .pool (.carry 1), .pool (.poll 1), .pool (.carry 1),
        .pool (.poll 1), .pool (.poll 1), .pool (.carry 1), .pool (.poll 1), .pool (.carry 1),
        .arrive (cancelFrame.toBytes .standard), .read, .pool (.poll 1), .pool (.poll 1), .write]
      "/install/a" [65] :=
  leavesFile_of_run (by decide +kernel)

/-- **An upload that is cancelled before its receipt is sent** leaves its file. -/
theorem cancelled_before_the_receipt_is_sent :
    LeavesFile plainGateway .save
      (uploadMessage.toBytes .standard ++ lastFrame.toBytes .standard)
      [.read, .proceed, .read, .pool (.poll 1), .pool (.poll 1), .pool (.carry 1), .pool (.poll 1),
        .pool (.carry 1), .pool (.poll 1), .pool (.carry 1), .pool (.poll 1), .pool (.poll 1),
        .pool (.carry 1), .pool (.poll 1), .arrive (cancelFrame.toBytes .standard), .read,
        .pool (.poll 1), .pool (.poll 1), .write] "a" [65] :=
  leavesFile_of_run (by decide +kernel)

end Connection

end DeviceGateway
