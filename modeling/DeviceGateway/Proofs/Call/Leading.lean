import DeviceGateway.Proofs.Call.Steps

/-!
# Where the work of a call leads

The steps of a job are taken one by one, and anything may happen to the world between them. What can
be said of a job all the same is said by a view of the world: a job leads from what is seen to a
postcondition if it does so in every world of that view, and others leave what is seen as it is
(`Job.Leads`). Jobs that follow each other lead where the second one does (`Job.Leads.bind`).

A call leads somewhere if the job that it is at work on does, or it waits there already
(`CallStage.Leads`). A step of the system on its behalf keeps this (`leads_carry?`), and so does every
step of its own, unless its handler is done (`leads_of_resume`).
-/

namespace DeviceGateway

variable {ω σ ν α β : Type}

/-! ## Jobs -/

namespace Job

/-- **Where a job leads**, from a view of the world. -/
def Leads (view : ω → ν) (post : α → ν → Prop) : Job ω α → ν → Prop
  | done answer, seen => post answer seen
  | now effect next, seen =>
    ∀ w, view w = seen → Leads view post (next w) (view (effect w))
  | blocking effect _ next, seen =>
    ∀ w, view w = seen → Leads view post (next w) (view (effect w))

variable {view : ω → ν} {post m : α → ν → Prop} {seen : ν}

theorem leads_of_forall {j : Job ω α} (h : ∀ answer seen, post answer seen) :
    j.Leads view post seen := by
  induction j generalizing seen with
  | done answer => exact h answer seen
  | now effect next ih => exact fun w _ => ih w
  | blocking effect release next ih => exact fun w _ => ih w

theorem Leads.mono {j : Job ω α} (hj : j.Leads view m seen)
    (h : ∀ answer seen, m answer seen → post answer seen) : j.Leads view post seen := by
  induction j generalizing seen with
  | done answer => exact h answer seen hj
  | now effect next ih => exact fun w hw => ih w (hj w hw)
  | blocking effect release next ih => exact fun w hw => ih w (hj w hw)

/-- **One job after the other.** -/
theorem Leads.bind {post : β → ν → Prop} {j : Job ω α} {f : α → Job ω β}
    (hj : j.Leads view m seen)
    (hf : ∀ answer seen, m answer seen → (f answer).Leads view post seen) :
    (j >>= f).Leads view post seen := by
  change (Job.bind j f).Leads view post seen
  induction j generalizing seen with
  | done answer => exact hf answer seen hj
  | now effect next ih => exact fun w hw => ih w (hj w hw)
  | blocking effect release next ih => exact fun w hw => ih w (hj w hw)

/-- What is released when a job is abandoned does not matter to where it leads. -/
theorem Leads.guarded {more : ω → ω} {j : Job ω α} (hj : j.Leads view post seen) :
    (j.guarded more).Leads view post seen := by
  induction j generalizing seen with
  | done answer => exact hj
  | now effect next ih => exact fun w hw => ih w (hj w hw)
  | blocking effect release next ih => exact fun w hw => ih w (hj w hw)

/-! ### Without blocking -/

/-- **What a job does at once**: if it comes to its answer without handing over a step, the answer
and the world after it are as claimed. -/
def AtOnce (post : α → ω → Prop) : Job ω α → ω → Prop
  | done answer, w => post answer w
  | now effect next, w => AtOnce post (next w) (effect w)
  | blocking .., _ => True

theorem AtOnce.bind {mid : α → ω → Prop} {post : β → ω → Prop} {j : Job ω α} {f : α → Job ω β}
    {w : ω} (hj : j.AtOnce mid w) (hf : ∀ answer w, mid answer w → (f answer).AtOnce post w) :
    (j >>= f).AtOnce post w := by
  change (Job.bind j f).AtOnce post w
  induction j generalizing w with
  | done answer => exact hf answer w hj
  | now effect next ih => exact ih w hj
  | blocking effect release next ih => trivial

end Job

/-! ## Calls -/

namespace CallStage

/-- **Where a call at work leads.** A call that waits stands where it has led. -/
def Leads (view : ω → ν) (post : σ → ν → Prop) (seen : ν) : CallStage ω σ → Prop
  | starting job | carried _ job => job.Leads view post seen
  | handed effect release next => (Job.blocking effect release next).Leads view post seen
  | awaiting state => post state seen
  | refused _ | ended _ | reporting | gone => False

/-- The same, said of the stage that a call is known to be in. -/
theorem Leads.of_eq {view : ω → ν} {post : σ → ν → Prop} {seen : ν} {stage known : CallStage ω σ}
    (h : stage.Leads view post seen) (heq : stage = known) : known.Leads view post seen := heq ▸ h

theorem isLive_of_leads {view : ω → ν} {post : σ → ν → Prop} {seen : ν} {stage : CallStage ω σ}
    (h : stage.Leads view post seen) : stage.isLive = true := by
  cases stage with
  | starting | awaiting | handed | carried => rfl
  | refused | ended | reporting | gone => cases h

end CallStage

namespace Call

variable {h : Handler ω σ} {view : ω → ν} {post : σ → ν → Prop}

/-- **A call that goes on** leads on, or its handler is done. -/
theorem leads_of_resume {c c' : Call ω σ} {s s' : Shared ω} {j : Job ω σ} {w : ω}
    (hr : resume h c s j w = (c', s')) (hj : j.Leads view post (view w)) :
    (c'.stage.Leads view post (view s'.world) ∧ c' = { c with stage := c'.stage }) ∨
      ∃ state result, post state (view s'.world) ∧ h.await state = .finish result ∧
        c' = c.conclude result := by
  induction j generalizing w with
  | done state =>
      rw [resume] at hr
      split at hr
      · next result hfinish =>
        cases hr
        exact .inr ⟨state, result, hj, hfinish, rfl⟩
      · cases hr
        exact .inl ⟨hj, rfl⟩
  | now effect next ih => exact ih w hr (hj w rfl)
  | blocking effect release next _ =>
      cases hr
      exact .inl ⟨hj, rfl⟩

/-- A call that goes on and is done at once has done what its job does at once. -/
theorem atOnce_resume {post : σ → ω → Prop} (c : Call ω σ) (s : Shared ω) {j : Job ω σ} {w : ω}
    (hj : j.AtOnce post w) (hl : (resume h c s j w).1.stage.isLive = false) :
    ∃ state result, post state (resume h c s j w).2.world ∧ h.await state = .finish result := by
  induction j generalizing w with
  | done state =>
      rw [resume] at hl ⊢
      split at hl
      · next result hr => exact ⟨state, result, hj, hr⟩
      · cases hl
  | now effect next ih => exact ih w hj hl
  | blocking effect release next _ => cases hl

/-- **The system carries out** the step that a call waits for. -/
theorem leads_carry? {c c' : Call ω σ} {s s' : Shared ω} (hc : c.carry? s = some (c', s'))
    (hl : c.stage.Leads view post (view s.world)) :
    c'.stage.Leads view post (view s'.world) ∧ c' = { c with stage := c'.stage } := by
  obtain ⟨effect, release, next, hst, rfl, rfl⟩ := carry?_eq_some_iff.1 hc
  rw [hst] at hl
  exact ⟨hl s.world rfl, rfl⟩

end Call

end DeviceGateway
