import DeviceGateway.Call.Task

/-!
# Jobs that may be abandoned

A job can be abandoned wherever it is blocked. If the step that was handed over has been carried out
by then, what the job holds is released after it; otherwise it is released first, and the step is
carried out all the same. What may be left in either case is said of every step of a job, together
with what holds when it is done (`Job.Covered`). Jobs that follow each other are covered one after the
other (`Job.Covered.bind`).

Others may work on the world as well, between the steps of a job. What they may do is a relation that
everything said about the job has to bear (`Undisturbed`).
-/

namespace DeviceGateway

variable {ω σ α β : Type}

/-- **What others do not disturb.** -/
def Undisturbed (others : ω → ω → Prop) (p : ω → Prop) : Prop := ∀ w w', p w → others w w' → p w'

namespace Job

/-- **What a job may leave**: abandoned at one of its steps, before or after it is carried out and with
what is released there, and else with its answer. Others may do something before a step is carried
out, and again before the job goes on. -/
def Covered (others : ω → ω → Prop) (left : Bool → (ω → ω) → ω → Prop) (post : α → ω → Prop) :
    Job ω α → ω → Prop
  | done answer, w => post answer w
  | now effect next, w => Covered others left post (next w) (effect w)
  | blocking effect release next, w => ∀ w', others w w' →
      left false release (effect (release w')) ∧
      ∀ w'', others (effect w') w'' →
        left true release (release w'') ∧ Covered others left post (next w') w''

variable {others : ω → ω → Prop} {left : Bool → (ω → ω) → ω → Prop} {post mid : α → ω → Prop}
  {step : ω → α × ω} {more : ω → ω} {w : ω}

/-- **One step that is handed over** under a guard. What holds before it, and what holds after it, is
not disturbed; from the one follows what the step leaves behind a release, and from the other what a
release leaves behind the step. -/
theorem covered_guarded_ask (pre : ω → Prop) (post : α → ω → Prop)
    (hpre : Undisturbed others pre) (hpost : ∀ answer, Undisturbed others (post answer)) (h : pre w)
    (hbefore : ∀ w, pre w → left false more (step (more w)).2)
    (hstep : ∀ w, pre w → post (step w).1 (step w).2)
    (hafter : ∀ answer w, post answer w → left true more (more w)) :
    ((ask step).guarded more).Covered others left post w := by
  intro w' hw'
  have h' := hpre w w' h hw'
  refine ⟨hbefore w' h', fun w'' hw'' => ?_⟩
  have hdone := hpost _ _ _ (hstep w' h') hw''
  exact ⟨hafter _ w'' hdone, hdone⟩

/-- A step that holds nothing leaves what holds after it. -/
theorem covered_ask (pre : ω → Prop) (post : α → ω → Prop)
    (hpre : Undisturbed others pre) (hpost : ∀ answer, Undisturbed others (post answer)) (h : pre w)
    (hstep : ∀ w, pre w → post (step w).1 (step w).2)
    (hleft : ∀ carried answer w, post answer w → left carried id w) :
    (ask step).Covered others left post w :=
  have hguarded : ((ask step).guarded id).Covered others left post w :=
    covered_guarded_ask pre post hpre hpost h (fun w hw => hleft _ _ _ (hstep w hw)) hstep
      (hleft true)
  hguarded

/-- **One job after the other.** -/
theorem Covered.bind {post : β → ω → Prop} {j : Job ω α} {f : α → Job ω β}
    (hj : j.Covered others left mid w)
    (hf : ∀ answer w, mid answer w → (f answer).Covered others left post w) :
    (j >>= f).Covered others left post w := by
  change (Job.bind j f).Covered others left post w
  induction j generalizing w with
  | done answer => exact hf answer w hj
  | now effect next ih => exact ih w hj
  | blocking effect release next ih =>
      intro w' hw'
      obtain ⟨hbefore, hafter⟩ := hj w' hw'
      exact ⟨hbefore, fun w'' hw'' => ⟨(hafter w'' hw'').1, ih w' (hafter w'' hw'').2⟩⟩

/-- What a job comes to may be said in less. -/
theorem Covered.imp {j : Job ω α} (hj : j.Covered others left mid w)
    (h : ∀ answer w, mid answer w → post answer w) : j.Covered others left post w := by
  induction j generalizing w with
  | done answer => exact h answer w hj
  | now effect next ih => exact ih w hj
  | blocking effect release next ih =>
      intro w' hw'
      obtain ⟨hbefore, hafter⟩ := hj w' hw'
      exact ⟨hbefore, fun w'' hw'' => ⟨(hafter w'' hw'').1, ih w' (hafter w'' hw'').2⟩⟩

/-- What is guarded is guarded step by step. -/
theorem guarded_bind (more : ω → ω) (j : Job ω α) (f : α → Job ω β) :
    (j >>= f).guarded more = j.guarded more >>= fun answer => (f answer).guarded more := by
  change (Job.bind j f).guarded more = Job.bind (j.guarded more) _
  induction j with
  | done answer => rfl
  | now effect next ih =>
      simp only [Job.bind, guarded, ih]
  | blocking effect release next ih =>
      simp only [Job.bind, guarded, ih]

end Job

namespace Shared

/-- **The world once all that was handed over has been carried out.** -/
def settled (s : Shared ω) : ω := s.orphans.foldl (fun w effect => effect w) s.world

theorem settled_of_nil {s : Shared ω} (h : s.orphans = []) : s.settled = s.world := by
  rw [settled, h]
  rfl

end Shared

namespace Call

variable {h : Handler ω σ} {others : ω → ω → Prop} {left : Bool → (ω → ω) → ω → Prop}
  {post : σ → ω → Prop}

/-- **Where a call goes on from a job**: it is blocked again, or waits, or its handler is done. -/
theorem covered_resume (c : Call ω σ) (s : Shared ω) {j : Job ω σ} {w : ω}
    (hj : j.Covered others left post w) :
    (∃ effect release next w', resume h c s j w =
        ({ c with stage := .handed effect release next }, { s with world := w' }) ∧
      (Job.blocking effect release next).Covered others left post w') ∨
    ∃ state w', post state w' ∧ resume h c s j w =
      (match h.await state with
        | .finish result => c.conclude result
        | _ => { c with stage := .awaiting state }, { s with world := w' }) := by
  induction j generalizing w with
  | done state => exact .inr ⟨state, w, hj, rfl⟩
  | now effect next ih => exact ih w hj
  | blocking effect release next _ => exact .inl ⟨effect, release, next, w, rfl, hj⟩

end Call

end DeviceGateway
