import DeviceGateway.Bytes

/-!
# Jobs

A job works on a world that others work on as well, and has an answer in the end. Some of its steps
are done at once. The others are handed to the system and block the job: the system carries them
out at some later moment, and only then the job goes on. A job may be abandoned while it is blocked.
Then what it holds is released at once, but a step that was handed over is carried out all the same.

`run` carries out a job undisturbed. Its steps can also be taken one by one, for anything may happen
between them.
-/

namespace DeviceGateway

/-- **A job** on a world, with an answer. What follows a step is told the world in which the step
was carried out. -/
inductive Job (ω α : Type) where
  | done (answer : α)
  /-- A step that is done at once. -/
  | now (effect : ω → ω) (next : ω → Job ω α)
  /-- A step that is handed over, and what is released if the job is abandoned meanwhile. -/
  | blocking (effect release : ω → ω) (next : ω → Job ω α)

namespace Job

variable {ω α β : Type}

/-- **A job undisturbed**: its answer, and the world after it. -/
def run : Job ω α → ω → α × ω
  | done answer, w => (answer, w)
  | now effect next, w => run (next w) (effect w)
  | blocking effect _ next, w => run (next w) (effect w)

/-- Goes on with the answer of a job. -/
def bind : Job ω α → (α → Job ω β) → Job ω β
  | done answer, f => f answer
  | now effect next, f => now effect fun w => bind (next w) f
  | blocking effect release next, f => blocking effect release fun w => bind (next w) f

instance : Monad (Job ω) where
  pure := done
  bind := bind

/-- Releases something more whenever the job is abandoned. -/
def guarded (more : ω → ω) : Job ω α → Job ω α
  | done answer => done answer
  | now effect next => now effect fun w => guarded more (next w)
  | blocking effect release next =>
    blocking effect (fun w => more (release w)) fun w => guarded more (next w)

/-- Hands over one step, whose answer may change the world. -/
def ask (step : ω → α × ω) : Job ω α := blocking (fun w => (step w).2) id fun w => done (step w).1

def atOnce (step : ω → α × ω) : Job ω α := now (fun w => (step w).2) fun w => done (step w).1

def change (effect : ω → ω) : Job ω Unit := now effect fun _ => done ()

/-! ## Running -/

@[simp] theorem run_done (answer : α) (w : ω) : (done answer : Job ω α).run w = (answer, w) := rfl

@[simp] theorem run_pure (answer : α) (w : ω) : (pure answer : Job ω α).run w = (answer, w) := rfl

@[simp] theorem run_ask (step : ω → α × ω) (w : ω) : (ask step).run w = step w := rfl

@[simp] theorem run_atOnce (step : ω → α × ω) (w : ω) : (atOnce step).run w = step w := rfl

@[simp] theorem run_change (effect : ω → ω) (w : ω) : (change effect).run w = ((), effect w) := rfl

@[simp] theorem run_bind (j : Job ω α) (f : α → Job ω β) (w : ω) :
    (j >>= f).run w = (f (j.run w).1).run (j.run w).2 := by
  change (Job.bind j f).run w = _
  induction j generalizing w with
  | done answer => rfl
  | now effect next ih => simp [Job.bind, run, ih]
  | blocking effect release next ih => simp [Job.bind, run, ih]

@[simp] theorem run_guarded (more : ω → ω) (j : Job ω α) (w : ω) :
    (j.guarded more).run w = j.run w := by
  induction j generalizing w with
  | done answer => rfl
  | now effect next ih => simp [guarded, run, ih]
  | blocking effect release next ih => simp [guarded, run, ih]

end Job

end DeviceGateway
