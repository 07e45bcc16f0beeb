import DeviceGateway.Screen.Pipeline

/-!
# The capture loop

At every tick of its clock the capture loop asks a source for a frame and offers it to the pipeline,
but only while a viewer is connected. It ends when it is told to, when the pipeline is gone, or when
the source breaks down; a frame that the source fails to produce is passed over. The loop counts the
frames that it offered.
-/

namespace DeviceGateway

/-- What a source answers when it is asked for a frame. -/
inductive Shot (φ : Type) where
  | frame (f : φ)
  | failure (e : GatewayError)
  /-- The source breaks down. -/
  | breakdown
  deriving DecidableEq, Repr

/-- Where the loop stands. -/
inductive CaptureStage where
  | waiting
  /-- A tick found the pipeline there; the viewers are still to be looked at. -/
  | looking
  /-- The source has been asked. -/
  | asking
  | stopped
  deriving DecidableEq, Repr, Inhabited

/-- **The state of the loop.** -/
structure Capture where
  stage : CaptureStage
  offered : Nat
  deriving DecidableEq, Repr, Inhabited

namespace Capture

def start : Capture := ⟨.waiting, 0⟩

/-- A tick: the loop ends if the pipeline is gone. -/
def tick (closed : Bool) (c : Capture) : Capture :=
  { c with stage := if closed then .stopped else .looking }

/-- The source is asked if a viewer is connected. -/
def look (connected : Bool) (c : Capture) : Capture :=
  { c with stage := if connected then .asking else .waiting }

end Capture

/-! ## The loop and the pipeline together -/

/-- A capture loop that feeds a pipeline. -/
structure CaptureRun (γ φ : Type) where
  capture : Capture
  pipeline : Pipeline γ φ

namespace CaptureRun

variable {γ φ : Type}

/-- One step of the loop or of the pipeline. -/
inductive Move (φ : Type) where
  | tick
  /-- The loop looks whether a viewer is connected. -/
  | look
  /-- The source's answer arrives. -/
  | shot (s : Shot φ)
  /-- The loop is told to end. -/
  | stop
  | pipeline (m : Pipeline.Move φ)
  deriving DecidableEq, Repr

/-- **The state after a step**, if it is possible. The loop holds a producer until it stops. -/
def step? (via : Passage γ φ) (r : CaptureRun γ φ) : Move φ → Option (CaptureRun γ φ)
  | .tick =>
    if r.capture.stage = .waiting then
      some { r with capture := r.capture.tick r.pipeline.isClosed }
    else none
  | .look =>
    if r.capture.stage = .looking then
      some { r with capture := r.capture.look r.pipeline.viewers.connected }
    else none
  | .shot s =>
    if r.capture.stage = .asking then
      match s with
      | .frame f => some ⟨⟨.waiting, r.capture.offered + 1⟩, (r.pipeline.offer f).2⟩
      | .failure _ => some { r with capture := { r.capture with stage := .waiting } }
      | .breakdown => some { r with capture := { r.capture with stage := .stopped } }
    else none
  | .stop =>
    if r.capture.stage = .waiting then
      some { r with capture := { r.capture with stage := .stopped } }
    else none
  | .pipeline .starve =>
    if r.capture.stage = .stopped then
      (r.pipeline.step? via .starve).map fun p => { r with pipeline := p }
    else none
  | .pipeline m => (r.pipeline.step? via m).map fun p => { r with pipeline := p }

/-- The state after a run, if all its steps are possible. -/
def run? (via : Passage γ φ) (r : CaptureRun γ φ) : List (Move φ) → Option (CaptureRun γ φ)
  | [] => some r
  | m :: ms => (r.step? via m).bind (run? via · ms)

/-- **The loop over a list of answers**, the pipeline keeping up with it. It is told to end when
the answers are used up, or when a tick does not make it ask. -/
def play (via : Passage γ φ) (r : CaptureRun γ φ) : List (Shot φ) → CaptureRun γ φ
  | [] => (r.step? via .stop).getD r
  | s :: rest =>
    match (r.step? via .tick).bind (step? via · .look) with
    | none => (r.step? via .tick).getD r
    | some asked =>
      match asked.step? via (.shot s) with
      | none => (asked.step? via .stop).getD asked
      | some r => play via { r with pipeline := r.pipeline.settle via } rest

end CaptureRun

end DeviceGateway
