import DeviceGateway.Call.Handler

/-!
# Calls in progress

A call in progress is a handler in one of its states, with an inbox and the mark of its withdrawal.
`poll?` is one step of it, with no other step in between: the thing that the handler waits for
happens, and the handler goes on until it waits again. A withdrawal is noticed only at the beginning
of a step, and then before anything else.

A supervised call tells its caller how it ended, with one status frame. A call that is not
supervised is on its own: it is not stopped by a withdrawal and says nothing at its end.
-/

namespace DeviceGateway

/-- How far a call has got. -/
inductive CallStage (ω σ : Type) where
  /-- Accepted; the handler has not begun. -/
  | starting (job : Job ω σ)
  /-- Accepted, but there is no handler for it. -/
  | refused (e : GatewayError)
  /-- The handler waits in a state. -/
  | awaiting (state : σ)
  /-- The handler waits for a step that was handed over and has not been carried out. -/
  | handed (effect release : ω → ω) (next : ω → Job ω σ)
  /-- That step has been carried out, and the handler has not gone on yet. -/
  | carried (release : ω → ω) (job : Job ω σ)
  /-- The handler is done, and the caller has not been told. -/
  | ended (result : Except GatewayError Unit)
  /-- The pool has not been told. -/
  | reporting
  | gone

namespace CallStage

variable {ω σ : Type}

/-- Whether the handler is still at work. -/
def isLive : CallStage ω σ → Bool
  | starting _ | awaiting _ | handed .. | carried .. => true
  | refused _ | ended _ | reporting | gone => false

def isGone : CallStage ω σ → Bool
  | gone => true
  | _ => false

/-- How a call begins: with what its handler starts with, or refused if there is no handler. -/
def opening : Except GatewayError (Job ω σ) → CallStage ω σ
  | .ok job => starting job
  | .error e => refused e

end CallStage

/-- **A call in progress.** -/
structure Call (ω σ : Type) where
  id : UInt64
  supervised : Bool
  inbox : Inbox
  withdrawn : Bool
  stage : CallStage ω σ

namespace Call

variable {ω σ : Type}

/-- A call that has just been accepted. -/
def start (id : UInt64) (supervised : Bool) (stage : CallStage ω σ) : Call ω σ :=
  ⟨id, supervised, .empty, false, stage⟩

/-- The handler is done: the inbox is let go, and who is supervised still has to tell the caller. -/
def conclude (c : Call ω σ) (result : Except GatewayError Unit) : Call ω σ :=
  { c with inbox := c.inbox.endReading
           stage := if c.supervised then .ended result else .reporting }

/-- Carries on with a job until the handler waits again or is done. -/
def resume (h : Handler ω σ) (c : Call ω σ) (s : Shared ω) : Job ω σ → ω → Call ω σ × Shared ω
  | .done state, w =>
    (match h.await state with
      | .finish result => c.conclude result
      | _ => { c with stage := .awaiting state }, { s with world := w })
  | .now effect next, w => resume h c s (next w) (effect w)
  | .blocking effect release next, w =>
    ({ c with stage := .handed effect release next }, { s with world := w })

/-- The handler is dropped where it stands: what it holds is released, and a step that was handed
over is left to the system. -/
def abandon (h : Handler ω σ) (c : Call ω σ) (s : Shared ω) : Call ω σ × Shared ω :=
  let cancelled := c.conclude (.error .cancelled)
  match c.stage with
  | .awaiting state => (cancelled, { s with world := h.release state s.world })
  | .handed effect release _ =>
    (cancelled, { s with world := release s.world, orphans := s.orphans ++ [effect] })
  | .carried release _ => (cancelled, { s with world := release s.world })
  | _ => (cancelled, s)

/-- The thing that the handler waits for happens, if it can. -/
def proceed? (h : Handler ω σ) (withdrawn : Bool) (c : Call ω σ) (s : Shared ω) (state : σ) :
    Option (Call ω σ × Shared ω) :=
  match h.await state with
  | .finish result => some (c.conclude result, s)
  | .receive next =>
    match c.inbox.take? with
    | none => none
    | some (m, inbox) => some (resume h { c with inbox } s (next m) s.world)
  | .send payload next =>
    match s.outbox.send? c.id payload with
    | none => none
    | some (sent, outbox) => some (resume h c { s with outbox } (next sent) s.world)
  | .provider answer _ next => answer.map fun a => resume h c s (next a) s.world
  | .withdrawal next => if withdrawn then some (resume h c s next s.world) else none
  | .deafness next => some (resume h { c with inbox := c.inbox.endReading } s next s.world)

/-- Tells the caller how the call ended. A status that is too large for a frame is not sent. -/
def tell? (c : Call ω σ) (s : Shared ω) (result : Except GatewayError Unit) :
    Option (Call ω σ × Shared ω) :=
  let told := { c with stage := .reporting }
  match Frame.status c.id (Status.ofResult result) with
  | .error _ => some (told, s)
  | .ok f =>
    match s.outbox.put? f with
    | none => none
    | some (.error _) => some (told, s)
    | some (.ok outbox) => some (told, { s with outbox })

/-- **One step of a call**, if it can take one. A call counts as withdrawn also when all calls
are. -/
def poll? (h : Handler ω σ) (allWithdrawn : Bool) (c : Call ω σ) (s : Shared ω) :
    Option (Call ω σ × Shared ω) :=
  let withdrawn := c.withdrawn || allWithdrawn
  if c.supervised && withdrawn && c.stage.isLive then some (c.abandon h s)
  else match c.stage with
    | .starting job | .carried _ job => some (resume h c s job s.world)
    | .refused e => some (c.conclude (.error e), s)
    | .awaiting state => proceed? h withdrawn c s state
    | .ended result => c.tell? s result
    | .handed .. | .reporting | .gone => none

/-- **The system carries out** the step that the handler waits for. -/
def carry? (c : Call ω σ) (s : Shared ω) : Option (Call ω σ × Shared ω) :=
  match c.stage with
  | .handed effect release next =>
    some ({ c with stage := .carried release (next s.world) }, { s with world := effect s.world })
  | _ => none

/-- **The limit of a provider** runs out. -/
def expire? (h : Handler ω σ) (c : Call ω σ) (s : Shared ω) : Option (Call ω σ × Shared ω) :=
  match c.stage with
  | .awaiting state =>
    match h.await state with
    | .provider none limit next => some (resume h c s (next (.error (.timeout limit))) s.world)
    | _ => none
  | _ => none

/-- The limit runs out for a call that is not withdrawn. A call that is withdrawn notices that
first, when the limit wakes it. -/
def lapse? (h : Handler ω σ) (allWithdrawn : Bool) (c : Call ω σ) (s : Shared ω) :
    Option (Call ω σ × Shared ω) :=
  if c.supervised && (c.withdrawn || allWithdrawn) then none else c.expire? h s

end Call

end DeviceGateway
