import DeviceGateway.Broadcast
import DeviceGateway.Error

/-!
# The screen pipeline

Frames pass from producers to a consumer through a slot for one frame. `offer` never waits: a frame
that finds the slot taken is dropped. Whoever submits a frame waits in line for the slot; when it
gets free it is kept for the first in line. The consumer takes a frame, drops it if no viewer is
connected or if the limiter does not admit it, encodes it and publishes it to the viewers. None of
the drops is an error; all are counted.

The pipeline is a machine of small steps, because viewers, producers and the shutdown may act
between any two steps of the consumer, even between taking a frame and counting it, and viewers
receive while a frame is offered to one of them after the other. `step?` says which steps are
possible and what they do.
-/

namespace DeviceGateway

/-- What the consumer has counted. -/
structure PipelineStats where
  /-- Frames taken from the slot. -/
  received : Nat
  /-- Frames dropped because no viewer was connected. -/
  skippedIdle : Nat
  /-- Frames that the limiter did not admit. -/
  rateLimited : Nat
  /-- Frames that could not be encoded. -/
  encodeFailed : Nat
  /-- Frames handed to the broadcast. -/
  published : Nat
  deriving DecidableEq, Repr, Inhabited

/-- The limiter and the encoder that frames pass through. Both may change when they are used. -/
structure Passage (γ φ : Type) where
  allow : γ → Bool × γ
  encode : γ → φ → Except GatewayError Bytes × γ

/-- Where the consumer stands. -/
inductive ConsumerStage (φ : Type) where
  | idle
  /-- A frame is off the slot, and the consumer has not looked at the shutdown yet. -/
  | pulled (f : φ)
  /-- The shutdown had not fired: the frame is counted. -/
  | received (f : φ)
  /-- A viewer was connected when the consumer looked. -/
  | watched (f : φ)
  /-- The limiter admitted the frame. -/
  | admitted (f : φ)
  | encoded (f : φ) (data : Bytes)
  /-- Publishing has begun, as a viewer was connected; the table is still to be locked. -/
  | awaiting (f : φ) (data : Bytes)
  /-- The frame is offered to the viewers one after the other; these are still to be offered it. -/
  | publishing (f : φ) (data : Bytes) (pending : List Nat)
  | stopped
  deriving DecidableEq, Repr

/-- **The state of the pipeline**, with the viewers that it publishes to. -/
structure Pipeline (γ φ : Type) where
  slot : Option φ
  /-- The frame that the free slot is kept for; whoever submits it is on the way. -/
  promised : Option φ
  /-- The frames of those who submit and wait, in line. -/
  waiting : List φ
  stage : ConsumerStage φ
  /-- Whether any producer is left. -/
  fed : Bool
  /-- Whether the shutdown has fired. -/
  shutdown : Bool
  /-- Frames that `offer` found no room for. -/
  droppedBusy : Nat
  stats : PipelineStats
  passage : γ
  viewers : Broadcast

namespace Pipeline

variable {γ φ : Type}

def start (passage : γ) (viewers : Broadcast) (shutdown : Bool) : Pipeline γ φ :=
  { slot := none, promised := none, waiting := [], stage := .idle, fed := true, shutdown, droppedBusy := 0
    stats := ⟨0, 0, 0, 0, 0⟩, passage, viewers }

def isClosed (p : Pipeline γ φ) : Bool :=
  match p.stage with
  | .stopped => true
  | _ => false

/-- Whether the viewers are being offered a frame. Then nobody connects or is forgotten. -/
def isPublishing (p : Pipeline γ φ) : Bool :=
  match p.stage with
  | .publishing _ _ _ => true
  | _ => false

/-! ## Producers -/

/-- Whether a frame can be put into the slot at once. -/
def isFree (p : Pipeline γ φ) : Bool := p.slot.isNone && p.promised.isNone

/-- **Offers a frame without waiting**: whether it was put into the slot. -/
def offer (p : Pipeline γ φ) (f : φ) : Bool × Pipeline γ φ :=
  if p.isClosed then (false, p)
  else if p.isFree then (true, { p with slot := some f })
  else (false, { p with droppedBusy := p.droppedBusy + 1 })

/-- **Submits a frame**; nothing while it has to wait for the slot. -/
def submit? (p : Pipeline γ φ) (f : φ) : Option (Except GatewayError Unit × Pipeline γ φ) :=
  if p.isClosed then some (.error .channelClosed, p)
  else if p.isFree then some (.ok (), { p with slot := some f })
  else none

/-- A frame that is submitted and has to wait gets in line. -/
def lineUp (p : Pipeline γ φ) (f : φ) : Pipeline γ φ := { p with waiting := p.waiting ++ [f] }

/-- The free slot is kept for the first in line, if anybody waits. -/
def grant (p : Pipeline γ φ) : Pipeline γ φ :=
  { p with promised := p.waiting.head?, waiting := p.waiting.tail }

/-- The frame that the slot was kept for is put into it. -/
def enter? (p : Pipeline γ φ) : Option (Pipeline γ φ) :=
  p.promised.map fun f => { p with slot := some f, promised := none }

/-- Whoever the slot was kept for does not wait for it any more. -/
def renounce? (p : Pipeline γ φ) : Option (Pipeline γ φ) := p.promised.map fun _ => p.grant

/-- Somebody in line does not wait any more. -/
def leaveLine? (p : Pipeline γ φ) (place : Nat) : Option (Pipeline γ φ) :=
  if place < p.waiting.length then some { p with waiting := p.waiting.eraseIdx place } else none

/-! ## The consumer -/

/-- **The consumer stops.** What is in the slot is discarded, and whoever waits is turned away. -/
def halt (p : Pipeline γ φ) : Pipeline γ φ :=
  { p with slot := none, promised := none, waiting := [], stage := .stopped }

/-- Takes the frame out of the slot. The consumer stops when the slot is empty and no producer is
left. -/
def pull? (p : Pipeline γ φ) : Option (Pipeline γ φ) :=
  match p.stage, p.slot with
  | .idle, some f => some (grant { p with slot := none, stage := .pulled f })
  | .idle, none => if p.fed then none else some p.halt
  | _, _ => none

/-- Counts the frame; after the shutdown it is discarded instead, and the consumer stops. -/
def count? (p : Pipeline γ φ) : Option (Pipeline γ φ) :=
  match p.stage with
  | .pulled f =>
    if p.shutdown then some p.halt
    else some { p with stage := .received f
                       stats := { p.stats with received := p.stats.received + 1 } }
  | _ => none

def look? (p : Pipeline γ φ) : Option (Pipeline γ φ) :=
  match p.stage with
  | .received f =>
    if p.viewers.connected then some { p with stage := .watched f }
    else some { p with stage := .idle
                       stats := { p.stats with skippedIdle := p.stats.skippedIdle + 1 } }
  | _ => none

def ask? (via : Passage γ φ) (p : Pipeline γ φ) : Option (Pipeline γ φ) :=
  match p.stage with
  | .watched f =>
    let (ok, passage) := via.allow p.passage
    if ok then some { p with stage := .admitted f, passage }
    else some { p with stage := .idle, passage
                       stats := { p.stats with rateLimited := p.stats.rateLimited + 1 } }
  | _ => none

def encode? (via : Passage γ φ) (p : Pipeline γ φ) : Option (Pipeline γ φ) :=
  match p.stage with
  | .admitted f =>
    match via.encode p.passage f with
    | (.ok data, passage) => some { p with stage := .encoded f data, passage }
    | (.error _, passage) =>
      some { p with stage := .idle, passage
                    stats := { p.stats with encodeFailed := p.stats.encodeFailed + 1 } }
  | _ => none

/-- The frame is published. -/
def published (p : Pipeline γ φ) (viewers : Broadcast) : Pipeline γ φ :=
  { p with stage := .idle, viewers
           stats := { p.stats with published := p.stats.published + 1 } }

/-- Publishing begins, and is over at once if nobody is connected. -/
def present? (p : Pipeline γ φ) : Option (Pipeline γ φ) :=
  match p.stage with
  | .encoded f data =>
    if p.viewers.connected then some { p with stage := .awaiting f data }
    else some (p.published p.viewers)
  | _ => none

/-- The frame gets its turn: it is to be offered to all who are in the table now. -/
def turn? (p : Pipeline γ φ) : Option (Pipeline γ φ) :=
  match p.stage with
  | .awaiting f data => some { p with stage := .publishing f data (p.viewers.table.map (·.id)) }
  | _ => none

/-- The frame is offered to one of those it is still to be offered to. -/
def offerTo? (p : Pipeline γ φ) (id : Nat) : Option (Pipeline γ φ) :=
  match p.stage with
  | .publishing f data pending =>
    if pending.contains id then
      some { p with stage := .publishing f data (pending.erase id), viewers := p.viewers.offer data id }
    else none
  | _ => none

/-- All have been offered the frame. -/
def finish? (p : Pipeline γ φ) : Option (Pipeline γ φ) :=
  match p.stage with
  | .publishing _ _ [] => some (p.published p.viewers.settle)
  | _ => none

/-- The next step of the consumer, if it has one. -/
def consume? (via : Passage γ φ) (p : Pipeline γ φ) : Option (Pipeline γ φ) :=
  match p.stage with
  | .idle => p.pull?
  | .pulled _ => p.count?
  | .received _ => p.look?
  | .watched _ => p.ask? via
  | .admitted _ => p.encode? via
  | .encoded _ _ => p.present?
  | .awaiting _ _ => p.turn?
  | .publishing _ _ (id :: _) => p.offerTo? id
  | .publishing _ _ [] => p.finish?
  | .stopped => none

/-! ## All steps -/

/-- One step of anybody who takes part. -/
inductive Move (φ : Type) where
  | offer (f : φ)
  | submit (f : φ)
  | enter
  | renounce
  | leaveLine (place : Nat)
  | consume
  /-- The frame that is being published is offered to a viewer; they come in any order. -/
  | offerTo (id : Nat)
  | viewer (op : Broadcast.Op)
  /-- The last producer goes away. -/
  | starve
  | shutdown
  deriving DecidableEq, Repr

/-- **The state after a step**, if it is possible. Producers act as long as one is left, and the
viewers' table does not change while a frame is offered to those in it. -/
def step? (via : Passage γ φ) (p : Pipeline γ φ) : Move φ → Option (Pipeline γ φ)
  | .offer f => if p.fed then some (p.offer f).2 else none
  | .submit f => if p.fed then some ((p.submit? f).elim (p.lineUp f) (·.2)) else none
  | .enter => p.enter?
  | .renounce => p.renounce?
  | .leaveLine place => p.leaveLine? place
  | .consume => p.consume? via
  | .offerTo id => p.offerTo? id
  | .viewer op =>
    if p.isPublishing && op.locks then none
    else some { p with viewers := (p.viewers.step op).2 }
  | .starve =>
    if p.promised.isNone && p.waiting.isEmpty then some { p with fed := false } else none
  | .shutdown => some { p with shutdown := true }

/-- The state after a run, if all its steps are possible. -/
def run? (via : Passage γ φ) (p : Pipeline γ φ) : List (Move φ) → Option (Pipeline γ φ)
  | [] => some p
  | m :: ms => (p.step? via m).bind (run? via · ms)

/-! ## Running undisturbed -/

/-- The consumer's steps until it waits, stops or is about to encode. -/
def untilEncode (via : Passage γ φ) (p : Pipeline γ φ) : Nat → Pipeline γ φ
  | 0 => p
  | n + 1 =>
    match p.stage with
    | .admitted _ => p
    | _ =>
      match p.consume? via with
      | none => p
      | some p => untilEncode via p n

/-- The consumer's steps until it waits or stops. A frame takes eight steps and one for each viewer,
and at most one waits in the slot. -/
def untilIdle (via : Passage γ φ) (p : Pipeline γ φ) : Nat → Pipeline γ φ
  | 0 => p
  | n + 1 =>
    match p.consume? via with
    | none => p
    | some p => untilIdle via p n

/-- The most steps that the consumer can take undisturbed, but for those that offer a frame. -/
def maxSteps : Nat := 18

/-- The pipeline once the consumer has nothing to do. -/
def settle (via : Passage γ φ) (p : Pipeline γ φ) : Pipeline γ φ :=
  p.untilIdle via (maxSteps + 2 * p.viewers.clientCount)

/-- Submits frames one after the other, each once the one before is done with. -/
def submitAll (via : Passage γ φ) (p : Pipeline γ φ) (frames : List φ) : Pipeline γ φ :=
  frames.foldl (fun p f =>
    match p.submit? f with
    | some (_, p) => p.settle via
    | none => p) p

/-- Offers frames one after the other while the consumer does nothing: whether each was taken, and
the drops so far. -/
def offerAll (p : Pipeline γ φ) (frames : List φ) : List (Bool × Nat) × Pipeline γ φ :=
  frames.foldl (fun (answers, p) f =>
    let (ok, p) := p.offer f
    (answers ++ [(ok, p.droppedBusy)], p)) ([], p)

/-- **The end of a pipeline**: the producers go away and the consumer finishes. -/
def join (via : Passage γ φ) (p : Pipeline γ φ) : Pipeline γ φ :=
  settle via { p with fed := false }

end Pipeline

end DeviceGateway
