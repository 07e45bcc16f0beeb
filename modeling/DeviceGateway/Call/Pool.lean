import DeviceGateway.Call.Task

/-!
# The calls of a connection

A pool holds the calls of a connection that are in progress. A call is known by its number from the
moment when it is accepted until the pool has taken notice of its end. Ends are reported over a
channel with room for so many reports; a call that finds it full waits.

All steps of the calls are steps of the pool, and the operations of the connection come in between.
-/

namespace DeviceGateway

/-- **The calls in progress.** -/
structure Pool (ω σ : Type) where
  calls : List (Call ω σ)
  /-- Whether all calls are withdrawn, those to come included. -/
  allWithdrawn : Bool
  /-- The reported ends that the pool has not taken notice of. -/
  events : List UInt64

namespace Pool

variable {ω σ : Type}

/-- The reports that the channel has room for. -/
def eventCapacity : Nat := 1024

def empty : Pool ω σ := ⟨[], false, []⟩

def size (p : Pool ω σ) : Nat := p.calls.length

def call? (p : Pool ω σ) (id : UInt64) : Option (Call ω σ) := p.calls.find? (·.id == id)

def contains (p : Pool ω σ) (id : UInt64) : Bool := (p.call? id).isSome

/-- Puts a call in the place of the one with its number. -/
def replace (p : Pool ω σ) (c : Call ω σ) : Pool ω σ :=
  { p with calls := p.calls.map fun d => if d.id = c.id then c else d }

def modify (p : Pool ω σ) (id : UInt64) (f : Call ω σ → Call ω σ) : Pool ω σ :=
  { p with calls := p.calls.map fun c => if c.id = id then f c else c }

/-! ## Operations of the connection -/

/-- **Accepts a call** under a number that is free. -/
def spawn (p : Pool ω σ) (id : UInt64) (supervised : Bool) (stage : CallStage ω σ) :
    Except GatewayError (Pool ω σ) :=
  if p.contains id then .error (.protocol s!"call id {id.toNat} already in use")
  else .ok { p with calls := p.calls ++ [.start id supervised stage] }

/-- **Hands a message to a call**, or waits for room. A message for a call that is not known, or
that takes no more, is dropped. -/
def feed? (p : Pool ω σ) (id : UInt64) (m : Bytes) : Option (Pool ω σ) :=
  match p.call? id with
  | none => some p
  | some c => (c.inbox.put? m).map fun inbox => p.replace { c with inbox }

def halfClose (p : Pool ω σ) (id : UInt64) : Pool ω σ :=
  p.modify id fun c => { c with inbox := c.inbox.endSending }

def cancel (p : Pool ω σ) (id : UInt64) : Pool ω σ :=
  p.modify id fun c => { c with withdrawn := true }

/-- Withdraws all calls, those to come included. -/
def cancelParent (p : Pool ω σ) : Pool ω σ := { p with allWithdrawn := true }

/-- One of the steps by which all calls are withdrawn. -/
inductive TeardownStep where
  | endMessages (id : UInt64)
  | withdraw (id : UInt64)
  deriving DecidableEq, Repr

/-- The steps by which all calls are withdrawn: for each call, its messages end and then it is
withdrawn. -/
def teardown (p : Pool ω σ) : List TeardownStep :=
  p.calls.flatMap fun c => [.endMessages c.id, .withdraw c.id]

def tear (p : Pool ω σ) : TeardownStep → Pool ω σ
  | .endMessages id => p.halfClose id
  | .withdraw id => p.cancel id

def cancelAll (p : Pool ω σ) : Pool ω σ := p.teardown.foldl tear p

/-- The next reported end, and the pool without it in the channel. -/
def receive? (p : Pool ω σ) : Option (UInt64 × Pool ω σ) :=
  match p.events with
  | [] => none
  | id :: rest => some (id, { p with events := rest })

/-- Takes notice of an end: the call is forgotten. -/
def processEnd (p : Pool ω σ) (id : UInt64) : Pool ω σ :=
  { p with calls := p.calls.filter (·.id != id) }

/-- Takes notice of the next reported end. -/
def notice? (p : Pool ω σ) : Option (UInt64 × Pool ω σ) :=
  p.receive?.map fun (id, p) => (id, p.processEnd id)

/-- Whether the call with a number has come to its very end, so that waiting for it is over. -/
def isJoined (p : Pool ω σ) (id : UInt64) : Bool :=
  match p.call? id with
  | some c => c.stage.isGone
  | none => true

/-! ## Steps of the calls -/

/-- Who takes a step, and which. -/
inductive Move where
  | poll (id : UInt64)
  /-- The system carries out the step that a call waits for. -/
  | carry (id : UInt64)
  /-- The limit of a provider runs out. -/
  | expire (id : UInt64)
  /-- A call that is done reports its end. -/
  | report (id : UInt64)
  /-- The system carries out the first step that no call waits for any more. -/
  | orphan
  deriving DecidableEq, Repr

/-- Lets the call with a number take a step. -/
def act? (p : Pool ω σ) (s : Shared ω) (id : UInt64)
    (step : Call ω σ → Shared ω → Option (Call ω σ × Shared ω)) : Option (Pool ω σ × Shared ω) :=
  match p.call? id with
  | none => none
  | some c => (step c s).map fun (c, s) => (p.replace c, s)

/-- A call reports its end, if there is room. -/
def report? (p : Pool ω σ) (id : UInt64) : Option (Pool ω σ) :=
  match p.call? id with
  | none => none
  | some c =>
    match c.stage with
    | .reporting =>
      if p.events.length < eventCapacity then
        some { p.replace { c with stage := .gone } with events := p.events ++ [id] }
      else none
    | _ => none

/-- **The state after a step**, if it is possible. -/
def step? (h : Handler ω σ) (p : Pool ω σ) (s : Shared ω) : Move → Option (Pool ω σ × Shared ω)
  | .poll id => p.act? s id (Call.poll? h p.allWithdrawn)
  | .carry id => p.act? s id Call.carry?
  | .expire id => p.act? s id (Call.lapse? h p.allWithdrawn)
  | .report id => (p.report? id).map (·, s)
  | .orphan =>
    match s.orphans with
    | [] => none
    | effect :: rest => some (p, { s with world := effect s.world, orphans := rest })

/-! ## Running undisturbed -/

/-- The steps that may be possible now, providers apart. -/
def moves (p : Pool ω σ) : List Move :=
  .orphan :: p.calls.flatMap fun c => [.poll c.id, .carry c.id, .report c.id]

/-- The state after the first of some steps that is possible. -/
def stepFirst? (h : Handler ω σ) (p : Pool ω σ) (s : Shared ω) :
    List Move → Option (Pool ω σ × Shared ω)
  | [] => none
  | m :: ms =>
    match p.step? h s m with
    | some r => some r
    | none => stepFirst? h p s ms

/-- Lets the calls take steps, so many at most, until none can take one. -/
def settle (h : Handler ω σ) : Nat → Pool ω σ → Shared ω → Pool ω σ × Shared ω
  | 0, p, s => (p, s)
  | n + 1, p, s =>
    match stepFirst? h p s p.moves with
    | none => (p, s)
    | some (p, s) => settle h n p s

end Pool

end DeviceGateway
