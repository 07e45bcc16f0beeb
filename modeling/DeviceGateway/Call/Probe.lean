import DeviceGateway.Call.Pool

/-!
# Probing a pool

Four small handlers that show what a pool does with its calls, each writing into a log: one reads
its messages, one leaves them unread until it is withdrawn, one does not even keep them, and one is
done at once. After every operation on the pool the calls run until none can go on.
-/

namespace DeviceGateway.Probe

/-- What a handler notes down. -/
inductive Note where
  | message (m : Bytes)
  | endOfMessages
  | cancelled
  | done
  deriving DecidableEq, Repr, Inhabited

/-- The notes of all calls, each with the number of its call. -/
abbrev Log := List (UInt64 × Note)

/-- The handlers. -/
inductive Kind where
  /-- Notes its messages, and their end. -/
  | collect
  /-- Keeps its messages unread until it is withdrawn. -/
  | wait
  /-- Lets its messages go, and then waits likewise. -/
  | deaf
  | done
  deriving DecidableEq, Repr, Inhabited

/-- The states of the handlers. -/
inductive State where
  | collecting (id : UInt64)
  | deafening (id : UInt64)
  | waiting (id : UInt64)
  | finished
  deriving DecidableEq, Repr, Inhabited

/-- Notes something down, and goes on in a state. -/
def note (id : UInt64) (n : Note) (next : State) : Job Log State :=
  .now (· ++ [(id, n)]) fun _ => .done next

def begin (kind : Kind) (id : UInt64) : Job Log State :=
  match kind with
  | .collect => .done (.collecting id)
  | .wait => .done (.waiting id)
  | .deaf => .done (.deafening id)
  | .done => note id .done .finished

def handler : Handler Log State where
  await
    | .collecting id => .receive fun
      | some m => note id (.message m) (.collecting id)
      | none => note id .endOfMessages .finished
    | .deafening id => .deafness (.done (.waiting id))
    | .waiting id => .withdrawal (note id .cancelled .finished)
    | .finished => .finish (.ok ())
  release _ w := w

/-! ## A pool of probes -/

/-- A pool, and what its calls share. -/
structure Bench where
  pool : Pool Log State
  shared : Shared Log
  /-- Whether the pool has been shut down. -/
  shut : Bool

namespace Bench

def new : Bench := ⟨.empty, ⟨[], .empty 1, []⟩, false⟩

/-- More steps than the calls can take after one operation. -/
def patience : Nat := 100000

/-- Lets the calls run until none can go on. -/
def settle (b : Bench) : Bench :=
  let (pool, shared) := b.pool.settle handler patience b.shared
  { b with pool, shared }

/-- Hands a message to a call so many times, the calls running in between: how many of them were
taken before one had to wait. -/
def feed (id : UInt64) (m : Bytes) : Nat → Nat → Bench → Nat × Bench
  | 0, taken, b => (taken, b)
  | n + 1, taken, b =>
    match b.pool.feed? id m with
    | some pool => feed id m n (taken + 1) (settle { b with pool })
    | none => (taken, b)

/-- Takes notice of all reported ends: the numbers of the calls, sorted. -/
def reap (b : Bench) : List UInt64 × Bench :=
  let read : Pool Log State := { b.pool with events := [] }
  (b.pool.events.mergeSort, { b with pool := b.pool.events.foldl Pool.processEnd read })

/-- An operation on the pool. -/
inductive Op where
  | spawn (id : UInt64) (kind : Kind)
  | feed (id : UInt64) (m : Bytes) (times : Nat)
  | halfClose (id : UInt64)
  | cancel (id : UInt64)
  | cancelAll
  | cancelParent
  | reap
  | shutdown
  deriving DecidableEq, Repr

/-- What an operation answers. -/
inductive Answer where
  | spawned (result : Except GatewayError Unit)
  | fed (count : Nat)
  | reaped (ids : List UInt64)
  | nothing

/-- One operation, without what the calls do afterwards. -/
def perform (b : Bench) : Op → Answer × Bench
  | .spawn id kind =>
    match b.pool.spawn id false (.starting (begin kind id)) with
    | .ok pool => (.spawned (.ok ()), { b with pool })
    | .error e => (.spawned (.error e), b)
  | .feed id m times => let (n, b) := feed id m times 0 b; (.fed n, b)
  | .halfClose id => (.nothing, { b with pool := b.pool.halfClose id })
  | .cancel id => (.nothing, { b with pool := b.pool.cancel id })
  | .cancelAll => (.nothing, { b with pool := b.pool.cancelAll })
  | .cancelParent => (.nothing, { b with pool := b.pool.cancelParent })
  | .reap => let (ids, b) := b.reap; (.reaped ids, b)
  | .shutdown => (.nothing, { b with pool := b.pool.cancelAll, shut := true })

/-- **One operation**, and what the calls do until none can go on. The log starts anew. -/
def step (b : Bench) (op : Op) : Answer × Bench :=
  let (answer, b) := perform { b with shared := { b.shared with world := [] } } op
  (answer, b.settle)

/-- The answers to operations, each with the bench after it. -/
def trace (b : Bench) : List Op → List (Answer × Bench)
  | [] => []
  | op :: ops => let r := b.step op; r :: trace r.2 ops

end Bench

/-- The notes of a log by the numbers of the calls, in the order of the numbers. -/
def byCall (log : Log) : List (UInt64 × List Note) :=
  ((log.map (·.1)).eraseDups.mergeSort).map fun id => (id, (log.filter (·.1 == id)).map (·.2))

end DeviceGateway.Probe
