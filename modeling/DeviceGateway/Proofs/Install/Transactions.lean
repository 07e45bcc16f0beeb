import DeviceGateway.Install.Staging

/-!
# Transactions side by side

Any number of transactions of one installer, each begun, written to, committed and dropped by its
owner, in any order. What an owner asks for is a job, and the jobs of all transactions are carried
out one operation at a time, with the operations of others in between (`Installs.go?`). The system
may also refuse an operation (`Installs.fail?`) or stop in the middle of it (`Installs.short?`). A
transaction may be dropped while the system is at work for it, and then the system goes on all the
same (`Installs.drop?`). What is moved into the install directory is recorded in order
(`Installs.installed`).
-/

namespace DeviceGateway

namespace Job

variable {ω α : Type}

/-- **The next operation of a job**: what is left of the job, and the world after it. -/
def step? : Job ω α → ω → Option (Job ω α × ω)
  | done _, _ => none
  | now effect next, w => some (next w, effect w)
  | blocking effect _ next, w => some (next w, effect w)

end Job

namespace StagingDirectories

/-! ## One transaction -/

/-- **Where a transaction stands.** The data is what has been written to it so far. -/
inductive Transaction where
  | beginning (job : Work (Except GatewayError StagedPackage))
  | refused
  | held (p : StagedPackage) (data : Bytes)
  | writing (p : StagedPackage) (data more : Bytes)
    (job : Work (Except GatewayError StagedPackage))
  | committing (p : StagedPackage) (data : Bytes) (job : Work (Except GatewayError Unit))
  | committed (p : StagedPackage) (data : Bytes)
  /-- It has been dropped, but the system has still something to do for it. -/
  | leaving (p : StagedPackage) (effect : Workspace StagingCounter → Workspace StagingCounter)
  /-- It has been dropped, or its commit has failed. -/
  | givenUp (p : StagedPackage)

namespace Transaction

/-- A transaction that is begun, by what is left to be done. -/
def ofBegin : Work (Except GatewayError StagedPackage) → Transaction
  | .done (.ok p) => held p []
  | .done (.error _) => refused
  | job => beginning job

/-- A transaction that is written to. Nothing has been written if that fails. -/
def ofWrite (p : StagedPackage) (data more : Bytes) :
    Work (Except GatewayError StagedPackage) → Transaction
  | .done (.ok p) => held p (data ++ more)
  | .done (.error _) => held p data
  | job => writing p data more job

def ofCommit (p : StagedPackage) (data : Bytes) : Work (Except GatewayError Unit) → Transaction
  | .done (.ok ()) => committed p data
  | .done (.error _) => givenUp p
  | job => committing p data job

/-- The package of a transaction that has been begun. -/
def package? : Transaction → Option StagedPackage
  | beginning _ | refused => none
  | held p _ | writing p _ _ _ | committing p _ _ | committed p _ | leaving p _ | givenUp p =>
    some p

/-- Whether a transaction that has been begun is over: it is committed, or its owner has let it
go. -/
def isResolved : Transaction → Bool
  | committed .. | leaving .. | givenUp _ => true
  | beginning _ | refused | held .. | writing .. | committing .. => false

end Transaction

/-! ## All of them -/

/-- **The transactions of an installer**, in the order in which they were asked for. -/
structure Installs where
  world : Workspace StagingCounter
  transactions : List Transaction
  /-- The packages that have been moved to where they belong, with their data, in order. -/
  installed : List (StagedPackage × Bytes)

namespace Installs

def start (world : Workspace StagingCounter) : Installs := ⟨world, [], []⟩

/-- What happens to a transaction. -/
inductive Move where
  /-- Another transaction is begun. -/
  | begin (label : Option String)
  | write (i : Nat) (data : Bytes)
  | commit (i : Nat)
  /-- The owner lets a transaction go, whatever is being done for it. -/
  | drop (i : Nat)
  /-- The next operation that was asked for is carried out. -/
  | go (i : Nat)
  /-- The system refuses that operation. -/
  | fail (i : Nat)
  /-- The system writes the first octets of what was to be written, and refuses the others. -/
  | short (i count : Nat)
  deriving DecidableEq, Repr

/-- A transaction stands differently, on another world. -/
def becomes (s : Installs) (i : Nat) (t : Transaction) (world : Workspace StagingCounter) :
    Installs :=
  { s with world, transactions := s.transactions.set i t }

/-- What is recorded of a commit, by what is left to be done. -/
def record (p : StagedPackage) (data : Bytes) :
    Work (Except GatewayError Unit) → List (StagedPackage × Bytes)
  | .done (.ok ()) => [(p, data)]
  | _ => []

def write? (s : Installs) (i : Nat) (more : Bytes) : Option Installs :=
  match s.transactions[i]? with
  | some (.held p data) =>
    some (s.becomes i (.ofWrite p data more (StagingDirectories.write p more)) s.world)
  | _ => none

def commit? (s : Installs) (i : Nat) : Option Installs :=
  match s.transactions[i]? with
  | some (.held p data) =>
    some (s.becomes i (.ofCommit p data (StagingDirectories.commit p)) s.world)
  | _ => none

/-- **The next operation of a transaction is carried out.** -/
def go? (s : Installs) (i : Nat) : Option Installs :=
  match s.transactions[i]? with
  | some (.beginning job) =>
    (job.step? s.world).map fun (job, world) => s.becomes i (.ofBegin job) world
  | some (.writing p data more job) =>
    (job.step? s.world).map fun (job, world) => s.becomes i (.ofWrite p data more job) world
  | some (.committing p data job) =>
    (job.step? s.world).map fun (job, world) =>
      { s.becomes i (.ofCommit p data job) world with
        installed := s.installed ++ record p data job }
  | some (.leaving p effect) => some (s.becomes i (.givenUp p) (effect s.world))
  | _ => none

/-- **The system refuses the next operation of a transaction.** A commit that fails gives it up. -/
def fail? (s : Installs) (i : Nat) : Option Installs :=
  match s.transactions[i]? with
  | some (.beginning (.blocking ..)) => some (s.becomes i .refused s.world)
  | some (.writing p data _ (.blocking ..)) => some (s.becomes i (.held p data) s.world)
  | some (.committing p _ (.blocking ..)) => some (s.becomes i (.givenUp p) (release p s.world))
  | some (.leaving p _) => some (s.becomes i (.givenUp p) s.world)
  | _ => none

/-- **Only the first octets are written** of what a transaction was asked to write. -/
def short? (s : Installs) (i count : Nat) : Option Installs :=
  match s.transactions[i]? with
  | some (.writing p data more (.blocking ..)) =>
    let first := more.take count
    ((StagingDirectories.write p first).step? s.world).map fun (job, world) =>
      s.becomes i (.ofWrite p data first job) world
  | _ => none

/-- **A transaction is dropped**, and its staged file is released. An operation that was handed to
the system is carried out all the same. -/
def drop? (s : Installs) (i : Nat) : Option Installs :=
  match s.transactions[i]? with
  | some (.held p _) => some (s.becomes i (.givenUp p) (release p s.world))
  | some (.writing p _ _ (.blocking effect free _)) =>
    some (s.becomes i (.leaving p effect) (release p (free s.world)))
  | some (.committing p _ (.blocking effect free _)) =>
    some (s.becomes i (.leaving p effect) (free s.world))
  | _ => none

/-- **The state after a step**, if it is possible. -/
def step? (d : StagingDirectories) (s : Installs) : Move → Option Installs
  | .begin label => some { s with transactions := s.transactions ++ [.ofBegin (d.begin label)] }
  | .write i more => s.write? i more
  | .commit i => s.commit? i
  | .drop i => s.drop? i
  | .go i => s.go? i
  | .fail i => s.fail? i
  | .short i count => s.short? i count

/-- The state after a run, if all its steps are possible. -/
def run? (d : StagingDirectories) (s : Installs) : List Move → Option Installs
  | [] => some s
  | m :: ms => (s.step? d m).bind (run? d · ms)

/-- **The counter goes on** in a run: it never starts again from zero. -/
def countsOn (d : StagingDirectories) (s : Installs) : List Move → Bool
  | [] => true
  | m :: ms =>
    match s.step? d m with
    | none => true
    | some s' => decide (s.world.installs.next ≤ s'.world.installs.next) && countsOn d s' ms

/-- **What was installed last under a name.** -/
def last? (d : StagingDirectories) (installed : List (StagedPackage × Bytes)) (name : String) :
    Option Bytes :=
  (installed.reverse.find? (·.1.target = d.targetPath name)).map (·.2)

end Installs

/-! ## What is left to be done -/

section

variable (d : StagingDirectories) (label : Option String) (number : UInt64) (p : StagedPackage)
  (w : Workspace StagingCounter)

/-- A transaction is begun, and the staging directory is there. -/
def beginInstall : Work (Except GatewayError StagedPackage) := do
  match ← ensure d.install with
  | some e => pure (.error e.toError)
  | none => d.stage label

/-- A transaction is begun, and has its number. -/
def openStaged : Work (Except GatewayError StagedPackage) := do
  let name := packageName label number
  match ← Job.ask (Workspace.onDisk (·.openForWriting .empty (d.stagedPath name number))) with
  | .error e => pure (.error e.toError)
  | .ok file => pure (.ok ⟨d.stagedPath name number, d.targetPath name, file, 0⟩)

/-- A package is committed, and its data is on the disk. -/
def moveStaged : Work (Except GatewayError Unit) :=
  Job.guarded (release p) do
    match ← Job.ask (Workspace.onDisk fun d => (d.rename p.staged p.target).map ((), ·)) with
    | .ok () => pure (.ok ())
    | .error e =>
      Job.change (release p)
      pure (.error e.toError)

theorem begin_step? : (d.begin label).step? w =
    some (match (w.disk.makeDirectories d.staging).1 with
      | some e => .done (.error e.toError)
      | none => d.beginInstall label,
      { w with disk := (w.disk.makeDirectories d.staging).2 }) := rfl

theorem beginInstall_step? : (d.beginInstall label).step? w =
    some (match (w.disk.makeDirectories d.install).1 with
      | some e => .done (.error e.toError)
      | none => d.stage label,
      { w with disk := (w.disk.makeDirectories d.install).2 }) := rfl

theorem stage_step? : (d.stage label).step? w =
    some (d.openStaged label w.installs.next, { w with installs := ⟨w.installs.next + 1⟩ }) := rfl

theorem openStaged_step? : (d.openStaged label number).step? w =
    some (match w.disk.openForWriting .empty (d.stagedPath (packageName label number) number) with
      | .error e => (.done (.error e.toError), w)
      | .ok (file, disk) =>
        (.done (.ok ⟨d.stagedPath (packageName label number) number,
          d.targetPath (packageName label number), file, 0⟩), { w with disk })) := by
  simp only [openStaged, Job.ask, bind, Job.bind, Job.step?, Workspace.onDisk]
  cases w.disk.openForWriting .empty (d.stagedPath (packageName label number) number) with
  | error e => rfl
  | ok opened => rfl

theorem write_step? (data : Bytes) : (write p data).step? w =
    some (.done (.ok { p with written := p.written + data.length }),
      { w with disk := w.disk.writeAt p.file p.written data }) := rfl

theorem commit_step? : (commit p).step? w = some (moveStaged p, w) := rfl

theorem moveStaged_step? : (moveStaged p).step? w =
    some (match w.disk.rename p.staged p.target with
      | .error e => (.now (release p) fun _ => .done (.error e.toError), w)
      | .ok disk => (.done (.ok ()), { w with disk })) := by
  simp only [moveStaged, Job.ask, bind, Job.bind, Job.guarded, Job.step?, Workspace.onDisk]
  cases w.disk.rename p.staged p.target with
  | error e => rfl
  | ok disk => rfl

end

end StagingDirectories

end DeviceGateway
