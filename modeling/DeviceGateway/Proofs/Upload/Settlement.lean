import DeviceGateway.Proofs.Upload.Whole

/-!
# Transactions are settled

A ledger beside an installer keeps a record of its transactions: each one is begun, data is written
to it, and it is committed or aborted. Keeping it changes nothing that the installer does
(`Installer.audited`). A session that installs begins one transaction at most, and the ledger says
what became of it: it was settled once, and committed if and only if the upload succeeded
(`transactions_are_settled`).
-/

namespace DeviceGateway

variable {ι τ α : Type}

/-- **An entry of the ledger**, with the number of a transaction. -/
inductive Entry where
  | begun (n : Nat) (label : Option String)
  | wrote (n : Nat) (data : Bytes)
  | committed (n : Nat)
  /-- The transaction was given up, by its owner or by a commit that failed. -/
  | aborted (n : Nat)
  deriving DecidableEq

namespace Entry

def isBegun : Entry → Bool
  | begun _ _ => true
  | _ => false

/-- The data that an entry writes to a transaction. -/
def dataFor (n : Nat) : Entry → Bytes
  | wrote m data => if m = n then data else []
  | _ => []

end Entry

/-- The data written to a transaction. -/
def Ledger.dataOf (n : Nat) (entries : List Entry) : Bytes := entries.flatMap (·.dataFor n)

namespace Workspace

/-- A workspace with a ledger beside the installer. -/
def withLedger (w : Workspace ι) (entries : List Entry) : Workspace (ι × List Entry) :=
  ⟨w.disk, w.installs, entries⟩

/-- A workspace without its ledger. -/
def plain (w : Workspace (ι × List Entry)) : Workspace ι := ⟨w.disk, w.installs.1⟩

def record (e : Entry) (w : Workspace (ι × List Entry)) : Workspace (ι × List Entry) :=
  ⟨w.disk, w.installs.1, w.installs.2 ++ [e]⟩

end Workspace

/-- A job beside a ledger that it does not touch. -/
def Job.besideLedger : Job (Workspace ι) α → Job (Workspace (ι × List Entry)) α
  | .done answer => .done answer
  | .now effect next =>
    .now (fun w => (effect w.plain).withLedger w.installs.2) fun w => besideLedger (next w.plain)
  | .blocking effect release next =>
    .blocking (fun w => (effect w.plain).withLedger w.installs.2)
      (fun w => (release w.plain).withLedger w.installs.2) fun w => besideLedger (next w.plain)

@[simp] theorem Job.run_besideLedger (j : Job (Workspace ι) α) (w : Workspace ι)
    (entries : List Entry) :
    j.besideLedger.run (w.withLedger entries) =
      ((j.run w).1, (j.run w).2.withLedger entries) := by
  induction j generalizing w with
  | done answer => rfl
  | now effect next ih => exact ih w (effect w)
  | blocking effect release next ih => exact ih w (effect w)

/-- **An installer whose transactions are recorded.** A transaction is numbered when it is begun. -/
def Installer.audited (i : Installer ι τ) : Installer (ι × List Entry) (τ × Nat) where
  begin label := do
    match ← (i.begin label).besideLedger with
    | .error e => pure (.error e)
    | .ok t => Job.atOnce fun w =>
      let n := w.installs.2.countP (·.isBegun)
      (.ok (t, n), w.record (.begun n label))
  write t data := do
    match ← (i.write t.1 data).besideLedger with
    | .error e => pure (.error e)
    | .ok t' => do
      Job.change (·.record (.wrote t.2 data))
      pure (.ok (t', t.2))
  commit t := do
    match ← (i.commit t.1).besideLedger with
    | .error e => do
      Job.change (·.record (.aborted t.2))
      pure (.error e)
    | .ok () => do
      Job.change (·.record (.committed t.2))
      pure (.ok ())
  release t w := ((i.release t.1 w.plain).withLedger w.installs.2).record (.aborted t.2)

namespace Upload

/-- The label that chunks give to a package, which is the path of the first one unless it is empty.
-/
def labelOf (chunks : List UploadChunk) : Option String :=
  (chunks.head?.bind (·.path)).filter (· ≠ "")

/-- A session in the middle of a package. -/
def Session.installing (label : Option String) (t : τ) (written chunks : Nat) : Session τ :=
  ⟨.install, label, some (.package t), .receiving, written, chunks⟩

theorem Session.accept_installing (i : Installer ι τ) (label : Option String) (t : τ)
    (written count : Nat) (c : UploadChunk) :
    (Session.installing label t written count).accept i c =
      (Session.installing label t written count).take i c.data := rfl

/-- **What a session leaves in the ledger** behind the beginning of a transaction. -/
inductive Settled (n : Nat) (label : Option String) (chunks : List UploadChunk) (complete : Bool) :
    List Entry → Option Outcome → Prop where
  | committed {written : List Bytes} (hcomplete : complete = true)
      (hdata : written.flatten = dataOf chunks) :
      Settled n label chunks complete (written.map (.wrote n) ++ [.committed n])
        (some ⟨.install, label, (dataOf chunks).length, chunks.length⟩)
  | aborted (written : List Bytes) :
      Settled n label chunks complete (written.map (.wrote n) ++ [.aborted n]) none

section

variable (i : Installer ι τ) (w : Workspace ι) (entries : List Entry) (label : Option String) (t : τ)
  (n written count : Nat)

/-- **One chunk with and without a ledger**: the data is written and recorded, or the transaction is
given up. -/
theorem run_take_installing (data : Bytes) :
    (∃ (t' : τ) (w' : Workspace ι) (more : List Bytes),
      ((Session.installing label t written count).take i data).run w =
        ((.ok (), .installing label t' (written + data.length) (count + 1)), w') ∧
      ((Session.installing label (t, n) written count).take i.audited data).run
          (w.withLedger entries) =
        ((.ok (), .installing label (t', n) (written + data.length) (count + 1)),
          w'.withLedger (entries ++ more.map (.wrote n))) ∧
      more.flatten = data) ∨
    ∃ e s s' w', s.Closed ∧ s'.Closed ∧
      ((Session.installing label t written count).take i data).run w = ((.error e, s), w') ∧
      ((Session.installing label (t, n) written count).take i.audited data).run
          (w.withLedger entries) = ((.error e, s'), w'.withLedger (entries ++ [.aborted n])) := by
  by_cases hempty : data.isEmpty
  · cases List.isEmpty_iff.1 hempty
    exact .inl ⟨t, w, [], rfl, by rw [List.map_nil, List.append_nil]; rfl, rfl⟩
  · simp only [Session.take, hempty, Session.installing, Sink.write, Installer.audited, Job.run_bind,
      Job.run_guarded, Job.run_besideLedger, Bool.false_eq_true, if_false]
    rcases (i.write t data).run w with ⟨e | t', w'⟩
    · exact .inr ⟨e, _, _, _, ⟨rfl, .inr ⟨_, rfl⟩⟩, ⟨rfl, .inr ⟨_, rfl⟩⟩, rfl, rfl⟩
    · exact .inl ⟨t', w', [data], rfl, rfl, List.flatten_singleton⟩

variable {e : Ending}

/-- **The rest of a session that has begun a transaction.** -/
theorem settled_of_installing (he : e = .finish ∨ e = .drop) (arrivals : List Arrival)
    {taken : List UploadChunk} {before : List Bytes} (hbefore : before.flatten = dataOf taken) :
    ∃ new outcome w',
      (Session.rest i e (.installing label t (dataOf taken).length taken.length) arrivals).run w =
        (outcome, w') ∧
      (Session.rest i.audited e (.installing label (t, n) (dataOf taken).length taken.length)
          arrivals).run (w.withLedger (entries ++ before.map (.wrote n))) =
        (outcome, w'.withLedger (entries ++ new)) ∧
      Settled n label (taken ++ chunksTaken arrivals e) (isComplete arrivals e) new outcome := by
  -- What has been taken and written grows along the arrivals, so they vary with the world.
  induction arrivals generalizing w t taken before with
  | nil =>
      rcases he with rfl | rfl
      · simp only [Session.rest, Session.conclude, Session.finish, Session.installing, Sink.close,
          Installer.audited, Job.run_bind, Job.run_besideLedger]
        rcases (i.commit t).run w with ⟨fault | ⟨⟩, w'⟩
        · refine ⟨_, _, w', rfl, ?_, .aborted before⟩
          rw [← List.append_assoc]
          rfl
        · have hall : taken ++ chunksTaken [] .finish = taken := List.append_nil taken
          rw [hall]
          refine ⟨_, _, w', rfl, ?_, .committed rfl hbefore⟩
          rw [← List.append_assoc]
          rfl
      · refine ⟨_, _, i.release t w, rfl, ?_, .aborted before⟩
        rw [← List.append_assoc]
        rfl
  | cons a more ih =>
      cases a with
      | chunk c =>
          have hall : taken ++ chunksTaken (.chunk c :: more) e = taken ++ [c] ++ chunksTaken more e :=
            (List.append_assoc taken [c] _).symm
          have hdata : dataOf (taken ++ [c]) = dataOf taken ++ c.data := by
            rw [dataOf, List.flatMap_append, List.flatMap_singleton, dataOf]
          rw [hall, Session.run_rest_chunk, Session.run_rest_chunk, Session.accept_installing,
            Session.accept_installing]
          rcases run_take_installing i w (entries ++ before.map (.wrote n)) label t n
            (dataOf taken).length taken.length c.data with
            ⟨t', w', written, hrun, haudited, hwritten⟩ | ⟨fault, s, s', w', hs, hs', hrun, haudited⟩
          · obtain ⟨new, outcome, w'', hrest, hrest', hsettled⟩ :=
              @ih w' t' (taken ++ [c]) (before ++ written) (by
                rw [List.flatten_append, hbefore, hwritten, hdata])
            rw [hdata, List.length_append, List.length_append] at hrest hrest'
            rw [List.map_append, ← List.append_assoc] at hrest'
            rw [hrun, haudited]
            exact ⟨new, outcome, w'', hrest, hrest', hsettled⟩
          · rw [hrun, haudited, List.append_assoc]
            exact ⟨_, none, w', Session.run_rest_closed i w' hs e more,
              Session.run_rest_closed i.audited _ hs' e more, .aborted before⟩
      | refusal fault =>
          refine ⟨_, none, i.release t w, Session.run_rest_refusal i w _ fault more e, ?_,
            .aborted before⟩
          rw [Session.run_rest_refusal, ← List.append_assoc]
          rfl

/-! ## The first chunk -/

section

variable {i w} {c : UploadChunk} {w' : Workspace ι} (more : List Arrival) (e : Ending)

theorem run_whole_of_begun {t : τ} (h : (i.begin (c.path.filter (· ≠ ""))).run w = (.ok t, w')) :
    (Session.whole i .install (.chunk c :: more) e).run w =
      (Session.rest i e (.installing (c.path.filter (· ≠ "")) t 0 0) (.chunk c :: more)).run w' := by
  rw [Session.whole, Session.run_rest_chunk, Session.run_rest_chunk, Session.accept_installing]
  simp only [Session.accept, Session.new, Session.openSink, Job.run_bind, h]
  rfl

theorem run_whole_of_refused {fault : GatewayError}
    (h : (i.begin (c.path.filter (· ≠ ""))).run w = (.error fault, w')) :
    (Session.whole i .install (.chunk c :: more) e).run w = (none, w') := by
  rw [Session.whole, Session.run_rest_chunk]
  simp only [Session.accept, Session.new, Session.openSink, Job.run_bind, h]
  exact Session.run_rest_closed i _ (Session.closed_fail i w' _ fault) e more

end

/-- **What a session leaves in the ledger**, which is nothing if no transaction was begun. -/
inductive Recorded (chunks : List UploadChunk) (complete : Bool) :
    List Entry → Option Outcome → Prop where
  | nothing : Recorded chunks complete [] none
  | begun {n : Nat} {new : List Entry} {outcome : Option Outcome}
      (h : Settled n (labelOf chunks) chunks complete new outcome) :
      Recorded chunks complete (.begun n (labelOf chunks) :: new) outcome

theorem recorded_of_plain (he : e = .finish ∨ e = .drop) (arrivals : List Arrival) :
    ∃ new outcome w',
      (Session.whole i .install arrivals e).run w = (outcome, w') ∧
      (Session.whole i.audited .install arrivals e).run (w.withLedger entries) =
        (outcome, w'.withLedger (entries ++ new)) ∧
      Recorded (chunksTaken arrivals e) (isComplete arrivals e) new outcome := by
  cases arrivals with
  | nil =>
      refine ⟨[], none, w, ?_, ?_, .nothing⟩
      · rcases he with rfl | rfl <;> rfl
      · rw [List.append_nil]
        rcases he with rfl | rfl <;> rfl
  | cons a more =>
      cases a with
      | refusal fault =>
          refine ⟨[], none, w, Session.run_rest_refusal i w _ fault more e, ?_, .nothing⟩
          rw [List.append_nil]
          exact Session.run_rest_refusal i.audited _ _ fault more e
      | chunk c =>
          have haudited : (i.audited.begin (c.path.filter (· ≠ ""))).run (w.withLedger entries) =
              match (i.begin (c.path.filter (· ≠ ""))).run w with
              | (.error fault, w') => (.error fault, w'.withLedger entries)
              | (.ok t, w') => (.ok (t, entries.countP (·.isBegun)), w'.withLedger
                  (entries ++ [.begun (entries.countP (·.isBegun)) (c.path.filter (· ≠ ""))])) := by
            simp only [Installer.audited, Job.run_bind, Job.run_besideLedger]
            rcases (i.begin (c.path.filter (· ≠ ""))).run w with ⟨fault | t, w'⟩ <;> rfl
          rcases hbegin : (i.begin (c.path.filter (· ≠ ""))).run w with ⟨fault | t, w'⟩
          · rw [hbegin] at haudited
            refine ⟨[], none, w', run_whole_of_refused more e hbegin, ?_, .nothing⟩
            rw [List.append_nil]
            exact run_whole_of_refused more e haudited
          · rw [hbegin] at haudited
            obtain ⟨new, outcome, w'', hrun, hrun', hsettled⟩ :=
              @settled_of_installing _ _ i w' (entries ++ [.begun (entries.countP (·.isBegun))
                (c.path.filter (· ≠ ""))]) (c.path.filter (· ≠ "")) t
                (entries.countP (·.isBegun)) e he (.chunk c :: more) [] [] rfl
            rw [List.map_nil, List.append_nil, List.append_assoc] at hrun'
            exact ⟨_, outcome, w'', (run_whole_of_begun more e hbegin).trans hrun,
              (run_whole_of_begun more e haudited).trans hrun', .begun hsettled⟩

end

/-! ## The ledger in the end -/

section

variable {n m : Nat} {label : Option String} {chunks : List UploadChunk} {complete : Bool}
  {new : List Entry} {outcome : Option Outcome}

theorem count_writes (written : List Bytes) {e : Entry} (he : ∀ data, e ≠ .wrote n data) :
    (written.map (Entry.wrote n)).count e = 0 := by
  rw [List.count_eq_zero]
  intro h
  obtain ⟨data, -, rfl⟩ := List.mem_map.1 h
  exact he data rfl

theorem dataOf_writes (written : List Bytes) :
    Ledger.dataOf n (written.map (Entry.wrote n)) = written.flatten := by
  induction written with
  | nil => rfl
  | cons data written ih =>
      rw [List.map_cons, Ledger.dataOf, List.flatMap_cons, List.flatten_cons]
      exact congrArg₂ (· ++ ·) (if_pos rfl) ih

/-- **What the ledger says of one session.** -/
structure Settles (chunks : List UploadChunk) (complete : Bool) (new : List Entry)
    (outcome : Option Outcome) : Prop where
  /-- Each transaction is settled once, and committed if and only if there is an outcome. -/
  once : ∀ n label, .begun n label ∈ new →
    label = labelOf chunks ∧ new.count (.committed n) + new.count (.aborted n) = 1 ∧
      (.committed n ∈ new ↔ outcome.isSome = true)
  /-- No transaction is settled that has not been begun. -/
  known : ∀ n, .committed n ∈ new ∨ .aborted n ∈ new → .begun n (labelOf chunks) ∈ new
  /-- A transaction that is committed has all data of a complete upload. -/
  data : ∀ n, .committed n ∈ new → complete = true ∧ Ledger.dataOf n new = dataOf chunks
  /-- An outcome is that of a transaction that is committed. -/
  outcome : ∀ o, outcome = some o →
    o = ⟨.install, labelOf chunks, (dataOf chunks).length, chunks.length⟩ ∧
      ∃ n, .committed n ∈ new

theorem settles_of_recorded (h : Recorded chunks complete new outcome) :
    Settles chunks complete new outcome := by
  cases h with
  | nothing => exact ⟨nofun, by simp, nofun, nofun⟩
  | @begun n _ _ h =>
      cases h with
      | @committed written hcomplete hdata =>
          have hcommitted : (written.map (Entry.wrote n)).count (.committed n) = 0 :=
            count_writes written nofun
          have haborted : (written.map (Entry.wrote n)).count (.aborted n) = 0 :=
            count_writes written nofun
          refine ⟨?_, ?_, ?_, ?_⟩
          · rintro m label hm
            have hm : m = n ∧ label = labelOf chunks := by simpa using hm
            rcases hm with ⟨rfl, rfl⟩
            simp [List.count_append, hcommitted, haborted]
          · intro m hm
            have hm : m = n := by simpa using hm
            simp [hm]
          · intro m hm
            have hm : m = n := by simpa using hm
            subst hm
            refine ⟨hcomplete, ?_⟩
            have hwrites := dataOf_writes (n := m) written
            rw [← hdata, ← hwrites]
            simp [Ledger.dataOf, Entry.dataFor]
          · rintro o ⟨⟩
            exact ⟨rfl, n, by simp⟩
      | aborted written =>
          have hcommitted : (written.map (Entry.wrote n)).count (.committed n) = 0 :=
            count_writes written nofun
          have haborted : (written.map (Entry.wrote n)).count (.aborted n) = 0 :=
            count_writes written nofun
          refine ⟨?_, ?_, ?_, nofun⟩
          · rintro m label hm
            have hm : m = n ∧ label = labelOf chunks := by simpa using hm
            rcases hm with ⟨rfl, rfl⟩
            simp [List.count_append, hcommitted, haborted]
          · intro m hm
            have hm : m = n := by simpa using hm
            simp [hm]
          · intro m hm
            simp at hm

end

/-- **Every transaction is settled once and faithfully.** Whatever an installer does, whichever of
its steps fail, and however a session that installs goes and ends: with a ledger beside the
installer, the session does what it does without one, and what it adds to the ledger settles each
transaction that it has begun. -/
theorem transactions_are_settled (i : Installer ι τ) (w : Workspace ι) (entries : List Entry)
    (arrivals : List Arrival) (e : Ending) :
    let after := (Session.whole i .install arrivals e).run w
    ∃ new, (Session.whole i.audited .install arrivals e).run (w.withLedger entries) =
        (after.1, after.2.withLedger (entries ++ new)) ∧
      Settles (chunksTaken arrivals e) (isComplete arrivals e) new after.1 := by
  obtain ⟨arrivals', e', he, hchunks, hcomplete, hrun⟩ := exists_plain arrivals e
  obtain ⟨new, outcome, w', hplain, haudited, hrecorded⟩ :=
    recorded_of_plain i w entries he arrivals'
  rw [hchunks, hcomplete, hrun, hrun, hplain]
  exact ⟨new, haudited, settles_of_recorded hrecorded⟩

end Upload

end DeviceGateway
