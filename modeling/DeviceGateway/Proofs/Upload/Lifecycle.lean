import DeviceGateway.Proofs.Upload.Whole

/-!
# The life of a session

A session is tried with any chunks, while the system may refuse any of its steps and others change
the workspace between the chunks. Each attempt either is accepted, and then the session is receiving
and has its sink, or it fails, and then nothing but failures comes after it (`attempt_cases`). So the
session is consistent after any attempts: its sink and its counts are what its state and the accepted
chunks say, and it never finds its sink closed (`session_is_consistent`).
-/

namespace DeviceGateway.Upload

variable {ι τ α : Type}

/-! ## Attempts -/

/-- **A step that the system refuses**: what comes of it all the same, and the error. -/
structure Refusal (ι : Type) where
  effect : Workspace ι → Workspace ι
  error : GatewayError

/-- Which step of a chunk the system refuses. -/
inductive Fault (ι : Type) where
  | opening (r : Refusal ι)
  | writing (r : Refusal ι)

def Fault.error : Fault ι → GatewayError
  | opening r | writing r => r.error

/-- **A chunk that comes to a session.** -/
structure Attempt (ι : Type) where
  /-- What others have done to the workspace since the last one. -/
  others : Workspace ι → Workspace ι
  chunk : UploadChunk
  fault : Option (Fault ι)

/-- The error of the first chunk that failed. -/
def firstError : List (Except GatewayError Unit) → Option GatewayError
  | [] => none
  | .error e :: _ => some e
  | .ok () :: rest => firstError rest

/-- How far a session has got that has given some answers. -/
def stateAfter (answers : List (Except GatewayError Unit)) : State :=
  match firstError answers with
  | some e => .failed e.message
  | none => if answers.isEmpty then .idle else .receiving

/-- The chunks that were accepted. -/
def acceptedOf (as : List (Attempt ι)) (answers : List (Except GatewayError Unit)) :
    List UploadChunk :=
  ((as.zip answers).filter (·.2.isOk)).map (·.1.chunk)

namespace Session

/-- A step is refused. -/
def refuse (r : Refusal ι) : Work ι (Except GatewayError α) := do
  Job.change r.effect
  pure (.error r.error)

def openUnder (i : Installer ι τ) (mode : Mode) (path : Option String) :
    Option (Fault ι) → Work ι (Except GatewayError (Option String × Sink τ))
  | some (.opening r) => refuse r
  | none | some (.writing _) => openSink i mode path

def writeUnder (i : Installer ι τ) (sink : Sink τ) (data : Bytes) :
    Option (Fault ι) → Work ι (Except GatewayError (Sink τ))
  | some (.writing r) => refuse r
  | none | some (.opening _) => sink.write i data

def takeUnder (i : Installer ι τ) (fault : Option (Fault ι)) (s : Session τ) (data : Bytes) :
    Work ι (Except GatewayError Unit × Session τ) :=
  if data.isEmpty then pure (.ok (), { s with chunks := s.chunks + 1 })
  else match s.sink with
    | none => s.fail i (.protocol "upload sink is not open")
    | some sink => do
      match ← (writeUnder i sink data fault).guarded (sink.release i) with
      | .error e => s.fail i e
      | .ok sink =>
        pure (.ok (), { s with sink := some sink, bytesWritten := s.bytesWritten + data.length
                               chunks := s.chunks + 1 })

/-- **One chunk**, of which the system may refuse a step. -/
def acceptUnder (i : Installer ι τ) (fault : Option (Fault ι)) (s : Session τ) (c : UploadChunk) :
    Work ι (Except GatewayError Unit × Session τ) :=
  match s.state with
  | .idle => do
    match ← openUnder i s.mode c.path fault with
    | .error e => s.fail i e
    | .ok (destination, sink) =>
      let opened := { s with state := .receiving, destination, sink := some sink }
      opened.takeUnder i fault c.data
  | .receiving => s.takeUnder i fault c.data
  | .succeeded | .failed _ =>
    pure (.error (.protocol "upload session is no longer receiving"), s)

/-- **One attempt**: the session accepts the chunk as always, unless the system refuses a step. -/
def attempt (i : Installer ι τ) (s : Session τ) (a : Attempt ι) :
    Work ι (Except GatewayError Unit × Session τ) := do
  Job.change a.others
  match a.fault with
  | none => s.accept i a.chunk
  | some fault => s.acceptUnder i (some fault) a.chunk

/-- **Any attempts**, one after the other: the answers, and the session after them. -/
def attempts (i : Installer ι τ) :
    Session τ → List (Attempt ι) → Work ι (List (Except GatewayError Unit) × Session τ)
  | s, [] => pure ([], s)
  | s, a :: more => do
    let (answer, s) ← s.attempt i a
    let (answers, s) ← attempts i s more
    pure (answer :: answers, s)

/-- Without a fault this is what a session does. -/
theorem acceptUnder_none (i : Installer ι τ) (s : Session τ) (c : UploadChunk) :
    s.acceptUnder i none c = s.accept i c := rfl

theorem run_attempt (i : Installer ι τ) (s : Session τ) (a : Attempt ι) (w : Workspace ι) :
    (s.attempt i a).run w = (s.acceptUnder i a.fault a.chunk).run (a.others w) := by
  rw [attempt, Job.run_bind, Job.run_change]
  cases a.fault with
  | none => rw [acceptUnder_none]
  | some fault => rfl

/-! ## One attempt -/

/-- **What is kept** of a session that has accepted some chunks. -/
structure Kept (mode : Mode) (accepted : List UploadChunk) (s : Session τ) : Prop where
  mode : s.mode = mode
  /-- The sink is open as long as the session is receiving. -/
  sink : s.sink.isSome = true ↔ s.state = .receiving
  unfinished : s.state ≠ .succeeded
  bytesWritten : s.bytesWritten = (dataOf accepted).length
  chunks : s.chunks = accepted.length

theorem Kept.new (mode : Mode) : Kept mode [] (Session.new mode : Session τ) :=
  ⟨rfl, ⟨fun h => (by cases h), fun h => (by cases h)⟩, fun h => (by cases h), rfl, rfl⟩

theorem Kept.opened {mode : Mode} {accepted : List UploadChunk} {s : Session τ}
    (hs : Kept mode accepted s) (destination : Option String) (sink : Sink τ) :
    Kept mode accepted { s with state := .receiving, destination, sink := some sink } :=
  ⟨hs.mode, ⟨fun _ => rfl, fun _ => rfl⟩, fun h => (by cases h), hs.bytesWritten, hs.chunks⟩

theorem Kept.sink_ne_none {mode : Mode} {accepted : List UploadChunk} {s : Session τ}
    (hs : Kept mode accepted s) (hstate : s.state = .receiving) : s.sink ≠ none :=
  Option.isSome_iff_ne_none.1 (hs.sink.2 hstate)

/-- **What comes of a chunk** that comes before any failure: its answer, and the session after it. -/
inductive Verdict (mode : Mode) (accepted : List UploadChunk) (c : UploadChunk) :
    Except GatewayError Unit × Session τ → Prop
  | accepted {s : Session τ} (hs : Kept mode (accepted ++ [c]) s) (hstate : s.state = .receiving) :
      Verdict mode accepted c (.ok (), s)
  | failed {s : Session τ} (hs : Kept mode accepted s) (e : GatewayError)
      (hstate : s.state = .failed e.message) : Verdict mode accepted c (.error e, s)

section

variable (i : Installer ι τ) (w : Workspace ι) (fault : Option (Fault ι)) {mode : Mode}
  {accepted : List UploadChunk} {s : Session τ}

theorem verdict_fail (hs : Kept mode accepted s) (e : GatewayError) (c : UploadChunk) :
    Verdict mode accepted c ((s.fail i e).run w).1 := by
  have hkept : Kept mode accepted
      { s with state := .failed e.message, sink := (none : Option (Sink τ)) } :=
    ⟨hs.mode, ⟨fun h => (by cases h), fun h => (by cases h)⟩, fun h => (by cases h),
      hs.bytesWritten, hs.chunks⟩
  exact .failed hkept e rfl

theorem verdict_takeUnder (hs : Kept mode accepted s) (hstate : s.state = .receiving)
    (c : UploadChunk) : Verdict mode accepted c ((s.takeUnder i fault c.data).run w).1 := by
  have hdata : dataOf (accepted ++ [c]) = dataOf accepted ++ c.data := by
    rw [dataOf, List.flatMap_append, List.flatMap_singleton, dataOf]
  have hcount : s.chunks + 1 = (accepted ++ [c]).length := by
    rw [List.length_append, hs.chunks]
    rfl
  unfold takeUnder
  split
  · next hempty =>
    refine .accepted ⟨hs.mode, hs.sink, hs.unfinished, ?_, hcount⟩ hstate
    rw [hdata, List.isEmpty_iff.1 hempty, List.append_nil]
    exact hs.bytesWritten
  · split
    · exact verdict_fail i w hs _ c
    · rw [Job.run_bind]
      split
      · exact verdict_fail i _ hs _ c
      · refine .accepted ⟨hs.mode, ⟨fun _ => hstate, fun _ => rfl⟩, hs.unfinished, ?_, hcount⟩ hstate
        rw [hdata, List.length_append, ← hs.bytesWritten]

/-- Such a chunk is accepted, or is the first to fail. -/
theorem verdict_acceptUnder (hs : Kept mode accepted s) (hgoing : ∀ m, s.state ≠ .failed m)
    (c : UploadChunk) : Verdict mode accepted c ((s.acceptUnder i fault c).run w).1 := by
  cases hstate : s.state with
  | idle =>
      simp only [acceptUnder, hstate, Job.run_bind]
      split
      · exact verdict_fail i _ hs _ c
      · exact verdict_takeUnder i _ fault (hs.opened _ _) rfl c
  | receiving =>
      simp only [acceptUnder, hstate]
      exact verdict_takeUnder i w fault hs hstate c
  | succeeded => exact absurd hstate hs.unfinished
  | failed m => exact absurd hstate (hgoing m)

/-- The error of a chunk that comes after a failure. -/
def lateError : GatewayError := .protocol "upload session is no longer receiving"

/-- **A chunk that comes after a failure** fails, and nothing happens. -/
theorem run_acceptUnder_of_failed {m : String} (hstate : s.state = .failed m) (c : UploadChunk) :
    (s.acceptUnder i fault c).run w = ((.error lateError, s), w) := by
  rw [acceptUnder, hstate]
  rfl

theorem run_finish_of_failed {m : String} (hstate : s.state = .failed m) :
    (s.finish i).run w = (.error (.other m), w) := by
  rw [finish, hstate]
  rfl

/-! ## Destinations -/

theorem destination_takeUnder (data : Bytes) :
    ((s.takeUnder i fault data).run w).1.2.destination = s.destination := by
  unfold takeUnder
  split
  · rfl
  · split
    · rfl
    · rw [Job.run_bind]
      split <;> rfl

/-- Only the first chunk says where the data goes. -/
theorem destination_acceptUnder (hstate : s.state ≠ .idle) (c : UploadChunk) :
    ((s.acceptUnder i fault c).run w).1.2.destination = s.destination := by
  unfold acceptUnder
  split
  · next h => exact absurd h hstate
  · exact destination_takeUnder i w fault c.data
  · rfl
  · rfl

theorem destination_first (mode : Mode) (c : UploadChunk) (path : String) :
    (((Session.new mode).acceptUnder i fault c).run w).1.2.destination = some path ↔
      ∃ sink, ((openUnder i mode c.path fault).run w).1 = .ok (some path, sink) := by
  have hidle : (Session.new mode : Session τ).state = .idle := rfl
  simp only [acceptUnder, hidle, Job.run_bind]
  split
  · next e he =>
    refine iff_of_false (fun h => (by cases h)) ?_
    rintro ⟨sink, hok⟩
    cases he.symm.trans hok
  · next destination sink hok =>
    have hopened : ((openUnder i mode c.path fault).run w).1 = .ok (destination, sink) := hok
    rw [destination_takeUnder, hopened]
    constructor
    · intro h
      exact ⟨sink, by rw [← h]⟩
    · rintro ⟨sink', h⟩
      cases h
      rfl

/-! ## Who says that a sink is not open -/

/-- The error of a session that is receiving and has no sink. -/
def noSink : GatewayError := .protocol "upload sink is not open"

/-- An installer says of one of its own transactions that a sink is not open. -/
def SaidBy (i : Installer ι τ) : Prop :=
  (∃ label w, ((i.begin label).run w).1 = .error noSink) ∨
    (∃ t data w, ((i.write t data).run w).1 = .error noSink) ∨
    ∃ t w, ((i.commit t).run w).1 = .error noSink

/-- It is not the session that says so: the system does, when it refuses a step, or an installer. -/
def SaidElsewhere (i : Installer ι τ) (fault : Option (Fault ι)) : Prop :=
  (∃ f, fault = some f ∧ f.error = noSink) ∨ SaidBy i

theorem replaceFile_ne_noSink (path : String) :
    ((Sink.replaceFile path : Work ι (Except GatewayError (Sink τ))).run w).1 ≠ .error noSink := by
  rw [Sink.replaceFile, Job.run_bind]
  dsimp only
  split <;> rw [Job.run_bind] <;> split
  · exact fun h => (by cases h)
  · rw [Job.run_bind]
    split <;> exact fun h => (by cases h)
  · exact fun h => (by cases h)
  · rw [Job.run_bind]
    split <;> exact fun h => (by cases h)

theorem saidBy_of_openSink {path : Option String}
    (h : ((openSink i mode path).run w).1 = .error noSink) : SaidBy i := by
  unfold openSink at h
  split at h
  · exact absurd (GatewayError.protocol.inj (Except.error.inj h)) (by decide)
  · split at h
    · exact absurd (GatewayError.protocol.inj (Except.error.inj h)) (by decide)
    · rw [Job.run_bind] at h
      split at h
      · next e he =>
        obtain rfl : e = noSink := Except.error.inj h
        exact absurd he (replaceFile_ne_noSink w _)
      · cases h
  · rw [Job.run_bind] at h
    split at h
    · next e he =>
      obtain rfl : e = noSink := Except.error.inj h
      exact .inl ⟨_, w, he⟩
    · cases h

theorem saidBy_of_write {sink : Sink τ} {data : Bytes}
    (h : ((sink.write i data).run w).1 = .error noSink) : SaidBy i := by
  cases sink with
  | file path number written => cases h
  | package t =>
      rw [Sink.write, Job.run_bind] at h
      split at h
      · cases h
      · next e he =>
        obtain rfl : e = noSink := Except.error.inj h
        exact .inr (.inl ⟨t, data, w, he⟩)

theorem saidBy_of_close {sink : Sink τ} (h : ((sink.close i).run w).1 = .error noSink) :
    SaidBy i := by
  cases sink with
  | file path number written => cases h
  | package t => exact .inr (.inr ⟨t, w, h⟩)

theorem saidElsewhere_of_openUnder {path : Option String}
    (h : ((openUnder i mode path fault).run w).1 = .error noSink) : SaidElsewhere i fault := by
  unfold openUnder at h
  split at h
  · exact .inl ⟨_, rfl, Except.error.inj h⟩
  · exact .inr (saidBy_of_openSink i w h)
  · exact .inr (saidBy_of_openSink i w h)

theorem saidElsewhere_of_writeUnder {sink : Sink τ} {data : Bytes}
    (h : ((writeUnder i sink data fault).run w).1 = .error noSink) : SaidElsewhere i fault := by
  unfold writeUnder at h
  split at h
  · exact .inl ⟨_, rfl, Except.error.inj h⟩
  · exact .inr (saidBy_of_write i w h)
  · exact .inr (saidBy_of_write i w h)

theorem saidElsewhere_of_takeUnder (hs : Kept mode accepted s) (hstate : s.state = .receiving)
    {data : Bytes} (h : ((s.takeUnder i fault data).run w).1.1 = .error noSink) :
    SaidElsewhere i fault := by
  unfold takeUnder at h
  split at h
  · cases h
  · split at h
    · next hnone => exact absurd hnone (hs.sink_ne_none hstate)
    · next sink _ =>
      rw [Job.run_bind, Job.run_guarded] at h
      split at h
      · next e he =>
        obtain rfl : e = noSink := Except.error.inj h
        exact saidElsewhere_of_writeUnder i w fault he
      · cases h

/-- **A session does not find its sink closed** when a chunk comes. -/
theorem saidElsewhere_of_acceptUnder (hs : Kept mode accepted s) {c : UploadChunk}
    (h : ((s.acceptUnder i fault c).run w).1.1 = .error noSink) : SaidElsewhere i fault := by
  cases hstate : s.state with
  | idle =>
      simp only [acceptUnder, hstate, Job.run_bind] at h
      split at h
      · next e he =>
        obtain rfl : e = noSink := Except.error.inj h
        exact saidElsewhere_of_openUnder i w fault he
      · exact saidElsewhere_of_takeUnder i _ fault (hs.opened _ _) rfl h
  | receiving =>
      simp only [acceptUnder, hstate] at h
      exact saidElsewhere_of_takeUnder i w fault hs hstate h
  | succeeded => exact absurd hstate hs.unfinished
  | failed m =>
      rw [run_acceptUnder_of_failed i w fault hstate] at h
      exact absurd (GatewayError.protocol.inj (Except.error.inj h)) (by decide)

/-- **A session does not find its sink closed** at the end. -/
theorem saidBy_of_finish (hs : Kept mode accepted s)
    (h : ((s.finish i).run w).1 = .error noSink) : SaidBy i := by
  cases hstate : s.state with
  | idle =>
      rw [finish, hstate] at h
      exact absurd (GatewayError.protocol.inj (Except.error.inj h)) (by decide)
  | receiving =>
      simp only [finish, hstate] at h
      split at h
      · next hnone => exact absurd hnone (hs.sink_ne_none hstate)
      · rw [Job.run_bind] at h
        split at h
        · next e he =>
          obtain rfl : e = noSink := Except.error.inj h
          exact saidBy_of_close i w he
        · cases h
  | succeeded => exact absurd hstate hs.unfinished
  | failed m =>
      rw [run_finish_of_failed i w hstate] at h
      cases h

/-! ## Any attempts -/

/-- What others do to the workspace between the chunks. -/
def leftToOthers (as : List (Attempt ι)) (w : Workspace ι) : Workspace ι :=
  as.foldl (fun w a => a.others w) w

theorem run_attempts_cons (s : Session τ) (a : Attempt ι) (more : List (Attempt ι)) :
    (attempts i s (a :: more)).run w =
      let first := (s.attempt i a).run w
      let later := (attempts i first.1.2 more).run first.2
      ((first.1.1 :: later.1.1, later.1.2), later.2) := by
  simp only [attempts, Job.run_bind, Job.run_pure]

theorem acceptedOf_cons (a : Attempt ι) (more : List (Attempt ι)) (answer : Except GatewayError Unit)
    (answers : List (Except GatewayError Unit)) :
    acceptedOf (a :: more) (answer :: answers) =
      acceptedOf [a] [answer] ++ acceptedOf more answers := by
  cases answer <;> rfl

/-- **One attempt**: it comes after a failure and does nothing, or before any and is judged. -/
theorem attempt_cases (hs : Kept mode accepted s) (a : Attempt ι) :
    (∃ m, s.state = .failed m ∧ (s.attempt i a).run w = ((.error lateError, s), a.others w)) ∨
      Verdict mode accepted a.chunk ((s.attempt i a).run w).1 := by
  rw [run_attempt]
  by_cases hfailed : ∃ m, s.state = .failed m
  · obtain ⟨m, hstate⟩ := hfailed
    exact .inl ⟨m, hstate, run_acceptUnder_of_failed i _ a.fault hstate a.chunk⟩
  · have hgoing : ∀ m, s.state ≠ .failed m := fun m h => hfailed ⟨m, h⟩
    exact .inr (verdict_acceptUnder i _ a.fault hs hgoing a.chunk)

theorem kept_attempt (hs : Kept mode accepted s) (a : Attempt ι) :
    Kept mode (accepted ++ acceptedOf [a] [((s.attempt i a).run w).1.1])
      ((s.attempt i a).run w).1.2 := by
  rcases attempt_cases i w hs a with ⟨m, hstate, hrun⟩ | hverdict
  · rw [hrun]
    exact (List.append_nil accepted).symm ▸ hs
  · generalize ((s.attempt i a).run w).1 = r at hverdict
    cases hverdict with
    | accepted hs' hstate => exact hs'
    | failed hs' e hstate => exact (List.append_nil accepted).symm ▸ hs'

theorem state_ne_idle_attempt (hs : Kept mode accepted s) (a : Attempt ι) :
    ((s.attempt i a).run w).1.2.state ≠ .idle := by
  rcases attempt_cases i w hs a with ⟨m, hstate, hrun⟩ | hverdict
  · rw [hrun, hstate]
    exact fun h => (by cases h)
  · generalize ((s.attempt i a).run w).1 = r at hverdict
    cases hverdict with
    | accepted hs' hstate => exact fun h => (by cases hstate.symm.trans h)
    | failed hs' e hstate => exact fun h => (by cases hstate.symm.trans h)

theorem kept_attempts (as : List (Attempt ι)) (hs : Kept mode accepted s) :
    Kept mode (accepted ++ acceptedOf as ((attempts i s as).run w).1.1)
      ((attempts i s as).run w).1.2 := by
  induction as generalizing s w accepted with
  | nil => exact (List.append_nil accepted).symm ▸ hs
  | cons a more ih =>
      rw [run_attempts_cons]
      dsimp only
      rw [acceptedOf_cons, ← List.append_assoc]
      exact ih _ (kept_attempt i w hs a)

/-- **After a failure there are only failures**, and the session leaves everything alone. -/
theorem run_attempts_of_failed {m : String} (hstate : s.state = .failed m)
    (as : List (Attempt ι)) :
    (attempts i s as).run w = ((as.map fun _ => .error lateError, s), leftToOthers as w) := by
  induction as generalizing w with
  | nil => rfl
  | cons a more ih =>
      rw [run_attempts_cons, run_attempt, run_acceptUnder_of_failed i _ a.fault hstate]
      dsimp only
      rw [ih]
      rfl

theorem length_attempts (s : Session τ) (as : List (Attempt ι)) :
    ((attempts i s as).run w).1.1.length = as.length := by
  induction as generalizing s w with
  | nil => rfl
  | cons a more ih =>
      rw [run_attempts_cons]
      exact congrArg (· + 1) (ih _ _)

theorem state_attempts (hs : Kept mode accepted s) (hgoing : ∀ m, s.state ≠ .failed m)
    (as : List (Attempt ι)) :
    ((attempts i s as).run w).1.2.state =
      ((firstError ((attempts i s as).run w).1.1).map fun e => .failed e.message).getD
        (if as.isEmpty then s.state else .receiving) := by
  induction as generalizing s w accepted with
  | nil => rfl
  | cons a more ih =>
      rw [run_attempts_cons, run_attempt]
      generalize hr : (s.acceptUnder i a.fault a.chunk).run (a.others w) = r
      obtain ⟨answered, w'⟩ := r
      have hverdict := verdict_acceptUnder i (a.others w) a.fault hs hgoing a.chunk
      rw [hr] at hverdict
      cases hverdict with
      | accepted hs' hstate =>
          dsimp only [firstError]
          rw [ih w' hs' (fun m h => by rw [hstate] at h; cases h), hstate, ite_self]
          rfl
      | failed hs' e hstate =>
          dsimp only
          rw [run_attempts_of_failed i w' hstate]
          exact hstate

theorem destination_attempts (hs : Kept mode accepted s) (hstate : s.state ≠ .idle)
    (as : List (Attempt ι)) : ((attempts i s as).run w).1.2.destination = s.destination := by
  induction as generalizing s w accepted with
  | nil => rfl
  | cons a more ih =>
      rw [run_attempts_cons]
      dsimp only
      rw [ih _ (kept_attempt i w hs a) (state_ne_idle_attempt i w hs a), run_attempt]
      exact destination_acceptUnder i _ a.fault hstate a.chunk

theorem saidElsewhere_of_attempts (hs : Kept mode accepted s) (as : List (Attempt ι))
    (h : .error noSink ∈ ((attempts i s as).run w).1.1) : ∃ a ∈ as, SaidElsewhere i a.fault := by
  induction as generalizing s w accepted with
  | nil => cases h
  | cons a more ih =>
      rw [run_attempts_cons] at h
      rcases List.mem_cons.1 h with hfirst | hlater
      · rw [run_attempt] at hfirst
        exact ⟨a, List.mem_cons_self, saidElsewhere_of_acceptUnder i _ a.fault hs hfirst.symm⟩
      · obtain ⟨b, hb, hsaid⟩ := ih _ (kept_attempt i w hs a) hlater
        exact ⟨b, List.mem_cons_of_mem a hb, hsaid⟩

theorem stateAfter_of_length {as : List (Attempt ι)} {answers : List (Except GatewayError Unit)}
    (h : answers.length = as.length) :
    stateAfter answers = ((firstError answers).map fun e => .failed e.message).getD
      (if as.isEmpty then .idle else .receiving) := by
  have hempty : answers.isEmpty = as.isEmpty := by
    rw [Bool.eq_iff_iff, List.isEmpty_iff_length_eq_zero, List.isEmpty_iff_length_eq_zero, h]
  rw [stateAfter, hempty]
  cases firstError answers <;> rfl

/-! ## Consistency -/

/-- **A session that is over**: nothing but failures comes of it, and it leaves everything alone. -/
structure Over (i : Installer ι τ) (e : GatewayError) (s : Session τ) : Prop where
  sink : s.sink = none
  attempts : ∀ later w, (attempts i s later).run w =
    ((later.map fun _ => .error lateError, s), leftToOthers later w)
  finish : ∀ w, ∃ e' : GatewayError,
    (s.finish i).run w = (.error e', w) ∧ e'.message = e.message

theorem over_of_failed (hs : Kept mode accepted s) {e : GatewayError}
    (hstate : s.state = .failed e.message) : Over i e s := by
  have hclosed : s.sink.isSome ≠ true := fun h => by cases hstate.symm.trans (hs.sink.1 h)
  refine ⟨Option.not_isSome_iff_eq_none.1 hclosed, fun later w => ?_, fun w => ?_⟩
  · exact run_attempts_of_failed i w hstate later
  · exact ⟨.other e.message, run_finish_of_failed i w hstate, rfl⟩

/-- **A session agrees with its history**, which is some attempts and the answers to them. -/
structure Consistent (i : Installer ι τ) (mode : Mode) (w : Workspace ι) (as : List (Attempt ι))
    (answers : List (Except GatewayError Unit)) (s : Session τ) : Prop where
  answered : answers.length = as.length
  state : s.state = stateAfter answers
  sink : s.sink.isSome = true ↔ s.state = .receiving
  bytesWritten : s.bytesWritten = (dataOf (acceptedOf as answers)).length
  chunks : s.chunks = (acceptedOf as answers).length
  /-- The data goes to what the first chunk has opened, and nowhere if it has opened nothing. -/
  destination : ∀ path, s.destination = some path ↔ ∃ first more sink, as = first :: more ∧
    ((openUnder i mode first.chunk.path first.fault).run (first.others w)).1 =
      .ok (some path, sink)
  /-- No chunk has found a session whose sink is not open. -/
  open_at_chunks : .error noSink ∈ answers → ∃ a ∈ as, SaidElsewhere i a.fault
  /-- Nor will the end. -/
  open_at_end : ∀ w, ((s.finish i).run w).1 = .error noSink → SaidBy i
  ended : ∀ e, firstError answers = some e → Over i e s
  mode : s.mode = mode

end

/-- **A session agrees with its history** after any attempts. -/
theorem session_is_consistent (i : Installer ι τ) (mode : Mode) (w : Workspace ι)
    (as : List (Attempt ι)) :
    Consistent i mode w as ((attempts i (Session.new mode) as).run w).1.1
      ((attempts i (Session.new mode) as).run w).1.2 := by
  have hkept := kept_attempts i w as (Kept.new mode)
  rw [List.nil_append] at hkept
  have hanswered := length_attempts i w (Session.new mode) as
  have hstate := state_attempts i w (Kept.new mode) (fun m h => by cases h) as
  refine ⟨hanswered, ?_, hkept.sink, hkept.bytesWritten, hkept.chunks, ?_,
    saidElsewhere_of_attempts i w (Kept.new mode) as, fun w' => saidBy_of_finish i w' hkept, ?_,
    hkept.mode⟩
  · rw [hstate]
    exact (stateAfter_of_length hanswered).symm
  · intro path
    cases as with
    | nil => exact iff_of_false (fun h => by cases h) (fun ⟨_, _, _, h, _⟩ => by cases h)
    | cons first more =>
        rw [run_attempts_cons]
        dsimp only
        rw [destination_attempts i _ (kept_attempt i w (Kept.new mode) first)
          (state_ne_idle_attempt i w (Kept.new mode) first), run_attempt, destination_first]
        constructor
        · rintro ⟨sink, hopened⟩
          exact ⟨first, more, sink, rfl, hopened⟩
        · rintro ⟨_, _, sink, has, hopened⟩
          cases has
          exact ⟨sink, hopened⟩
  · intro e he
    rw [he] at hstate
    exact over_of_failed i hkept hstate

end Session

end DeviceGateway.Upload
