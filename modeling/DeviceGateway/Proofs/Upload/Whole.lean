import DeviceGateway.Proofs.Upload.Receiving

/-!
# Whole sessions

All that can happen to a session from its first chunk to the moment when it is used up. A session
that consumes messages does what it would do with the chunks that they hold (`run_rest_consume`), so
there is nothing that a session does and one that is finished or let go does not (`exists_plain`).
-/

namespace DeviceGateway.Upload

variable {ι τ : Type}

/-- **What comes to a session** while it is held. -/
inductive Arrival where
  | chunk (c : UploadChunk)
  /-- The system refuses what the session asks of it. -/
  | refusal (e : GatewayError)

/-- **How a session is used up.** -/
inductive Ending where
  | finish
  /-- The session is let go. -/
  | drop
  /-- The session takes its chunks from the messages of a caller, and is finished after them. -/
  | consume (messages : List Bytes)

/-- The chunks in messages, up to the first that cannot be read. -/
def chunksIn : List Bytes → List UploadChunk
  | [] => []
  | m :: rest =>
    match (Payload.ofBytes m : Except GatewayError UploadChunk) with
    | .error _ => []
    | .ok c => c :: chunksIn rest

/-- Whether all messages can be read. -/
def readable : List Bytes → Bool
  | [] => true
  | m :: rest =>
    match (Payload.ofBytes m : Except GatewayError UploadChunk) with
    | .error _ => false
    | .ok _ => readable rest

namespace Ending

/-- The chunks that come with the end. -/
def chunks : Ending → List UploadChunk
  | finish | drop => []
  | consume messages => chunksIn messages

/-- Whether the session is finished, and not let go. -/
def finishes : Ending → Bool
  | finish => true
  | drop => false
  | consume messages => readable messages

end Ending

/-- The chunks that a session takes, which are those before the first refusal. -/
def chunksTaken : List Arrival → Ending → List UploadChunk
  | [], e => e.chunks
  | .chunk c :: rest, e => c :: chunksTaken rest e
  | .refusal _ :: _, _ => []

/-- Whether nothing is refused, all messages can be read, and the session is finished. -/
def isComplete : List Arrival → Ending → Bool
  | [], e => e.finishes
  | .chunk _ :: rest, e => isComplete rest e
  | .refusal _ :: _, _ => false

namespace Session

def arrive (i : Installer ι τ) (s : Session τ) : Arrival → Work ι (Session τ)
  | .chunk c => do
    let (_, s) ← s.accept i c
    pure s
  | .refusal e => do
    let (_, s) ← s.fail i e
    pure s

/-- The end of a session, with its outcome unless it failed or was let go. -/
def conclude (i : Installer ι τ) (s : Session τ) : Ending → Work ι (Option Outcome)
  | .finish => do
    let r ← s.finish i
    pure r.toOption
  | .drop => do
    Job.change (s.release i)
    pure none
  | .consume messages => do
    let r ← s.consume i messages
    pure r.toOption

/-- **The rest of a session.** -/
def rest (i : Installer ι τ) (e : Ending) : Session τ → List Arrival → Work ι (Option Outcome)
  | s, [] => s.conclude i e
  | s, a :: more => do
    let s ← s.arrive i a
    rest i e s more

/-- **A session from the first chunk on.** -/
def whole (i : Installer ι τ) (mode : Mode) (arrivals : List Arrival) (e : Ending) :
    Work ι (Option Outcome) := rest i e (.new mode) arrivals

/-- The session takes no more chunks, and holds nothing. -/
structure Closed (s : Session τ) : Prop where
  sink : s.sink = none
  state : s.state = .succeeded ∨ ∃ message, s.state = .failed message

/-- Only a session that takes chunks, and has taken one, holds something. -/
def Sound (s : Session τ) : Prop := s.state = .receiving ∨ s.sink = none

theorem Closed.sound {s : Session τ} (h : s.Closed) : s.Sound := .inr h.sink

theorem sound_new (mode : Mode) : (Session.new mode : Session τ).Sound := .inr rfl

section

variable (i : Installer ι τ) (w : Workspace ι)

/-! ## Sessions that hold nothing -/

theorem release_of_nothing {s : Session τ} (hs : s.sink = none) : s.release i w = w := by
  rw [release, hs]

theorem closed_fail (s : Session τ) (e : GatewayError) : ((s.fail i e).run w).1.2.Closed :=
  ⟨rfl, .inr ⟨_, rfl⟩⟩

theorem run_accept_closed {s : Session τ} (hs : s.Closed) (c : UploadChunk) :
    ∃ e, (s.accept i c).run w = ((.error e, s), w) := by
  rcases hs.state with h | ⟨m, h⟩ <;>
  · rw [accept, h]
    exact ⟨_, rfl⟩

theorem run_finish_closed {s : Session τ} (hs : s.Closed) :
    ∃ e, (s.finish i).run w = (.error e, w) := by
  rcases hs.state with h | ⟨m, h⟩ <;>
  · rw [finish, h]
    exact ⟨_, rfl⟩

theorem run_arrive_closed {s : Session τ} (hs : s.Closed) (a : Arrival) :
    ∃ s', s'.Closed ∧ (s.arrive i a).run w = (s', w) := by
  cases a with
  | chunk c =>
      obtain ⟨e, hrun⟩ := run_accept_closed i w hs c
      refine ⟨s, hs, ?_⟩
      rw [arrive, Job.run_bind, hrun]
      rfl
  | refusal e =>
      refine ⟨_, closed_fail i w s e, ?_⟩
      simp only [arrive, fail, Job.run_bind, Job.run_change, Job.run_pure,
        release_of_nothing i w hs.sink]

theorem run_consume_closed {s : Session τ} (hs : s.Closed) (messages : List Bytes) :
    ∃ e, (s.consume i messages).run w = (.error e, w) := by
  cases messages with
  | nil => exact run_finish_closed i w hs
  | cons m rest =>
      have hrun : ∃ e, (s.acceptMessage i m).run w = ((.error e, s), w) := by
        unfold acceptMessage
        split
        · exact ⟨_, rfl⟩
        · next c hc => exact run_accept_closed i w hs c
      obtain ⟨e, hrun⟩ := hrun
      refine ⟨e, ?_⟩
      simp only [consume, Job.run_bind, hrun, Job.run_change, Job.run_pure,
        release_of_nothing i w hs.sink]

theorem run_conclude_closed {s : Session τ} (hs : s.Closed) (e : Ending) :
    (s.conclude i e).run w = (none, w) := by
  cases e with
  | finish =>
      obtain ⟨e, hrun⟩ := run_finish_closed i w hs
      rw [conclude, Job.run_bind, hrun]
      rfl
  | drop =>
      simp only [conclude, Job.run_bind, Job.run_change, Job.run_pure,
        release_of_nothing i w hs.sink]
  | consume messages =>
      obtain ⟨e, hrun⟩ := run_consume_closed i w hs messages
      rw [conclude, Job.run_bind, hrun]
      rfl

/-- **Nothing more comes of a session that holds nothing and takes no chunks.** -/
theorem run_rest_closed {s : Session τ} (hs : s.Closed) (e : Ending) (arrivals : List Arrival) :
    (rest i e s arrivals).run w = (none, w) := by
  induction arrivals generalizing s with
  | nil => exact run_conclude_closed i w hs e
  | cons a more ih =>
      obtain ⟨s', hs', hrun⟩ := run_arrive_closed i w hs a
      rw [rest, Job.run_bind, hrun]
      exact ih hs'

/-! ## One arrival after the other -/

theorem run_rest_chunk (s : Session τ) (c : UploadChunk) (more : List Arrival) (e : Ending) :
    (rest i e s (.chunk c :: more)).run w =
      (rest i e ((s.accept i c).run w).1.2 more).run ((s.accept i c).run w).2 := by
  rw [rest, arrive, Job.run_bind, Job.run_bind]
  rfl

/-- A refusal is the end of everything. -/
theorem run_rest_refusal (s : Session τ) (fault : GatewayError) (more : List Arrival) (e : Ending) :
    (rest i e s (.refusal fault :: more)).run w = (none, s.release i w) := by
  rw [rest, arrive, Job.run_bind, Job.run_bind]
  exact run_rest_closed i _ (closed_fail i w s fault) e more

/-! ## Soundness -/

/-- What a chunk makes of a session: it fails and holds nothing, or it goes on. -/
def Goes (r : Except GatewayError Unit × Session τ) : Prop :=
  (∃ e, r.1 = .error e ∧ r.2.Closed) ∨ r.1 = .ok () ∧ r.2.state = .receiving

theorem goes_take {s : Session τ} (hs : s.state = .receiving) (data : Bytes) :
    Goes ((s.take i data).run w).1 := by
  unfold take
  split
  · exact .inr ⟨rfl, hs⟩
  · split
    · exact .inl ⟨_, rfl, closed_fail i w s _⟩
    · next sink _ =>
      rw [Job.run_bind]
      split
      · exact .inl ⟨_, rfl, closed_fail i _ s _⟩
      · exact .inr ⟨rfl, hs⟩

theorem goes_accept {s : Session τ} (hs : s.Sound) (c : UploadChunk) :
    Goes ((s.accept i c).run w).1 := by
  have hclosed (h : s.Closed) : Goes ((s.accept i c).run w).1 := by
    obtain ⟨e, hrun⟩ := run_accept_closed i w h c
    rw [hrun]
    exact .inl ⟨e, rfl, h⟩
  cases hstate : s.state with
  | idle =>
      simp only [accept, hstate, Job.run_bind]
      split
      · exact .inl ⟨_, rfl, closed_fail i _ s _⟩
      · exact goes_take i _ rfl c.data
  | receiving =>
      simp only [accept, hstate]
      exact goes_take i w hstate c.data
  | succeeded =>
      exact hclosed ⟨hs.resolve_left fun h => (by cases hstate.symm.trans h), .inl hstate⟩
  | failed m =>
      exact hclosed ⟨hs.resolve_left fun h => (by cases hstate.symm.trans h), .inr ⟨m, hstate⟩⟩

theorem sound_arrive {s : Session τ} (hs : s.Sound) (a : Arrival) :
    ((s.arrive i a).run w).1.Sound := by
  cases a with
  | chunk c =>
      rw [arrive, Job.run_bind]
      rcases goes_accept i w hs c with ⟨e, -, h⟩ | ⟨-, h⟩
      · exact h.sound
      · exact .inl h
  | refusal e => exact (closed_fail i w s e).sound

/-! ## Consuming messages -/

/-- The end of a session that has taken the chunks in some messages. -/
def endingOf (messages : List Bytes) : Ending := if readable messages then .finish else .drop

theorem run_conclude_consume {s : Session τ} (hs : s.Sound) (messages : List Bytes) :
    (s.conclude i (.consume messages)).run w =
      (rest i (endingOf messages) s ((chunksIn messages).map .chunk)).run w := by
  induction messages generalizing s w with
  | nil => rfl
  | cons m more ih =>
      cases hm : (Payload.ofBytes m : Except GatewayError UploadChunk) with
      | error e =>
          simp only [conclude, consume, acceptMessage, hm, chunksIn, endingOf, readable, rest,
            Job.run_bind, Job.run_pure, Job.run_change, List.map_nil, Bool.false_eq_true, if_false,
            Except.toOption]
      | ok c =>
          have hchunks : chunksIn (m :: more) = c :: chunksIn more := by rw [chunksIn, hm]
          have hending : endingOf (m :: more) = endingOf more := by
            rw [endingOf, endingOf, readable, hm]
          rw [hchunks, hending, List.map_cons, run_rest_chunk]
          simp only [conclude, consume, acceptMessage, hm, Job.run_bind, Job.run_pure]
          rcases goes_accept i w hs c with ⟨e, he, hclosed⟩ | ⟨hok, hgoes⟩
          · rw [run_rest_closed i _ hclosed]
            rcases hr : (s.accept i c).run w with ⟨⟨r, s'⟩, w'⟩
            rw [hr] at he hclosed
            subst he
            simp only [Job.run_bind, Job.run_change, Job.run_pure, Except.toOption]
            rw [release_of_nothing i w' hclosed.sink]
          · rw [← ih _ (.inl hgoes)]
            rcases hr : (s.accept i c).run w with ⟨⟨r, s'⟩, w'⟩
            rw [hr] at hok
            subst hok
            simp only [conclude, Job.run_bind, Job.run_pure]

/-- **A session that consumes messages** does what it does with the chunks in them, one by one. -/
theorem run_rest_consume {s : Session τ} (hs : s.Sound) (arrivals : List Arrival)
    (messages : List Bytes) :
    (rest i (.consume messages) s arrivals).run w =
      (rest i (endingOf messages) s (arrivals ++ (chunksIn messages).map .chunk)).run w := by
  induction arrivals generalizing s w with
  | nil => exact run_conclude_consume i w hs messages
  | cons a more ih =>
      rw [List.cons_append, rest, rest, Job.run_bind, Job.run_bind]
      exact ih _ (sound_arrive i w hs a)

end

end Session

theorem chunksTaken_consume (arrivals : List Arrival) (messages : List Bytes) :
    chunksTaken arrivals (.consume messages) =
      chunksTaken (arrivals ++ (chunksIn messages).map .chunk) (Session.endingOf messages) := by
  induction arrivals with
  | nil =>
      have hplain : (Session.endingOf messages).chunks = [] := by
        unfold Session.endingOf
        split <;> rfl
      have hmap (cs : List UploadChunk) :
          chunksTaken (cs.map .chunk) (Session.endingOf messages) = cs := by
        induction cs with
        | nil => exact hplain
        | cons c cs ih => rw [List.map_cons, chunksTaken, ih]
      exact (hmap _).symm
  | cons a more ih =>
      cases a with
      | chunk c => exact congrArg (c :: ·) ih
      | refusal e => rfl

theorem isComplete_consume (arrivals : List Arrival) (messages : List Bytes) :
    isComplete arrivals (.consume messages) =
      isComplete (arrivals ++ (chunksIn messages).map .chunk) (Session.endingOf messages) := by
  induction arrivals with
  | nil =>
      have hmap (cs : List UploadChunk) :
          isComplete (cs.map .chunk) (Session.endingOf messages) = readable messages := by
        induction cs with
        | nil =>
            show (Session.endingOf messages).finishes = _
            unfold Session.endingOf
            cases readable messages <;> rfl
        | cons c cs ih => exact ih
      exact (hmap _).symm
  | cons a more ih =>
      cases a with
      | chunk c => exact ih
      | refusal e => rfl

/-- **Whatever a session does**, a session does that is finished or let go and takes the same
chunks. -/
theorem exists_plain (arrivals : List Arrival) (e : Ending) :
    ∃ arrivals' e', (e' = .finish ∨ e' = .drop) ∧
      chunksTaken arrivals e = chunksTaken arrivals' e' ∧
      isComplete arrivals e = isComplete arrivals' e' ∧
      ∀ (ι τ : Type) (i : Installer ι τ) (mode : Mode) (w : Workspace ι),
        (Session.whole i mode arrivals e).run w = (Session.whole i mode arrivals' e').run w := by
  cases e with
  | finish => exact ⟨arrivals, .finish, .inl rfl, rfl, rfl, fun _ _ _ _ _ => rfl⟩
  | drop => exact ⟨arrivals, .drop, .inr rfl, rfl, rfl, fun _ _ _ _ _ => rfl⟩
  | consume messages =>
      refine ⟨_, Session.endingOf messages, ?_, chunksTaken_consume arrivals messages,
        isComplete_consume arrivals messages, fun ι τ i mode w =>
          Session.run_rest_consume i w (Session.sound_new mode) arrivals messages⟩
      unfold Session.endingOf
      split
      · exact .inl rfl
      · exact .inr rfl

end DeviceGateway.Upload
