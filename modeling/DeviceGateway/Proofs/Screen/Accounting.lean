import DeviceGateway.Proofs.Screen.Steps

/-!
# The accounts of the screen pipeline

What the pipeline counts is set against what is seen of it. Between producers and consumer nothing
is lost: the frames put into the slot are those received and those discarded after the shutdown, in
the order in which they came, and those that are still on the way (`HandsOver`). The consumer looks
for viewers for every frame that it receives and asks the limiter only for those for which it finds
any, and each of its counters is the number of times that it has seen something (`Works`). So the
accounts balance after every run (`frames_are_accounted_for`).
-/

namespace DeviceGateway

namespace ConsumerStage

variable {φ : Type}

/-- The frame that is off the slot and neither counted nor discarded yet. -/
@[simp] def pulled? : ConsumerStage φ → Option φ
  | .pulled f => some f
  | _ => none

/-- The frame that is counted and has not come to its end. -/
@[simp] def inWork? : ConsumerStage φ → Option φ
  | .received f | .watched f | .admitted f | .encoded f _ | .awaiting f _ | .publishing f _ _ => some f
  | .idle | .pulled _ | .stopped => none

/-- The frame that the consumer has not looked for viewers for yet. -/
@[simp] def unlooked? : ConsumerStage φ → Option φ
  | .received f => some f
  | _ => none

/-- The frame that the limiter is still to be asked for. -/
@[simp] def unasked? : ConsumerStage φ → Option φ
  | .watched f => some f
  | _ => none

/-- The frame that the limiter admitted and that has not come to its end. -/
@[simp] def admitted? : ConsumerStage φ → Option φ
  | .admitted f | .encoded f _ | .awaiting f _ | .publishing f _ _ => some f
  | _ => none

/-- A frame in work has come to one of three points. -/
theorem length_inWork? (s : ConsumerStage φ) :
    s.inWork?.toList.length =
      s.unlooked?.toList.length + s.unasked?.toList.length + s.admitted?.toList.length := by
  cases s <;> rfl

end ConsumerStage

namespace Pipeline

variable {γ φ : Type} {via : Passage γ φ} {p q : Pipeline γ φ} {es h : List (Event φ)}

/-! ## Between producers and consumer -/

/-- **The frames on the way**: the one that the consumer is just taking out of the slot, which is
neither counted nor discarded yet, and the one in the slot. -/
def held (p : Pipeline γ φ) : List φ := p.stage.pulled?.toList ++ p.slot.toList

/-- **What the slot keeps**: frames leave it in the order in which they came. -/
structure HandsOver (p : Pipeline γ φ) (h : List (Event φ)) : Prop where
  /-- The slot is kept for a frame only while it is free. -/
  promise : p.promised.isSome = true → p.slot = none
  busy : p.droppedBusy = (pick Event.handing? h).count .busy
  /-- Frames are received in the order in which they are put into the slot. -/
  line : pick Event.placed? h =
    pick Event.received? h ++ (pick Event.discarded? h).flatten ++ p.held
  counted : p.stats.received = (pick Event.received? h).length
  running : p.isClosed = false → pick Event.discarded? h = []
  discards : pick Event.discarded? h ≠ [] → p.shutdown = true

theorem HandsOver.start (g : γ) (viewers : Broadcast) (shutdown : Bool) :
    (Pipeline.start g viewers shutdown : Pipeline γ φ).HandsOver [] where
  promise hsome := by cases hsome
  busy := rfl
  line := rfl
  counted := rfl
  running _ := rfl
  discards hne := absurd rfl hne

/-- The consumer's work on a frame is done beside the slot. -/
theorem HandsOver.atWork (hb : p.HandsOver h) {stage : ConsumerStage φ} {stats : PipelineStats}
    (hs : stage.pulled? = p.stage.pulled?) (hstats : stats.received = p.stats.received)
    (hopen : p.isClosed = false) (passage : γ) (viewers : Broadcast) :
    HandsOver { p with stage, stats, passage, viewers } h :=
  { hb with
    line := by rw [hb.line, held, held, hs]
    counted := hstats.trans hb.counted
    running := fun _ => hb.running hopen }

theorem HandsOver.step (hb : p.HandsOver h) (hstep : Step via p es q) : q.HandsOver (es ++ h) := by
  cases hstep with
  | place f hopen hfree =>
      rw [isFree, Bool.and_eq_true, Option.isNone_iff_eq_none, Option.isNone_iff_eq_none] at hfree
      exact
        { hb with
          promise := by rw [hfree.2]; exact fun hsome => by cases hsome
          busy := by simp [hb.busy]
          line := by simp [hb.line, held, hfree.1] }
  | busy f hopen hfull => exact { hb with busy := by simp [hb.busy] }
  | refuse f hclosed => exact { hb with busy := by simp [hb.busy] }
  | submit f hopen hfree =>
      rw [isFree, Bool.and_eq_true, Option.isNone_iff_eq_none, Option.isNone_iff_eq_none] at hfree
      exact
        { hb with
          promise := by rw [hfree.2]; exact fun hsome => by cases hsome
          line := by simp [hb.line, held, hfree.1] }
  | enter f hf =>
      have hslot := hb.promise (by rw [hf]; rfl)
      exact
        { hb with
          promise := fun hsome => by cases hsome
          line := by simp [hb.line, held, hslot] }
  | aside promised waiting fed shutdown hpromised hshutdown =>
      exact
        { hb with
          promise := fun hsome => hb.promise (hpromised hsome)
          discards := fun hne => hshutdown (hb.discards hne) }
  | pull f hs hf =>
      exact
        { hb with
          promise := fun _ => rfl
          line := by simp [hb.line, held, grant, hs, hf]
          running := fun _ => hb.running (by rw [isClosed, hs]) }
  | starved hs hf =>
      exact
        { hb with
          promise := fun _ => rfl
          line := by simp [hb.line, held, halt, hs, hf]
          running := fun hopen => by cases hopen }
  | discard f hs hshutdown =>
      have hnone := hb.running (by rw [isClosed, hs])
      exact
        { hb with
          promise := fun _ => rfl
          line := by simp [hb.line, held, halt, hs, hnone]
          running := fun hopen => by cases hopen
          discards := fun _ => hshutdown }
  | receive f hs hshutdown =>
      have hnone := hb.running (by rw [isClosed, hs])
      exact
        { hb with
          line := by simp [hb.line, held, hs, hnone]
          counted := by simp [hb.counted]
          running := fun _ => hnone }
  | viewer op hlock => exact { hb with }
  | watch f hs _ | skip f hs _ | allow f _ hs _ | limit f _ hs _ | encode f _ _ hs _ | fail f _ _ hs _
  | begin f _ hs _ | turn f _ hs | turnAway f _ hs _ | offerTo f _ _ _ hs _ | finish f _ hs =>
      exact { hb.atWork (by rw [hs]; rfl) (by rfl) (by rw [isClosed, hs]) _ _ with }

/-! ## The consumer's work -/

/-- **What the work keeps**: the consumer looks for viewers for each frame that it receives, in order,
and asks the limiter for those for which any are connected; its counters are what is seen. -/
structure Works (p : Pipeline γ φ) (h : List (Event φ)) : Prop where
  viewers : p.viewers.Sound
  looked : pick Event.received? h = (pick Event.looked? h).map (·.1) ++ p.stage.unlooked?.toList
  asked : ((pick Event.looked? h).filter (0 < ·.2)).map (·.1) =
    (pick Event.asked? h).map (·.1) ++ p.stage.unasked?.toList
  skipped : p.stats.skippedIdle = (pick Event.looked? h).countP (·.2 = 0)
  limited : p.stats.rateLimited = (pick Event.asked? h).countP (!·.2)
  admitted : (pick Event.asked? h).countP (·.2) =
    p.stats.published + p.stats.encodeFailed + p.stage.admitted?.toList.length

theorem Works.start (g : γ) {viewers : Broadcast} (hviewers : viewers.Sound) (shutdown : Bool) :
    (Pipeline.start g viewers shutdown : Pipeline γ φ).Works [] where
  viewers := hviewers
  looked := rfl
  asked := rfl
  skipped := rfl
  limited := rfl
  admitted := rfl

/-- A step with which no frame comes to another point of the work. -/
theorem Works.beside (hb : p.Works h) {stage : ConsumerStage φ} {viewers : Broadcast}
    (hviewers : viewers.Sound) (hlooked : stage.unlooked? = p.stage.unlooked?)
    (hasked : stage.unasked? = p.stage.unasked?) (hadmitted : stage.admitted? = p.stage.admitted?)
    (slot promised : Option φ) (waiting : List φ) (passage : γ) :
    Works { p with slot, promised, waiting, stage, passage, viewers } h :=
  { hb with
    viewers := hviewers
    looked := by rw [hb.looked, hlooked]
    asked := by rw [hb.asked, hasked]
    admitted := by rw [hb.admitted, hadmitted] }

theorem Works.step (hb : p.Works h) (hstep : Step via p es q) : q.Works (es ++ h) := by
  cases hstep with
  | place f _ _ | busy f _ _ | refuse f _ | submit f _ _ | enter f _ | aside _ _ _ _ _ _ =>
      exact { hb with }
  | viewer op _ => exact { hb with viewers := hb.viewers.step op }
  | pull f hs _ | starved hs _ | discard f hs _ =>
      refine { hb.beside hb.viewers ?_ ?_ ?_ _ _ _ p.passage with } <;> rw [hs] <;> rfl
  | receive f hs _ =>
      exact
        { hb with
          looked := by simp [hb.looked, hs]
          asked := by simp [hb.asked, hs]
          admitted := by simp [hb.admitted, hs] }
  | watch f hs hc =>
      have hpos : 0 < p.viewers.clientCount := hb.viewers.clientCount_pos.1 hc
      exact
        { hb with
          looked := by simp [hb.looked, hs]
          asked := by simp [hb.asked, hs, hpos]
          skipped := by simp [hb.skipped, Nat.ne_of_gt hpos]
          admitted := by simp [hb.admitted, hs] }
  | skip f hs hc =>
      have hnone : p.viewers.clientCount = 0 := by
        by_contra hne
        cases hc.symm.trans (hb.viewers.clientCount_pos.2 (Nat.pos_of_ne_zero hne))
      exact
        { hb with
          looked := by simp [hb.looked, hs]
          asked := by simp [hb.asked, hs, hnone]
          skipped := by simp [hb.skipped, hnone]
          admitted := by simp [hb.admitted, hs] }
  | allow f _ hs _ | limit f _ hs _ =>
      exact
        { hb with
          looked := by simp [hb.looked, hs]
          asked := by simp [hb.asked, hs]
          limited := by simp [hb.limited]
          admitted := by simp [hb.admitted, hs] }
  | encode f _ _ hs _ | begin f _ hs _ | turn f _ hs =>
      refine { hb.beside hb.viewers ?_ ?_ ?_ p.slot p.promised p.waiting _ with } <;> rw [hs] <;> rfl
  | offerTo f data _ id hs _ =>
      refine { hb.beside (hb.viewers.offer data id) ?_ ?_ ?_ p.slot p.promised p.waiting p.passage
        with } <;> rw [hs] <;> rfl
  | fail f _ _ hs _ | turnAway f _ hs _ =>
      exact
        { hb with
          looked := by simp [hb.looked, hs, published]
          asked := by simp [hb.asked, hs, published]
          admitted := by simp [hb.admitted, hs, published]; omega }
  | finish f _ hs =>
      exact
        { hb with
          viewers := .settle hb.viewers.nodup hb.viewers.taken hb.viewers.gate.2
          looked := by simp [hb.looked, hs, published]
          asked := by simp [hb.asked, hs, published]
          admitted := by simp [hb.admitted, hs, published]; omega }

/-! ## The balance -/

theorem length_handings (l : List Handing) :
    l.length = l.count .placed + l.count .busy + l.count .closed := by
  induction l with
  | nil => rfl
  | cons handing l ih => cases handing <;> simp [ih] <;> omega

/-- Whatever is put into the slot was offered or submitted. -/
theorem length_placed (h : List (Event φ)) :
    (pick Event.placed? h).length =
      (pick Event.handing? h).count .placed + (pick Event.submitted? h).length := by
  induction h with
  | nil => rfl
  | cons e h ih =>
      cases e with
      | offered f handing => cases handing <;> simp [ih]; omega
      | submitted f => simp [ih]; omega
      | _ => simpa using ih

/-- **The accounts balance** after a history. -/
structure Balanced (p : Pipeline γ φ) (h : List (Event φ)) : Prop where
  /-- Every frame that was offered was put into the slot, dropped since the slot was not free, or
  refused since the pipeline was closed. -/
  offers : (pick Event.handing? h).length =
    (pick Event.handing? h).count .placed + p.droppedBusy + (pick Event.handing? h).count .closed
  /-- What was put into the slot is on its way, received or discarded. -/
  slot : (pick Event.handing? h).count .placed + (pick Event.submitted? h).length =
    p.held.length + p.stats.received + (pick Event.discarded? h).flatten.length
  /-- Frames are discarded after the shutdown only. -/
  discards : pick Event.discarded? h ≠ [] → p.shutdown = true
  /-- Between frames, what was received has come to its end. -/
  outcomes : p.stage.inWork? = none →
    p.stats.received =
      p.stats.skippedIdle + p.stats.rateLimited + p.stats.encodeFailed + p.stats.published
  /-- Between frames, the limiter has admitted those that were published or could not be encoded. -/
  admitted : p.stage.inWork? = none →
    (pick Event.asked? h).countP (·.2) = p.stats.published + p.stats.encodeFailed
  /-- The consumer looks for viewers for what it receives, each frame once, and those are skipped for
  which it finds none. -/
  looked : (pick Event.looked? h).map (·.1) <+: pick Event.received? h
  skipped : p.stats.skippedIdle = (pick Event.looked? h).countP (·.2 = 0)
  /-- The limiter is asked for the others, each once, and for no frame that is skipped. -/
  asked : (pick Event.asked? h).map (·.1) <+: ((pick Event.looked? h).filter (0 < ·.2)).map (·.1)

/-- Every frame that was received was skipped, limited or admitted, or is in work. -/
theorem received_eq (hslot : p.HandsOver h) (hwork : p.Works h) :
    p.stats.received =
      p.stats.skippedIdle + p.stats.rateLimited + p.stats.encodeFailed + p.stats.published +
        p.stage.inWork?.toList.length := by
  have hreceived := hslot.counted
  have hadmitted := hwork.admitted
  have hlooked := congrArg List.length hwork.looked
  have hasked := congrArg List.length hwork.asked
  have hlooks : (pick Event.looked? h).length =
      (pick Event.looked? h).countP (·.2 = 0) + (pick Event.looked? h).countP (0 < ·.2) := by
    rw [List.length_eq_countP_add_countP (·.2 = 0)]
    refine congrArg _ (List.countP_congr fun look _ => ?_)
    simp [Nat.pos_iff_ne_zero]
  have hasks : (pick Event.asked? h).length =
      (pick Event.asked? h).countP (·.2) + (pick Event.asked? h).countP (!·.2) := by
    rw [List.length_eq_countP_add_countP (·.2)]
    refine congrArg _ (List.countP_congr fun ask _ => ?_)
    simp
  rw [List.length_append, List.length_map] at hlooked
  rw [List.length_append, List.length_map, List.length_map, ← List.countP_eq_length_filter] at hasked
  rw [hwork.skipped, hwork.limited, ConsumerStage.length_inWork?]
  omega

/-- A limiter that gives the answers of a list, and an encoder that cannot encode the frame 0. -/
def scripted : Passage (List Bool) Nat where
  allow answers := (answers.headD false, answers.tail)
  encode answers f :=
    (if f = 0 then .error (.encoding "frame") else .ok [UInt8.ofNat f], answers)

/-- Nobody watches when frame 8 comes, and frame 0 cannot be encoded. Frame 1 is published and frame 2
is dropped; frame 4 waits in line behind frame 3, so that frame 5 is dropped too; the limiter does not
admit frame 3, and the shutdown comes when frame 4 is out of the slot and frame 6 is in it. Frame 7
comes too late. -/
def everyOutcome : List (Move Nat) :=
  .offer 8 :: List.replicate 3 .consume ++
    [.viewer .connect, .offer 0] ++ List.replicate 5 .consume ++
    [.offer 1, .offer 2, .consume, .offer 3, .submit 4] ++
    List.replicate 6 .consume ++ [.offerTo 1, .consume] ++
    [.consume, .offer 5, .enter, .consume, .consume, .consume] ++
    [.consume, .offer 6, .shutdown, .consume, .offer 7]

end Pipeline

end DeviceGateway
