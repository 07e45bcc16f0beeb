import DeviceGateway.Proofs.Screen.Showing
import DeviceGateway.Screen.Capture

/-!
# From the source to the viewers

The capture loop, the pipeline that it feeds and the viewers are one system (`CaptureRun`), in which
nobody else feeds the pipeline or publishes (`IsOwn`). Frames are lost at four places: at a tick while
nobody is connected, at the slot, at the limiter and at the queue of a viewer. Whatever all of them
do, a viewer receives encodings of frames that the source produced, in the order in which it produced
them, and the loop asks the source only when it has found a viewer
(`viewers_see_an_honest_substream`).
-/

namespace DeviceGateway

/-- A step that takes neither another producer nor another publisher. -/
def Pipeline.Move.IsOwn {φ : Type} : Pipeline.Move φ → Bool
  | .offer _ | .submit _ | .enter | .renounce | .leaveLine _ | .viewer (.publish _) => false
  | _ => true

namespace Pipeline

variable {γ φ : Type} {via : Passage γ φ} {g : γ} {n : Nat} {p q : Pipeline γ φ}
  {es h : List (Event φ)}

/-- What is seen of an offer to a viewer is of the viewers. -/
theorem mem_seenOfOffer {e : Event φ} {id : Nat} (he : e ∈ p.seenOfOffer id) :
    ∃ data queued, e = .viewers [.offered id data queued] := by
  unfold seenOfOffer at he
  split at he
  · exact ⟨_, _, List.mem_singleton.1 he⟩
  · cases he

/-- **Nobody but the loop puts frames into the slot, and nobody but the consumer publishes.** -/
theorem seen_of_isOwn (via : Passage γ φ) (p : Pipeline γ φ) {m : Move φ} (hm : m.IsOwn = true) :
    ∀ e ∈ p.seen via m, e.placed? = none ∧ ∀ data count, e ≠ .viewers [.published data count] := by
  intro e he
  cases m with
  | offerTo id =>
      obtain ⟨data, queued, rfl⟩ := mem_seenOfOffer he
      exact ⟨rfl, by simp⟩
  | consume =>
      rw [seen, seenOfConsumer] at he
      split at he
      · split at he <;> (rw [List.mem_singleton.1 he]; simp)
      · rw [List.mem_singleton.1 he]; simp
      · rw [List.mem_singleton.1 he]; simp
      · split at he
        · cases he
        · rcases List.mem_pair.1 he with rfl | rfl <;> simp
      · rcases List.mem_pair.1 he with rfl | rfl <;> simp
      · obtain ⟨data, queued, rfl⟩ := mem_seenOfOffer he
        simp
      · cases he
  | viewer op =>
      rw [List.mem_singleton.1 he]
      cases op with
      | publish data => cases hm
      | connect | disconnect id => simp [Broadcast.seen]
      | drop id | receive id | drain id =>
          rw [Broadcast.seen]
          split <;> simp
  | starve | shutdown => cases he
  | _ => cases hm

/-- **What a pipeline carries** from the slot to the viewers. -/
structure Carries (via : Passage γ φ) (g : γ) (n : Nat) (p : Pipeline γ φ) (h : List (Event φ)) :
    Prop where
  slot : p.HandsOver h
  order : p.Presents via g h
  viewers : p.Shows n h

namespace Carries

theorem start (g : γ) (depth : Nat) (shutdown : Bool) :
    Carries via g (max depth 1 + 1) (.start g (.new depth) shutdown) [] :=
  ⟨.start g _ shutdown, .start g _ shutdown, .start g depth shutdown⟩

theorem step (hc : p.Carries via g n h) (hstep : Step via p es q)
    (hown : ∀ data count, .viewers [.published data count] ∉ es) : q.Carries via g n (es ++ h) :=
  ⟨hc.slot.step hstep, hc.order.step hstep, hc.viewers.step hstep hown⟩

/-- A viewer is shown frames that were put into the slot, in that order. -/
theorem shown_sublist (hc : p.Carries via g n h) (id : Nat) :
    ((shownTo id h).map (·.1)).Sublist (pick Event.placed? h) := by
  rw [hc.slot.line, List.append_assoc]
  exact ((shownTo_sublist id h).map _).trans
    (hc.order.giveUp.trans (List.sublist_append_left _ _))

theorem encodings (hc : p.Carries via g n h) {id : Nat} {shot : φ × Bytes}
    (hshot : shot ∈ shownTo id h) : via.Encodes g shot.1 shot.2 :=
  hc.order.encodings shot ((shownTo_sublist id h).subset hshot)

end Carries

end Pipeline

namespace CaptureRun

open Pipeline (broadcastLog shownTo)
open Broadcast (receivedBy)

variable {γ φ : Type} {via : Passage γ φ} {g : γ} {n : Nat} {r s : CaptureRun γ φ}

/-- A loop that feeds a new pipeline, with nobody connected. -/
def start (g : γ) (depth : Nat) (shutdown : Bool) : CaptureRun γ φ :=
  ⟨.start, .start g (.new depth) shutdown⟩

/-- A step of the loop, or of the pipeline and its viewers without anybody else. -/
def Move.IsOwn : Move φ → Bool
  | .pipeline m => m.IsOwn
  | _ => true

/-- **What is seen of a step.** -/
inductive Event (φ : Type) where
  /-- The loop looks for viewers at a tick: how many are connected, and whether it asks the source. -/
  | looked (viewers : Nat) (asks : Bool)
  /-- The source produces a frame. -/
  | produced (f : φ)
  /-- The source produces none. -/
  | failed
  /-- What is seen of the pipeline. -/
  | pipeline (events : List (Pipeline.Event φ))
  deriving DecidableEq, Repr

/-- Whether the source is at work. -/
def isAsking (r : CaptureRun γ φ) : Bool := r.capture.stage = .asking

/-- **What is seen of a step**, the latest first. -/
def seen (via : Passage γ φ) (r : CaptureRun γ φ) : Move φ → List (Event φ)
  | .look =>
    [.looked r.pipeline.viewers.clientCount
      (isAsking { r with capture := r.capture.look r.pipeline.viewers.connected })]
  | .shot (.frame f) => [.pipeline [.offered f r.pipeline.handing], .produced f]
  | .shot _ => [.failed]
  | .pipeline m => [.pipeline (r.pipeline.seen via m)]
  | _ => []

/-- **The history after a run**, the latest first. -/
def log (via : Passage γ φ) (h : List (Event φ)) (r : CaptureRun γ φ) : List (Move φ) → List (Event φ)
  | [] => h
  | m :: ms => log via (r.seen via m ++ h) ((r.step? via m).getD r) ms

/-- What is seen of the pipeline in all. -/
def pipelineLog : List (Event φ) → List (Pipeline.Event φ)
  | [] => []
  | .pipeline events :: h => events ++ pipelineLog h
  | _ :: h => pipelineLog h

namespace Event

/-- A look for viewers: how many are connected, and whether the source is asked. -/
@[simp] def looked? : Event φ → Option (Nat × Bool)
  | .looked viewers asks => some (viewers, asks)
  | _ => none

@[simp] def produced? : Event φ → Option φ
  | .produced f => some f
  | _ => none

/-- The source's answer: a frame, or none. -/
@[simp] def answer? : Event φ → Option (Option φ)
  | .produced f => some (some f)
  | .failed => some none
  | _ => none

end Event

/-! ## What a step keeps -/

/-- **What the loop keeps**: the slot gets frames in the order in which they are produced, and the
source is asked for each answer once. -/
structure Captures (via : Passage γ φ) (g : γ) (n : Nat) (r : CaptureRun γ φ) (h : List (Event φ)) :
    Prop where
  carries : r.pipeline.Carries via g n (pipelineLog h)
  placed : (pick Pipeline.Event.placed? (pipelineLog h)).Sublist (pick Event.produced? h)
  looks : ∀ look ∈ pick Event.looked? h, look.2 = true ↔ 0 < look.1
  answers : (pick Event.looked? h).countP (·.2) =
    (pick Event.answer? h).length + if r.isAsking then 1 else 0
  counted : r.capture.offered = (pick Event.produced? h).length

/-- A step of the pipeline is one also while the loop feeds it. -/
theorem step?_pipeline {m : Pipeline.Move φ} (h : r.step? via (.pipeline m) = some s) :
    ∃ p, r.pipeline.step? via m = some p ∧ s = { r with pipeline := p } := by
  have hmap : (r.pipeline.step? via m).map (fun p => { r with pipeline := p }) = some s := by
    cases m with
    | starve => exact (Option.ite_none_right_eq_some.1 h).2
    | _ => exact h
  obtain ⟨p, hp, rfl⟩ := Option.map_eq_some_iff.1 hmap
  exact ⟨p, hp, rfl⟩

namespace Captures

variable {h : List (Event φ)}

theorem start (via : Passage γ φ) (g : γ) (depth : Nat) (shutdown : Bool) :
    (CaptureRun.start g depth shutdown).Captures via g (max depth 1 + 1) [] where
  carries := .start g depth shutdown
  placed := .refl _
  looks _ hlook := absurd hlook List.not_mem_nil
  answers := rfl
  counted := rfl

/-- While the source is at work, it has been asked once more than it has answered. -/
theorem asked_of_asking (hc : r.Captures via g n h) (hs : r.capture.stage = .asking) :
    (pick Event.looked? h).countP (·.2) = (pick Event.answer? h).length + 1 := by
  have hanswers := hc.answers
  rwa [isAsking, hs, decide_eq_true rfl, if_pos rfl] at hanswers

/-- The loop waits for a tick, looks for viewers or stops, and nothing is seen of it. -/
theorem aside (hc : r.Captures via g n h) {stage : CaptureStage} (hr : r.isAsking = false)
    (hs : stage ≠ .asking) : Captures via g n { r with capture := { r.capture with stage } } h :=
  { hc with
    answers := by rw [hc.answers, hr, isAsking, decide_eq_false hs] }

/-- The loop looks for viewers. -/
theorem look (hc : r.Captures via g n h) (hs : r.capture.stage = .looking) :
    Captures via g n { r with capture := r.capture.look r.pipeline.viewers.connected }
      (r.seen via .look ++ h) := by
  have hcount := hc.carries.viewers.sound.broadcast.clientCount_pos
  have hanswers := hc.answers
  have hnone : r.isAsking = false := by rw [isAsking, hs]; rfl
  have hasks : isAsking { r with capture := r.capture.look r.pipeline.viewers.connected } =
      r.pipeline.viewers.connected := by
    cases hconnected : r.pipeline.viewers.connected <;> rfl
  rw [hnone] at hanswers
  rw [seen, hasks]
  refine { hc with looks := fun look hlook => ?_, answers := ?_ }
  · rw [List.singleton_append, pick_cons, List.mem_append] at hlook
    rcases hlook with hlook | hlook
    · exact hc.looks look hlook
    · rw [List.mem_singleton.1 hlook]
      exact hcount
  · rw [hasks]
    cases hconnected : r.pipeline.viewers.connected <;> simp [hanswers]

/-- The source produces a frame, which is offered to the pipeline. -/
theorem produce (hc : r.Captures via g n h) (hs : r.capture.stage = .asking) (f : φ) :
    Captures via g n ⟨⟨.waiting, r.capture.offered + 1⟩, (r.pipeline.offer f).2⟩
      (.pipeline [.offered f r.pipeline.handing] :: .produced f :: h) := by
  have hcarries := hc.carries.step (Pipeline.step_offer via r.pipeline f) (by simp)
  refine
    { hc with
      carries := hcarries
      placed := ?_
      answers := by simpa [isAsking] using hc.asked_of_asking hs
      counted := by simp [hc.counted] }
  show (pick Pipeline.Event.placed? (.offered f r.pipeline.handing :: pipelineLog h)).Sublist
    (pick Event.produced? (.produced f :: h))
  rw [pick_cons, pick_cons]
  refine hc.placed.append ?_
  cases r.pipeline.handing with
  | placed => exact .refl _
  | busy | closed => exact List.nil_sublist _

/-- The source produces none. -/
theorem fail (hc : r.Captures via g n h) (hs : r.capture.stage = .asking) {stage : CaptureStage}
    (hstage : stage ≠ .asking) :
    Captures via g n { r with capture := { r.capture with stage } } (.failed :: h) :=
  { hc with answers := by simpa [isAsking, hstage] using hc.asked_of_asking hs }

/-- A step of the pipeline or its viewers. -/
theorem pipeline (hc : r.Captures via g n h) {m : Pipeline.Move φ} (hm : m.IsOwn = true)
    {p : Pipeline γ φ} (hp : r.pipeline.step? via m = some p) :
    Captures via g n { r with pipeline := p } (.pipeline (r.pipeline.seen via m) :: h) := by
  have hown := Pipeline.seen_of_isOwn via r.pipeline hm
  have hcarries := hc.carries.step (Pipeline.step_of_step? hp)
    fun data count hmem => (hown _ hmem).2 data count rfl
  have hplaced : pick Pipeline.Event.placed? (r.pipeline.seen via m ++ pipelineLog h) =
      pick Pipeline.Event.placed? (pipelineLog h) :=
    pick_append_of_none (fun e he => (hown e he).1) _
  exact
    { hc with
      carries := hcarries
      placed := by
        show (pick Pipeline.Event.placed? (r.pipeline.seen via m ++ pipelineLog h)).Sublist _
        rw [hplaced]
        exact hc.placed }

theorem step? (hc : r.Captures via g n h) {m : Move φ} (hm : m.IsOwn = true)
    (hstep : r.step? via m = some s) : s.Captures via g n (r.seen via m ++ h) := by
  cases m with
  | tick =>
      obtain ⟨hs, ⟨⟩⟩ := Option.ite_none_right_eq_some.1 hstep
      refine hc.aside (by rw [isAsking, hs]; rfl) ?_
      split <;> simp
  | look =>
      obtain ⟨hs, ⟨⟩⟩ := Option.ite_none_right_eq_some.1 hstep
      exact hc.look hs
  | shot answer =>
      obtain ⟨hs, hstep⟩ := Option.ite_none_right_eq_some.1 hstep
      cases answer with
      | frame f =>
          cases hstep
          exact hc.produce hs f
      | failure e | breakdown =>
          cases hstep
          exact hc.fail hs (by simp)
  | stop =>
      obtain ⟨hs, ⟨⟩⟩ := Option.ite_none_right_eq_some.1 hstep
      exact hc.aside (by rw [isAsking, hs]; rfl) (by simp)
  | pipeline m =>
      obtain ⟨p, hp, rfl⟩ := step?_pipeline hstep
      exact hc.pipeline hm hp

theorem run? (hc : r.Captures via g n h) {moves : List (Move φ)}
    (hown : ∀ m ∈ moves, m.IsOwn = true) (hrun : r.run? via moves = some s) :
    s.Captures via g n (log via h r moves) := by
  induction moves generalizing r h with
  | nil =>
      cases hrun
      exact hc
  | cons m moves ih =>
      obtain ⟨t, hm, hrun⟩ := Option.bind_eq_some_iff.1 hrun
      rw [log, hm, Option.getD_some]
      exact ih (hc.step? (hown m List.mem_cons_self) hm)
        (fun m hm => hown m (List.mem_cons_of_mem _ hm)) hrun

end Captures

/-! ## What viewers see -/

/-- **What a viewer has received is an honest part of what was produced.** -/
structure IsSubstream (via : Passage γ φ) (g : γ) (id : Nat) (h : List (Event φ))
    (shots : List (φ × Bytes)) : Prop where
  /-- The viewer has received the acknowledgement and after it their encodings, nothing else. -/
  received : receivedBy id (broadcastLog (pipelineLog h)) =
    .ack :: shots.map fun shot => .frame shot.2
  encodings : ∀ shot ∈ shots, via.Encodes g shot.1 shot.2
  /-- Each was published while the viewer was registered. -/
  shown : shots.Sublist (shownTo id (pipelineLog h))
  /-- They were published in the order in which the source produced them, each at most once. -/
  produced : ((shownTo id (pipelineLog h)).map (·.1)).Sublist (pick Event.produced? h)

/-- **The loop is honest** to the viewers, to the source and to whoever started it. -/
structure Honest (via : Passage γ φ) (g : γ) (r : CaptureRun γ φ) (h : List (Event φ)) : Prop where
  viewers : ∀ id, receivedBy id (broadcastLog (pipelineLog h)) ≠ [] →
    ∃ shots, IsSubstream via g id h shots
  /-- At a tick the source is asked if a viewer is connected, and else not. -/
  asks : ∀ look ∈ pick Event.looked? h, look.2 = true ↔ 0 < look.1
  /-- The source answers what it was asked, and has nothing to answer but for that. -/
  answers : (pick Event.looked? h).countP (·.2) =
    (pick Event.answer? h).length + if r.isAsking then 1 else 0
  /-- The loop has counted the frames that the source produced. -/
  count : r.capture.offered = (pick Event.produced? h).length

/-- **Viewers see an honest part of what the source produces**, whenever they come and go, whatever
limiter and encoder do, and in whatever order everybody acts. -/
theorem viewers_see_an_honest_substream {depth : Nat} {shutdown : Bool} {moves : List (Move φ)}
    (hown : ∀ m ∈ moves, m.IsOwn = true)
    (hrun : (CaptureRun.start g depth shutdown).run? via moves = some r) :
    r.Honest via g (log via [] (.start g depth shutdown) moves) := by
  have hc := (Captures.start via g depth shutdown).run? hown hrun
  refine ⟨fun id hsome => ?_, hc.looks, hc.answers, hc.counted⟩
  obtain ⟨shots, hshots, hreceived⟩ := hc.carries.viewers.received_of_shown hsome
  exact
    ⟨shots,
      { received := hreceived
        encodings := fun shot hshot => hc.carries.encodings (hshots.subset hshot)
        shown := hshots
        produced := (hc.carries.shown_sublist id).trans hc.placed }⟩

/-- The consumer's steps for a frame up to its turn. -/
def upToTurn : List (Move Nat) := List.replicate 7 (.pipeline .consume)

/-- The loop finds a viewer at a tick, and the source answers. -/
def tickWith (answer : Shot Nat) : List (Move Nat) := [.tick, .look, .shot answer]

/-- Frame 1 is published to the first viewer; the source fails once, the limiter does not admit frame
2, and frame 3 is published when a second viewer has come. Both leave, and a tick finds nobody. -/
def comingAndGoing : List (Move Nat) :=
  .pipeline (.viewer .connect) :: tickWith (.frame 1) ++ upToTurn ++
    [.pipeline (.offerTo 1), .pipeline .consume, .pipeline (.viewer (.receive 1))] ++
    tickWith (.failure (.encoding "frame")) ++ tickWith (.frame 2) ++
    List.replicate 4 (.pipeline .consume) ++
    .pipeline (.viewer .connect) :: tickWith (.frame 3) ++ upToTurn ++
    [.pipeline (.offerTo 2), .pipeline (.offerTo 1), .pipeline .consume] ++
    [.pipeline (.viewer (.drain 1)), .pipeline (.viewer (.drain 2)),
      .pipeline (.viewer (.disconnect 1)), .pipeline (.viewer (.drop 2)), .tick, .look, .stop]

def seenComingAndGoing : List (Event Nat) :=
  log Pipeline.scripted [] (.start [true, false, true] 4 false) comingAndGoing

theorem both_viewers_see_an_honest_substream :
    ∃ r : CaptureRun (List Bool) Nat,
      (CaptureRun.start [true, false, true] 4 false).run? Pipeline.scripted comingAndGoing = some r ∧
        r.capture = ⟨.stopped, 3⟩ ∧
        r.Honest Pipeline.scripted [true, false, true] seenComingAndGoing ∧
        [1, 2].map (receivedBy · (broadcastLog (pipelineLog seenComingAndGoing))) =
          [[.ack, .frame [1], .frame [3]], [.ack, .frame [3]]] := by
  have hseen : ((CaptureRun.start [true, false, true] 4 false).run? Pipeline.scripted
      comingAndGoing).map (·.capture) = some ⟨.stopped, 3⟩ := by
    decide
  obtain ⟨r, hrun, hr⟩ := Option.map_eq_some_iff.1 hseen
  exact ⟨r, hrun, hr, viewers_see_an_honest_substream (by decide) hrun, by decide +kernel⟩

end CaptureRun

end DeviceGateway
