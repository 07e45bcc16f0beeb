import DeviceGateway.Proofs.Broadcast.Delivery

/-!
# How many frames wait for a viewer

A queue has room for one message more than its depth, so that the acknowledgement takes no frame's
place. The room stays when the viewer takes the acknowledgement, and a frame gets it. So the depth
bounds the frames that wait as long as the acknowledgement waits too, and after that one frame more
may wait (`frameLimit`). A frame is dropped for a viewer exactly if this limit is reached
(`frames_stay_within_limit`), and for every depth it is reached (`run_of_greeted`).
-/

namespace DeviceGateway

/-- Whether a message is a frame. -/
def PushMessage.isFrame : PushMessage → Bool
  | .ack => false
  | .frame _ => true

/-- **How many frames wait** for a viewer. -/
def Viewer.frames (v : Viewer) : Nat := v.queue.countP PushMessage.isFrame

namespace Broadcast

/-- **How many frames may wait** for a viewer after a history: as many as the queues are deep, and
one more once it has received the acknowledgement. -/
def frameLimit (depth id : Nat) (h : List Event) : Nat :=
  if receivedBy id h = [] then depth else depth + 1

/-! ## Queues and their own stories -/

variable {n depth id : Nat} {h : List Event}

/-- A queue never holds more than it has room for. -/
theorem length_queueOf_le (hn : 1 ≤ n) (o : List Own) : (queueOf n o).length ≤ n := by
  induction o with
  | nil => exact hn
  | cons own o ih =>
      cases own with
      | offered data =>
          rw [queueOf]
          split
          · next hroom =>
            rw [List.length_append, List.length_singleton]
            exact hroom
          · rw [List.append_nil]
            exact ih
      | receive =>
          rw [queueOf, List.length_tail]
          exact Nat.le_trans (Nat.sub_le _ _) ih
      | drain => exact Nat.zero_le _

theorem countP_keptFor (id : Nat) (h : List Event) :
    (keptFor id h).countP PushMessage.isFrame = (keptFor id h).length := by
  refine List.countP_eq_length.2 fun m hm => ?_
  obtain ⟨offer, -, rfl⟩ := List.mem_map.1 hm
  rfl

/-- **What waits for a viewer**: the frames, and the acknowledgement until it is received. -/
theorem length_queueOf (hall : AllRight n h) (id : Nat) :
    (queueOf n (story id h)).length =
      (queueOf n (story id h)).countP PushMessage.isFrame +
        if receivedBy id h = [] then 1 else 0 := by
  have hwhole := received_append_queue hall id
  rw [← receivedBy_eq hall] at hwhole
  cases hreceived : receivedBy id h with
  | nil =>
      rw [hreceived, List.nil_append] at hwhole
      rw [hwhole, List.countP_cons_of_neg (by exact Bool.false_ne_true), countP_keptFor, if_pos rfl,
        List.length_cons]
  | cons m received =>
      -- The acknowledgement was the first message received: what waits are frames.
      rw [hreceived, List.cons_append] at hwhole
      have hkept := (List.cons.inj hwhole).2
      have hframes : ∀ m ∈ queueOf n (story id h), m.isFrame = true := fun m hm =>
        List.countP_eq_length.1 (countP_keptFor id h) m (hkept ▸ List.mem_append_right _ hm)
      rw [List.countP_eq_length.2 hframes, if_neg (List.cons_ne_nil _ _), Nat.add_zero]

/-- The acknowledgement waits until anything is received. -/
theorem ack_mem_queueOf (hall : AllRight n h) (id : Nat) :
    .ack ∈ queueOf n (story id h) ↔ receivedBy id h = [] := by
  have hlength := length_queueOf hall id
  constructor
  · intro hack
    by_contra hreceived
    rw [if_neg hreceived, Nat.add_zero] at hlength
    exact Bool.false_ne_true (List.countP_eq_length.1 hlength.symm _ hack)
  · intro hreceived
    have hwhole := received_append_queue hall id
    rw [← receivedBy_eq hall, hreceived, List.nil_append] at hwhole
    rw [hwhole]
    exact List.mem_cons_self

/-- There is room for a frame exactly if the limit is not reached. -/
theorem frames_lt_limit (hall : AllRight (depth + 1) h) (id : Nat) :
    (queueOf (depth + 1) (story id h)).countP PushMessage.isFrame < frameLimit depth id h ↔
      (queueOf (depth + 1) (story id h)).length < depth + 1 := by
  rw [length_queueOf hall, frameLimit]
  split <;> omega

theorem frames_le_limit (hall : AllRight (depth + 1) h) (id : Nat) :
    (queueOf (depth + 1) (story id h)).countP PushMessage.isFrame ≤ frameLimit depth id h := by
  have hle := length_queueOf_le (Nat.le_add_left 1 depth) (story id h)
  rw [length_queueOf hall] at hle
  rw [frameLimit]
  split at hle <;> simp_all

/-! ## The limit in every state -/

namespace Publishers

variable {s : Publishers} {v : Viewer}

/-- The queue of a viewer once a frame has come its way. -/
def queueAfter (depth : Nat) (s : Publishers) (v : Viewer) (data : Bytes) : List PushMessage :=
  if v.frames = frameLimit depth v.id s.history then v.queue else v.queue ++ [.frame data]

/-- **A viewer's frames keep to the limit.** -/
structure KeepsLimit (depth : Nat) (s : Publishers) (v : Viewer) : Prop where
  /-- Whether the acknowledgement waits decides what the limit is. -/
  greeted : .ack ∈ v.queue ↔ receivedBy v.id s.history = []
  bounded : v.frames ≤ frameLimit depth v.id s.history
  /-- A frame that is offered to the viewer is dropped if and only if the limit is reached. -/
  offered : ∀ p, s.current = some p → v.id ∈ p.pending →
    ∃ t w, s.step? (.offer v.id) = some t ∧ t.broadcast.viewer? v.id = some w ∧
      w.queue = s.queueAfter depth v p.data
  /-- The same for one that is published in one step. -/
  published : ∀ data, ∃ w, (s.broadcast.publish data).2.viewer? v.id = some w ∧
    w.queue = s.queueAfter depth v data

/-- What an offer makes of a viewer that frames are queued for. -/
theorem queue_offered (hs : s.Sound (depth + 1)) (hv : s.broadcast.viewer? v.id = some v)
    (hr : v.registered = true) (data : Bytes) :
    (s.broadcast.offered data v).queue = s.queueAfter depth v data := by
  have hqueue := hs.queue v.id v hv
  have hroom := frames_lt_limit hs.right v.id
  have hbound := frames_le_limit hs.right v.id
  rw [← hqueue] at hroom hbound
  have hadmits : s.broadcast.admits v = true ↔ v.frames ≠ frameLimit depth v.id s.history := by
    rw [admits, hr, Bool.true_and, decide_eq_true_iff, hs.capacity, ← hroom]
    exact ⟨Nat.ne_of_lt, fun hne => Nat.lt_of_le_of_ne hbound hne⟩
  rw [Broadcast.offered, queueAfter]
  by_cases hfull : v.frames = frameLimit depth v.id s.history
  · rw [if_neg (fun ha => hadmits.1 ha hfull), if_pos hfull]
  · rw [if_pos (hadmits.2 hfull), if_neg hfull]

/-- **The frames that wait for a viewer keep to a limit**, whatever comes first: the depth of the
queues as long as its acknowledgement waits, and one frame more from then on. A frame is dropped for
the viewer if and only if as many wait for it. -/
theorem frames_stay_within_limit {depth : Nat} (hdepth : 1 ≤ depth) {moves : List Move}
    {s : Publishers} (hrun : (Publishers.new depth).run? moves = some s) {v : Viewer}
    (hv : v ∈ s.broadcast.table) : s.KeepsLimit depth v := by
  have hs := (Sound.new depth).run? hrun
  rw [Nat.max_eq_left hdepth] at hs
  obtain ⟨hmem, hr⟩ := List.mem_filter.1 hv
  have hv := hs.broadcast.viewer?_of_mem hmem
  have hqueue := hs.queue v.id v hv
  refine ⟨?greeted, ?bounded, ?offered, ?published⟩
  case greeted =>
    rw [hqueue]
    exact ack_mem_queueOf hs.right v.id
  case bounded =>
    have hbound := frames_le_limit hs.right v.id
    rwa [← hqueue] at hbound
  case offered =>
    intro p hp hid
    refine ⟨s.offer p v.id, s.broadcast.offered p.data v, ?_, ?_, queue_offered hs hv hr _⟩
    · simp [step?, hp, hid]
    · show (s.broadcast.offer p.data v.id).viewer? v.id = _
      rw [viewer?_offer, if_pos rfl, hv, Option.map_some]
  case published =>
    intro data
    have hc : s.broadcast.connected = true :=
      hs.broadcast.gate.2 ⟨(v.id, v.registered), List.mem_map_of_mem hmem, hr⟩
    refine ⟨s.broadcast.offered data v, ?_, queue_offered hs hv hr data⟩
    rw [viewer?_publish hc, hv, Option.map_some]

/-- A viewer takes its acknowledgement; then two frames are published, and a third has its turn. -/
def greetedViewer : List Move :=
  [.connect, .receive 1] ++
    ([[0], [1]] : List Bytes).flatMap (fun data => [.publish data, .turn 0, .offer 1, .finish]) ++
    [.publish [2], .turn 0]

/-- The third frame is due to the viewer, for which as many wait as the queues are deep. -/
theorem two_frames_wait_at_depth_two :
    ∃ s v, (Publishers.new 2).run? greetedViewer = some s ∧ v ∈ s.broadcast.table ∧
      v.frames = 2 ∧ s.due 1 = [[2]] ∧ s.KeepsLimit 2 v := by
  have hseen : ((Publishers.new 2).run? greetedViewer).map (fun s => (s.broadcast.table, s.due 1)) =
      some ([⟨1, true, [.frame [0], .frame [1]]⟩], [[2]]) := by
    decide
  obtain ⟨s, hrun, hs⟩ := Option.map_eq_some_iff.1 hseen
  simp only [Prod.mk.injEq] at hs
  obtain ⟨htable, hdue⟩ := hs
  have hv : ⟨1, true, [.frame [0], .frame [1]]⟩ ∈ s.broadcast.table := htable ▸ List.mem_cons_self
  exact ⟨s, _, hrun, hv, rfl, hdue, frames_stay_within_limit (by decide) hrun hv⟩

end Publishers

/-! ## The limit is reached -/

/-- One viewer, which has received the acknowledgement, and the frames that wait for it. -/
def greeted (depth : Nat) (frames : List Bytes) : Broadcast :=
  ⟨depth, true, 2, [⟨1, true, frames.map .frame⟩]⟩

theorem publish_greeted {frames : List Bytes} (hroom : frames.length ≤ depth) (data : Bytes) :
    (greeted depth frames).publish data = (1, greeted depth (frames ++ [data])) := by
  have hadmits : (greeted depth frames).admits ⟨1, true, frames.map .frame⟩ = true := by
    rw [admits, Bool.true_and, decide_eq_true_iff, List.length_map]
    exact Nat.lt_succ_of_le hroom
  rw [greeted] at hadmits
  simp [greeted, publish, settle, table, hadmits]

theorem run_publish_greeted (frames : List Bytes) {before : List Bytes}
    (hroom : before.length + frames.length ≤ depth + 1) :
    (greeted depth before).run (frames.map .publish) = greeted depth (before ++ frames) := by
  induction frames generalizing before with
  | nil => rw [List.append_nil]; rfl
  | cons data frames ih =>
      rw [List.length_cons] at hroom
      rw [List.map_cons, run, List.foldl_cons, ← run]
      show ((greeted depth before).publish data).2.run _ = _
      rw [publish_greeted (by omega), ih (by rw [List.length_append, List.length_singleton]; omega),
        List.append_assoc, List.singleton_append]

/-- **One frame more than the queues are deep waits for a viewer** that has received its
acknowledgement, for every depth: all of as many frames are queued for it. -/
theorem run_of_greeted (hdepth : 1 ≤ depth) (frames : List Bytes)
    (hroom : frames.length ≤ depth + 1) :
    (Broadcast.new depth).run (.connect :: .receive 1 :: frames.map .publish) =
      greeted depth frames := by
  have hstart : (((Broadcast.new depth).step .connect).2.step (.receive 1)).2 = greeted depth [] := by
    simp [Broadcast.new, step, connect, receive, viewer?, modify, greeted, hdepth]
  rw [run, List.foldl_cons, List.foldl_cons, hstart, ← run,
    run_publish_greeted frames (by rw [List.length_nil, Nat.zero_add]; exact hroom), List.nil_append]

/-- Queues that are two frames deep: a third frame is queued for a viewer for which two wait, and
then three wait. -/
theorem three_frames_wait_at_depth_two :
    (((Broadcast.new 2).run [.connect, .receive 1, .publish [0], .publish [1]]).table.map
        Viewer.frames = [2]) ∧
      (((Broadcast.new 2).run [.connect, .receive 1, .publish [0], .publish [1]]).publish [2]).1 = 1 ∧
      (((Broadcast.new 2).run [.connect, .receive 1, .publish [0], .publish [1],
        .publish [2]]).table.map Viewer.frames = [3]) := by
  have two : (Broadcast.new 2).run [.connect, .receive 1, .publish [0], .publish [1]] =
      greeted 2 [[0], [1]] := run_of_greeted (by decide) [[0], [1]] (by decide)
  have three : (Broadcast.new 2).run [.connect, .receive 1, .publish [0], .publish [1],
      .publish [2]] = greeted 2 [[0], [1], [2]] :=
    run_of_greeted (by decide) [[0], [1], [2]] (by decide)
  rw [two, three]
  decide

end Broadcast

end DeviceGateway
