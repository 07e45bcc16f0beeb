import DeviceGateway.Proofs.Screen.Accounting

/-!
# What the viewers of a pipeline are shown

Frames are handed to the broadcast in the order in which they are received, each as what the encoder
made of it (`Presents`). As long as nobody else publishes, the viewers of a pipeline are those of a
broadcast with one publisher, whose frame has its turn while the consumer offers it to one viewer
after the other (`asPublishers`); so what a viewer has received is known from the frames that were
handed over while it was registered (`received_of_shown`).
-/

namespace DeviceGateway

/-- The frame that is counted and not handed to the broadcast yet. -/
@[simp] def ConsumerStage.unpresented? {φ : Type} : ConsumerStage φ → Option φ
  | .received f | .watched f | .admitted f | .encoded f _ | .awaiting f _ => some f
  | .idle | .pulled _ | .publishing _ _ _ | .stopped => none

/-- The frame that is encoded and not handed to the broadcast yet, and its encoding. -/
@[simp] def ConsumerStage.encoded? {φ : Type} : ConsumerStage φ → Option (φ × Bytes)
  | .encoded f data | .awaiting f data => some (f, data)
  | _ => none

/-- The frame that is offered to the viewers, as one that has its turn; it has been queued for so
many. -/
def ConsumerStage.publication {φ : Type} (s : ConsumerStage φ) (count : Nat) :
    Option Broadcast.Publication :=
  match s with
  | .publishing _ data pending => some ⟨data, pending, count⟩
  | _ => none

namespace Passage

variable {γ φ : Type}

/-- **What limiter and encoder come to** as they are used. -/
inductive Reaches (via : Passage γ φ) (g : γ) : γ → Prop where
  | start : Reaches via g g
  | allow {g' : γ} (h : Reaches via g g') : Reaches via g (via.allow g').2
  | encode {g' : γ} (h : Reaches via g g') (f : φ) : Reaches via g (via.encode g' f).2

/-- **What the encoder makes of a frame** in some state that it comes to. -/
def Encodes (via : Passage γ φ) (g : γ) (f : φ) (data : Bytes) : Prop :=
  ∃ g', via.Reaches g g' ∧ (via.encode g' f).1 = .ok data

end Passage

namespace Pipeline

open Broadcast (registeredIn publishedTo offersTo keptFor receivedBy queuedFor Publishers)

variable {γ φ : Type} {via : Passage γ φ} {p q : Pipeline γ φ} {es h : List (Event φ)} {n : Nat}

/-! ## The order of the frames -/

/-- **What is handed to the broadcast**: encodings of frames that were received, in their order. -/
structure Presents (via : Passage γ φ) (g : γ) (p : Pipeline γ φ) (h : List (Event φ)) : Prop where
  order : ((pick Event.presented? h).map (·.1) ++ p.stage.unpresented?.toList).Sublist
    (pick Event.received? h)
  reached : via.Reaches g p.passage
  encodings : ∀ shot ∈ pick Event.presented? h, via.Encodes g shot.1 shot.2
  encoded : ∀ shot, p.stage.encoded? = some shot → via.Encodes g shot.1 shot.2

theorem Presents.start (g : γ) (viewers : Broadcast) (shutdown : Bool) :
    Presents via g (Pipeline.start g viewers shutdown) [] where
  order := List.Sublist.refl _
  reached := .start
  encodings _ hshot := absurd hshot List.not_mem_nil
  encoded _ hs := by cases hs

/-- A frame that comes to its end is not handed over. -/
theorem Presents.giveUp {g : γ} (hb : p.Presents via g h) :
    ((pick Event.presented? h).map (·.1)).Sublist (pick Event.received? h) :=
  (List.sublist_append_left _ _).trans hb.order

theorem Presents.step {g : γ} (hb : p.Presents via g h) (hstep : Step via p es q) :
    q.Presents via g (es ++ h) := by
  cases hstep with
  | place f _ _ | busy f _ _ | refuse f _ | submit f _ _ | enter f _ | aside _ _ _ _ _ _
  | viewer op _ => exact { hb with }
  | pull f hs _ | starved hs _ | discard f hs _ | offerTo f _ _ _ hs _ | finish f _ hs =>
      exact
        { hb with
          order := by simpa [hs, grant, halt, published] using hb.order
          encoded := fun _ heq => by cases heq }
  | receive f hs _ =>
      exact
        { hb with
          order := by simpa [hs] using hb.giveUp.append (.refl [f])
          encoded := fun _ heq => by cases heq }
  | watch f hs _ =>
      exact
        { hb with
          order := by simpa [hs] using hb.order
          encoded := fun _ heq => by cases heq }
  | skip f hs _ =>
      exact
        { hb with
          order := by simpa using hb.giveUp
          encoded := fun _ heq => by cases heq }
  | allow f passage hs hok =>
      exact
        { hb with
          order := by simpa [hs] using hb.order
          reached := by simpa [hok] using hb.reached.allow
          encoded := fun _ heq => by cases heq }
  | limit f passage hs hno =>
      exact
        { hb with
          order := by simpa using hb.giveUp
          reached := by simpa [hno] using hb.reached.allow
          encoded := fun _ heq => by cases heq }
  | encode f data passage hs hdata =>
      exact
        { hb with
          order := by simpa [hs] using hb.order
          reached := by simpa [hdata] using hb.reached.encode f
          encoded := fun shot heq => by
            cases heq
            exact ⟨p.passage, hb.reached, by rw [hdata]⟩ }
  | fail f e passage hs he =>
      exact
        { hb with
          order := by simpa using hb.giveUp
          reached := by simpa [he] using hb.reached.encode f
          encoded := fun _ heq => by cases heq }
  | begin f data hs _ =>
      exact
        { hb with
          order := by simpa [hs] using hb.order
          encoded := fun shot heq => hb.encoded shot (by rw [hs]; exact heq) }
  | turn f data hs | turnAway f data hs _ =>
      refine
        { hb with
          order := by simpa [hs, published] using hb.order
          encodings := fun shot hshot => ?_
          encoded := fun _ heq => by cases heq }
      rw [List.cons_append, List.singleton_append] at hshot
      simp only [pick_cons, Event.presented?, Option.toList_none, List.append_nil, Option.toList_some,
        List.mem_append, List.mem_singleton] at hshot
      rcases hshot with hshot | rfl
      · exact hb.encodings shot hshot
      · exact hb.encoded _ (by rw [hs]; rfl)

/-! ## The viewers -/

/-- What is seen of the viewers, the latest first. -/
def broadcastLog : List (Event φ) → List Broadcast.Event
  | [] => []
  | .viewers events :: h => events ++ broadcastLog h
  | _ :: h => broadcastLog h

/-- **The frames that were handed over while a viewer was registered**, and their encodings. -/
def shownTo (id : Nat) : List (Event φ) → List (φ × Bytes)
  | [] => []
  | .presented f data :: h =>
    shownTo id h ++ if registeredIn id (broadcastLog h) then [(f, data)] else []
  | _ :: h => shownTo id h

theorem shownTo_sublist (id : Nat) (h : List (Event φ)) :
    (shownTo id h).Sublist (pick Event.presented? h) := by
  induction h with
  | nil => exact .refl _
  | cons e h ih =>
      cases e with
      | presented f data =>
          rw [shownTo, pick_cons]
          refine ih.append ?_
          split
          · exact .refl _
          · exact List.nil_sublist _
      | _ =>
          simp only [pick_cons, Event.presented?, Option.toList_none, List.append_nil]
          exact ih

/-- **The viewers with their one publisher**, the consumer. -/
def asPublishers (p : Pipeline γ φ) (h : List (Event φ)) : Publishers :=
  ⟨p.viewers, [], p.stage.publication (queuedFor (broadcastLog h)).length, broadcastLog h⟩

theorem publication_of_idle (hp : p.isPublishing = false) (count : Nat) :
    p.stage.publication count = none := by
  cases hs : p.stage with
  | publishing f data pending =>
      rw [isPublishing, hs] at hp
      cases hp
  | _ => rfl

/-- **The viewers are shown what is handed over**, if `n` messages have room in a queue. -/
structure Shows (n : Nat) (p : Pipeline γ φ) (h : List (Event φ)) : Prop where
  sound : (p.asPublishers h).Sound n
  shown : ∀ id, (shownTo id h).map (·.2) = publishedTo id (broadcastLog h)

namespace Shows

theorem start (g : γ) (depth : Nat) (shutdown : Bool) :
    Shows (max depth 1 + 1) (Pipeline.start g (.new depth) shutdown : Pipeline γ φ) [] :=
  ⟨.new depth, fun _ => rfl⟩

/-- A step of the consumer between the turns of frames. -/
theorem betweenTurns (hb : p.Shows n h) (hp : p.isPublishing = false) (hq : q.isPublishing = false)
    (hviewers : q.viewers = p.viewers) (hlog : broadcastLog (es ++ h) = broadcastLog h)
    (hshown : ∀ id, shownTo id (es ++ h) = shownTo id h) : q.Shows n (es ++ h) := by
  have hsound := hb.sound
  rw [asPublishers, publication_of_idle hp] at hsound
  refine ⟨?_, fun id => ?_⟩
  · rwa [asPublishers, publication_of_idle hq, hviewers, hlog]
  · rw [hlog, hshown, hb.shown]

/-- A frame gets its turn. -/
theorem turn (hb : p.Shows n h) {f : φ} {data : Bytes} (hs : p.stage = .awaiting f data) :
    Shows n { p with stage := .publishing f data (p.viewers.table.map (·.id)) }
      (.viewers [.turn data] :: .presented f data :: h) := by
  have hidle := publication_of_idle (p := p) (by rw [isPublishing, hs])
  refine ⟨hb.sound.turn (hidle _) 0 data, fun id => ?_⟩
  show ((shownTo id h ++ if registeredIn id (broadcastLog h) then [(f, data)] else []).map (·.2)) =
    publishedTo id (broadcastLog h) ++ if registeredIn id (broadcastLog h) then [data] else []
  rw [List.map_append, hb.shown]
  split <;> rfl

/-- A frame is handed over while nobody is registered. -/
theorem turnAway (hb : p.Shows n h) {f : φ} {data : Bytes} (hs : p.stage = .encoded f data)
    (hc : p.viewers.connected = false) :
    Shows n (p.published p.viewers) (.viewers [.turnedAway data] :: .presented f data :: h) := by
  have hsound := hb.sound.turnedAway hc data
  have hnobody : ∀ id, registeredIn id (broadcastLog h) = false :=
    (Broadcast.allRight_cons.1 hsound.right).1
  refine ⟨?_, fun id => ?_⟩
  · rwa [Publishers.seen, asPublishers, hs] at hsound
  · show ((shownTo id h ++ if registeredIn id (broadcastLog h) then [(f, data)] else []).map
      (·.2)) = publishedTo id (broadcastLog h)
    rw [hnobody, if_neg Bool.false_ne_true, List.append_nil, hb.shown]

/-- The frame is offered to a viewer. -/
theorem offerTo (hb : p.Shows n h) {f : φ} {data : Bytes} {pending : List Nat} {id : Nat}
    (hs : p.stage = .publishing f data pending) (hid : id ∈ pending) :
    Shows n
      { p with stage := .publishing f data (pending.erase id), viewers := p.viewers.offer data id }
      (.viewers [.offered id data (p.viewers.takes id)] :: h) := by
  have hcurrent : (p.asPublishers h).current =
      some ⟨data, pending, (queuedFor (broadcastLog h)).length⟩ := by
    rw [asPublishers, hs]
    rfl
  refine ⟨?_, hb.shown⟩
  have hsound := hb.sound.offer hcurrent hid
  have hcount : (queuedFor (.offered id data (p.viewers.takes id) :: broadcastLog h)).length =
      if p.viewers.takes id then (queuedFor (broadcastLog h)).length + 1
      else (queuedFor (broadcastLog h)).length := by
    rw [queuedFor]
    split <;> rfl
  show Publishers.Sound n
    ⟨p.viewers.offer data id, [],
      some ⟨data, pending.erase id,
        (queuedFor (.offered id data (p.viewers.takes id) :: broadcastLog h)).length⟩,
      .offered id data (p.viewers.takes id) :: broadcastLog h⟩
  rw [hcount]
  exact hsound

/-- The turn of a frame is over. -/
theorem finish (hb : p.Shows n h) {f : φ} {data : Bytes} (hs : p.stage = .publishing f data []) :
    Shows n (p.published p.viewers.settle) h := by
  have hcurrent : (p.asPublishers h).current =
      some ⟨data, [], (queuedFor (broadcastLog h)).length⟩ := by
    rw [asPublishers, hs]
    rfl
  exact ⟨hb.sound.endTurn hcurrent rfl, hb.shown⟩

/-- A viewer does something that offers it no frame. -/
theorem viewerSeen (hb : p.Shows n h) {e : Broadcast.Event} {viewers : Broadcast}
    (he : e.IsQuiet = true) (hsound : ((p.asPublishers h).seen e viewers).Sound n) :
    Shows n { p with viewers } (.viewers [e] :: h) where
  sound := by
    show Publishers.Sound n
      ⟨viewers, [], p.stage.publication (queuedFor (e :: broadcastLog h)).length,
        e :: broadcastLog h⟩
    rw [Broadcast.queuedFor_quiet he]
    exact hsound
  shown id := by
    show (shownTo id h).map (·.2) = publishedTo id (e :: broadcastLog h)
    rw [Broadcast.publishedTo_quiet he]
    exact hb.shown id

/-- Viewers come, go and receive, and nobody else publishes. -/
theorem viewer (hb : p.Shows n h) {op : Broadcast.Op}
    (hlock : p.isPublishing = true → op.locks = false) (hop : ∀ data, op ≠ .publish data) :
    Shows n { p with viewers := (p.viewers.step op).2 } (.viewers (p.viewers.seen op) :: h) := by
  have hidle (hl : op.locks = true) : (p.asPublishers h).current = none := by
    refine publication_of_idle ?_ _
    by_contra hp
    cases hl.symm.trans (hlock (Bool.not_eq_false _ ▸ hp))
  have hunseen : p.Shows n (.viewers [] :: h) := ⟨hb.sound, hb.shown⟩
  cases op with
  | connect => exact hb.viewerSeen rfl (hb.sound.connect (hidle rfl))
  | disconnect id => exact hb.viewerSeen rfl (hb.sound.disconnect (hidle rfl) id)
  | publish data => exact absurd rfl (hop data)
  | drop id =>
      cases hv : p.viewers.viewer? id with
      | none => simpa [Broadcast.seen, Broadcast.step, Broadcast.drop, hv] using hunseen
      | some v =>
          rw [Broadcast.seen, if_pos (hv ▸ rfl)]
          exact hb.viewerSeen rfl (hb.sound.drop (hidle rfl) id)
  | receive id =>
      cases hv : p.viewers.viewer? id with
      | none => simpa [Broadcast.seen, Broadcast.step, Broadcast.receive, hv] using hunseen
      | some v =>
          rw [Broadcast.seen, if_pos (hv ▸ rfl)]
          exact hb.viewerSeen rfl (hb.sound.receive (hv ▸ rfl))
  | drain id =>
      cases hv : p.viewers.viewer? id with
      | none => simpa [Broadcast.seen, Broadcast.step, Broadcast.drain, hv] using hunseen
      | some v =>
          rw [Broadcast.seen, if_pos (hv ▸ rfl)]
          exact hb.viewerSeen rfl (hb.sound.drain (hv ▸ rfl))

theorem step (hb : p.Shows n h) (hstep : Step via p es q)
    (hown : ∀ data count, .viewers [.published data count] ∉ es) : q.Shows n (es ++ h) := by
  cases hstep with
  | place f _ _ | busy f _ _ | refuse f _ | submit f _ _ | enter f _ | aside _ _ _ _ _ _ =>
      exact ⟨hb.sound, hb.shown⟩
  | pull f hs _ | starved hs _ | discard f hs _ | receive f hs _ | watch f hs _ | skip f hs _
  | allow f _ hs _ | limit f _ hs _ | encode f _ _ hs _ | fail f _ _ hs _ | begin f _ hs _ =>
      exact hb.betweenTurns (by rw [isPublishing, hs]) rfl rfl rfl fun _ => rfl
  | turn f data hs => exact hb.turn hs
  | turnAway f data hs hc => exact hb.turnAway hs hc
  | offerTo f data pending id hs hid => exact hb.offerTo hs hid
  | finish f data hs => exact hb.finish hs
  | viewer op hlock =>
      refine hb.viewer hlock fun data hop => ?_
      subst hop
      exact hown _ _ (List.mem_singleton.2 rfl)

/-- What is queued for a viewer was shown to it. -/
theorem keptFor_sublist (hb : p.Shows n h) (id : Nat) :
    (keptFor id (broadcastLog h)).Sublist ((shownTo id h).map fun shot => .frame shot.2) := by
  have hoffers : (offersTo id (broadcastLog h)).map (·.1) ++ (p.asPublishers h).due id =
      (shownTo id h).map (·.2) := (hb.sound.offers id).trans (hb.shown id).symm
  have hkept : (((offersTo id (broadcastLog h)).filter (·.2)).map (·.1)).Sublist
      ((shownTo id h).map (·.2)) := by
    rw [← hoffers]
    exact (List.filter_sublist.map _).trans (List.sublist_append_left _ _)
  have hframes := hkept.map PushMessage.frame
  rwa [List.map_map, List.map_map] at hframes

/-- **What a viewer has received** after the acknowledgement: frames that it was shown, in order. -/
theorem received_of_shown (hb : p.Shows n h) {id : Nat}
    (hsome : receivedBy id (broadcastLog h) ≠ []) :
    ∃ shots : List (φ × Bytes), shots.Sublist (shownTo id h) ∧
      receivedBy id (broadcastLog h) = .ack :: shots.map fun shot => .frame shot.2 := by
  have hright : Broadcast.AllRight n (broadcastLog h) := hb.sound.right
  have hwhole := Broadcast.received_append_queue hright id
  rw [← Broadcast.receivedBy_eq hright] at hwhole
  obtain ⟨first, rest, hreceived⟩ := List.exists_cons_of_ne_nil hsome
  rw [hreceived, List.cons_append, List.cons.injEq] at hwhole
  obtain ⟨rfl, hkept⟩ := hwhole
  have hrest : rest.Sublist (keptFor id (broadcastLog h)) := by
    rw [← hkept]
    exact List.sublist_append_left _ _
  obtain ⟨shots, hshots, rfl⟩ := List.sublist_map_iff.1 (hrest.trans (hb.keptFor_sublist id))
  exact ⟨shots, hshots, hreceived⟩

end Shows

end Pipeline

end DeviceGateway
