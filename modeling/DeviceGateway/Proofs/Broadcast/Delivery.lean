import DeviceGateway.Proofs.Broadcast.Publishers

/-!
# What a viewer gets

A history says which frames had their turn while a viewer was registered (`publishedTo`), which of
them it was offered and whether they were queued (`offersTo`), and what it has received
(`receivedBy`). Next to that stands the viewer's own story: which frames it was offered and when it
took from its queue, nothing else. Its queue and what it has received are computed from its own
story alone (`queueOf`, `receivedOf`), and what a history records of any run is what the stories
say (`delivery_is_exact`).
-/

namespace DeviceGateway

namespace Broadcast

/-! ## Histories -/

/-- Whether a viewer is registered after a history. -/
def registeredIn (id : Nat) : List Event → Bool
  | [] => false
  | .connected i :: h => i == id || registeredIn id h
  | .disconnected i :: h => i != id && registeredIn id h
  | .dropped i :: h => i != id && registeredIn id h
  | _ :: h => registeredIn id h

/-- **The frames published while a viewer was registered**, in the order of their turns. -/
def publishedTo (id : Nat) : List Event → List Bytes
  | [] => []
  | .turn data :: h => publishedTo id h ++ if registeredIn id h then [data] else []
  | _ :: h => publishedTo id h

/-- **The frames that a viewer was offered**, and whether they were queued. -/
def offersTo (id : Nat) : List Event → List (Bytes × Bool)
  | [] => []
  | .offered i data queued :: h => offersTo id h ++ if i = id then [(data, queued)] else []
  | _ :: h => offersTo id h

/-- The frames that were queued for a viewer. -/
def keptFor (id : Nat) (h : List Event) : List PushMessage :=
  ((offersTo id h).filter (·.2)).map (.frame ·.1)

theorem keptFor_offered (id i : Nat) (data : Bytes) (queued : Bool) (h : List Event) :
    keptFor id (.offered i data queued :: h) =
      keptFor id h ++ if i = id ∧ queued = true then [.frame data] else [] := by
  rw [keptFor, offersTo, List.filter_append, List.map_append, ← keptFor]
  cases queued <;> by_cases hi : i = id <;> simp [hi]

/-- **What a viewer has received.** -/
def receivedBy (id : Nat) : List Event → List PushMessage
  | [] => []
  | .received i message :: h => receivedBy id h ++ if i = id then message.toList else []
  | .drained i messages :: h => receivedBy id h ++ if i = id then messages else []
  | _ :: h => receivedBy id h

/-- Whom the frame has been offered to that had its turn last. -/
def asked : List Event → List Nat
  | [] => []
  | .turn _ :: _ => []
  | .offered id _ _ :: h => id :: asked h
  | _ :: h => asked h

/-- Whom it was queued for. -/
def queuedFor : List Event → List Nat
  | [] => []
  | .turn _ :: _ => []
  | .offered id _ queued :: h => if queued then id :: queuedFor h else queuedFor h
  | _ :: h => queuedFor h

/-! ## The own story of a viewer -/

/-- What happens to one viewer: it is offered a frame, or takes from its queue. -/
inductive Own where
  | offered (data : Bytes)
  | receive
  | drain
  deriving DecidableEq, Repr

/-- **The own story of a viewer**, the latest first. It does not say what was queued or received. -/
def story (id : Nat) : List Event → List Own
  | [] => []
  | .offered i data _ :: h => if i = id then .offered data :: story id h else story id h
  | .received i _ :: h => if i = id then .receive :: story id h else story id h
  | .drained i _ :: h => if i = id then .drain :: story id h else story id h
  | _ :: h => story id h

/-- **The queue of a viewer** after its own story, if `n` messages have room. -/
def queueOf (n : Nat) : List Own → List PushMessage
  | [] => [.ack]
  | .offered data :: h => queueOf n h ++ if (queueOf n h).length < n then [.frame data] else []
  | .receive :: h => (queueOf n h).tail
  | .drain :: _ => []

/-- **What it has received** after its own story. -/
def receivedOf (n : Nat) : List Own → List PushMessage
  | [] => []
  | .offered _ :: h => receivedOf n h
  | .receive :: h => receivedOf n h ++ (queueOf n h).head?.toList
  | .drain :: h => receivedOf n h ++ queueOf n h

/-- **What is right for an event** after a history, if `n` messages have room in a queue: a publisher
is turned away only if nobody is registered, an offered frame is queued exactly if there is room,
the count of a publication is of the viewers that the frame was queued for, and all that are
registered have been offered it once. -/
def Event.IsRight (n : Nat) : Event → List Event → Prop
  | .turnedAway _, h => ∀ id, registeredIn id h = false
  | .offered id _ queued, h => queued = true ↔ (queueOf n (story id h)).length < n
  | .published _ count, h =>
    count = (queuedFor h).length ∧ (asked h).Nodup ∧
      ∀ id, id ∈ asked h ↔ registeredIn id h = true
  | .received id message, h => message = (queueOf n (story id h)).head?
  | .drained id messages, h => messages = queueOf n (story id h)
  | _, _ => True

/-- An event after which the same frames have been offered as before. -/
def Event.IsQuiet : Event → Bool
  | .turn _ => false
  | .offered _ _ _ => false
  | _ => true

section Quiet

variable {e : Event} (he : e.IsQuiet = true) (h : List Event) (id : Nat)

include he

theorem publishedTo_quiet : publishedTo id (e :: h) = publishedTo id h := by
  cases e <;> first | rfl | cases he

theorem offersTo_quiet : offersTo id (e :: h) = offersTo id h := by
  cases e <;> first | rfl | cases he

theorem asked_quiet : asked (e :: h) = asked h := by
  cases e <;> first | rfl | cases he

theorem queuedFor_quiet : queuedFor (e :: h) = queuedFor h := by
  cases e <;> first | rfl | cases he

end Quiet

/-- All events of a history are right. -/
def AllRight (n : Nat) (h : List Event) : Prop := ∀ e earlier, e :: earlier <:+ h → e.IsRight n earlier

theorem AllRight.nil (n : Nat) : AllRight n [] := by
  intro e earlier hsuffix
  cases List.suffix_nil.1 hsuffix

theorem allRight_cons {n : Nat} {e : Event} {h : List Event} :
    AllRight n (e :: h) ↔ e.IsRight n h ∧ AllRight n h := by
  constructor
  · intro hall
    exact ⟨hall e h (List.suffix_refl _), fun e' earlier hs => hall e' earlier (hs.trans (List.suffix_cons _ _))⟩
  · rintro ⟨he, hall⟩ e' earlier hs
    rcases List.suffix_cons_iff.1 hs with heq | hs
    · cases heq
      exact he
    · exact hall e' earlier hs

/-! ## Stories and histories -/

section Stories

variable {n : Nat} {h : List Event}

/-- What was received is what the own story makes of it. -/
theorem receivedBy_eq (hall : AllRight n h) (id : Nat) : receivedBy id h = receivedOf n (story id h) := by
  induction h with
  | nil => rfl
  | cons e h ih =>
      obtain ⟨he, hall⟩ := allRight_cons.1 hall
      have ih := ih hall
      cases e with
      | offered i data queued =>
          rw [receivedBy, story, ih]
          · split <;> rfl
          · exact fun _ _ hcon => by cases hcon
          · exact fun _ _ hcon => by cases hcon
      | received i message =>
          rw [receivedBy, story, ih]
          split
          · next hi =>
            subst hi
            rw [receivedOf, show message = _ from he]
          · rw [List.append_nil]
      | drained i messages =>
          rw [receivedBy, story, ih]
          split
          · next hi =>
            subst hi
            rw [receivedOf, show messages = _ from he]
          · rw [List.append_nil]
      | _ => exact ih

/-- **What a viewer has received and what waits for it**: the acknowledgement, then the frames that
were queued for it. -/
theorem received_append_queue (hall : AllRight n h) (id : Nat) :
    receivedOf n (story id h) ++ queueOf n (story id h) = .ack :: keptFor id h := by
  induction h with
  | nil => rfl
  | cons e h ih =>
      obtain ⟨he, hall⟩ := allRight_cons.1 hall
      have ih := ih hall
      cases e with
      | offered i data queued =>
          by_cases hi : i = id
          · subst hi
            have hroom : queued = true ↔ (queueOf n (story i h)).length < n := he
            rw [story, if_pos rfl, receivedOf, queueOf, ← List.append_assoc, ih, keptFor_offered,
              List.cons_append]
            simp only [true_and, hroom]
          · rw [story, if_neg hi, ih, keptFor_offered, if_neg (fun hcon => hi hcon.1),
              List.append_nil]
      | received i message =>
          rw [story]
          split
          · rw [receivedOf, queueOf, List.append_assoc]
            refine Eq.trans (congrArg _ ?_) ih
            cases queueOf n (story id h) <;> rfl
          · exact ih
      | drained i messages =>
          rw [story]
          split
          · rw [receivedOf, queueOf, List.append_nil]
            exact ih
          · exact ih
      | _ => exact ih

end Stories

namespace Publishers

variable {n : Nat} {s t : Publishers} {p : Publication} {e : Event} {b : Broadcast} {id : Nat}

/-- The frame that has its turn, if a viewer is still to be offered it. -/
def due (s : Publishers) (id : Nat) : List Bytes :=
  ((s.current.filter fun p => p.pending.contains id).map (·.data)).toList

theorem due_of_idle (h : s.current = none) (id : Nat) : s.due id = [] := by
  rw [due, h]
  rfl

theorem due_of_current (h : s.current = some p) (id : Nat) :
    s.due id = if id ∈ p.pending then [p.data] else [] := by
  rw [due, h, Option.filter_some]
  by_cases hid : id ∈ p.pending <;> simp [hid]

/-- **A sound state**: what is there is what the history says, and all in the history is right. -/
structure Sound (n : Nat) (s : Publishers) : Prop where
  broadcast : s.broadcast.Sound
  capacity : s.broadcast.capacity = n
  registered : ∀ id, s.broadcast.isRegistered id = registeredIn id s.history
  fresh : ∀ id, s.broadcast.nextId ≤ id → story id s.history = []
  queue : ∀ id v, s.broadcast.viewer? id = some v → v.queue = queueOf n (story id s.history)
  offers : ∀ id, (offersTo id s.history).map (·.1) ++ s.due id = publishedTo id s.history
  nodup : ∀ p, s.current = some p → (asked s.history ++ p.pending).Nodup
  audience : ∀ p, s.current = some p →
    ∀ id, id ∈ asked s.history ++ p.pending ↔ registeredIn id s.history = true
  count : ∀ p, s.current = some p → p.count = (queuedFor s.history).length
  right : AllRight n s.history

namespace Sound

theorem new (depth : Nat) : Sound (max depth 1 + 1) (.new depth) where
  broadcast := .new depth
  capacity := rfl
  registered _ := rfl
  fresh _ _ := rfl
  queue _ _ h := by cases h
  offers _ := rfl
  nodup _ h := by cases h
  audience _ h := by cases h
  count _ h := by cases h
  right := .nil _

/-- A step that offers no frame. -/
theorem seen (h : s.Sound n) (he : e.IsQuiet = true) (hb : b.Sound) (hcap : b.capacity = n)
    (hreg : ∀ id, b.isRegistered id = registeredIn id (e :: s.history))
    (hcurrent : s.current = none ∨
      ∀ id, registeredIn id (e :: s.history) = registeredIn id s.history)
    (hfresh : ∀ id, b.nextId ≤ id → story id (e :: s.history) = [])
    (hqueue : ∀ id v, b.viewer? id = some v → v.queue = queueOf n (story id (e :: s.history)))
    (hright : e.IsRight n s.history) : (s.seen e b).Sound n where
  broadcast := hb
  capacity := hcap
  registered := hreg
  fresh := hfresh
  queue := hqueue
  offers id := by
    show (offersTo id (e :: s.history)).map _ ++ s.due id = publishedTo id (e :: s.history)
    rw [offersTo_quiet he, publishedTo_quiet he]
    exact h.offers id
  nodup p hp := by
    show (asked (e :: s.history) ++ _).Nodup
    rw [asked_quiet he]
    exact h.nodup p hp
  audience p hp id := by
    show id ∈ asked (e :: s.history) ++ _ ↔ registeredIn id (e :: s.history) = true
    rw [asked_quiet he]
    rcases hcurrent with hnone | hsame
    · cases hnone.symm.trans hp
    · rw [hsame]
      exact h.audience p hp id
  count p hp := by
    show _ = (queuedFor (e :: s.history)).length
    rw [queuedFor_quiet he]
    exact h.count p hp
  right := allRight_cons.2 ⟨hright, h.right⟩

theorem connect (h : s.Sound n) (hidle : s.current = none) :
    (s.seen (.connected s.broadcast.connect.1) s.broadcast.connect.2).Sound n := by
  have hviewer := viewer?_connect h.broadcast.fresh
  refine h.seen rfl h.broadcast.connect h.capacity ?_ (.inl hidle) ?_ ?_ trivial
  · intro id
    show _ = (s.broadcast.nextId == id || registeredIn id s.history)
    rw [h.broadcast.isRegistered_connect, h.registered]
  · intro id hid
    exact h.fresh id (Nat.le_of_succ_le hid)
  · intro id v hv
    rw [hviewer] at hv
    split at hv
    · next hi =>
      cases hv
      show _ = queueOf n (story id s.history)
      rw [h.fresh id (Nat.le_of_eq hi.symm)]
      rfl
    · exact h.queue id v hv

theorem disconnect (h : s.Sound n) (hidle : s.current = none) (id : Nat) :
    (s.seen (.disconnected id) (s.broadcast.disconnect id)).Sound n := by
  refine h.seen rfl (h.broadcast.disconnect id) ?_ ?_ (.inl hidle) ?_ ?_ trivial
  · rw [Broadcast.capacity, Broadcast.disconnect, depth_settle]
    exact h.capacity
  · intro i
    show _ = (id != i && registeredIn i s.history)
    rw [isRegistered_disconnect, h.registered]
  · intro i hi
    rw [Broadcast.disconnect, nextId_settle] at hi
    exact h.fresh i hi
  · intro i v hv
    rw [viewer?_disconnect] at hv
    split at hv
    · obtain ⟨w, hw, rfl⟩ := Option.map_eq_some_iff.1 hv
      exact h.queue i w hw
    · exact h.queue i v hv

theorem depth_drop (b : Broadcast) (id : Nat) :
    (b.drop id).2.depth = b.depth ∧ (b.drop id).2.nextId = b.nextId := by
  unfold Broadcast.drop
  split
  · exact ⟨rfl, rfl⟩
  · exact ⟨depth_settle _, nextId_settle _⟩

theorem drop (h : s.Sound n) (hidle : s.current = none) (id : Nat) :
    (s.seen (.dropped id) (s.broadcast.drop id).2).Sound n := by
  obtain ⟨hdepth, hnext⟩ := depth_drop s.broadcast id
  refine h.seen rfl (h.broadcast.drop id) ?_ ?_ (.inl hidle) ?_ ?_ trivial
  · rw [Broadcast.capacity, hdepth]
    exact h.capacity
  · intro i
    show _ = (id != i && registeredIn i s.history)
    rw [isRegistered_drop, h.registered]
  · intro i hi
    rw [hnext] at hi
    exact h.fresh i hi
  · intro i v hv
    rw [viewer?_drop] at hv
    split at hv
    · cases hv
    · exact h.queue i v hv

/-- A publisher that sees the flag down is turned away, and nobody is registered. -/
theorem turnedAway (h : s.Sound n) (hc : s.broadcast.connected = false) (data : Bytes) :
    (s.seen (.turnedAway data) s.broadcast).Sound n := by
  refine h.seen rfl h.broadcast h.capacity h.registered (.inr fun _ => rfl) h.fresh h.queue ?_
  intro id
  rw [← h.registered, Bool.eq_false_iff]
  intro hid
  obtain ⟨v, hv, hr⟩ := (Option.any_eq_true _ _).1 hid
  have hgate := h.broadcast.gate.2 ⟨(v.id, v.registered),
    List.mem_map_of_mem (List.mem_of_find?_eq_some hv), hr⟩
  rw [hc] at hgate
  cases hgate

/-- A viewer takes from its queue. -/
theorem taking (h : s.Sound n) {v : Viewer} (hv : s.broadcast.viewer? id = some v)
    {f : Viewer → Viewer} (hf : ∀ v, (f v).id = v.id ∧ (f v).registered = v.registered) {o : Own}
    (he : e.IsQuiet = true)
    (hreg : ∀ i, registeredIn i (e :: s.history) = registeredIn i s.history)
    (hstory : ∀ i, story i (e :: s.history) =
      if id = i then o :: story i s.history else story i s.history)
    (hqueue : ∀ v, v.queue = queueOf n (story id s.history) →
      (f v).queue = queueOf n (o :: story id s.history))
    (hright : e.IsRight n s.history) : (s.seen e (s.broadcast.modify id f)).Sound n := by
  have hviewer := viewer?_modify s.broadcast (fun v => (hf v).1) id
  refine h.seen he (h.broadcast.modify hf id) h.capacity ?_ (.inr hreg) ?_ ?_ hright
  · intro i
    rw [hreg, isRegistered_modify _ hf]
    exact h.registered i
  · intro i hi
    have hne : id ≠ i := by
      rintro rfl
      cases (h.broadcast.fresh_of_le hi).symm.trans hv
    rw [hstory, if_neg hne]
    exact h.fresh i hi
  · intro i w hw
    rw [hviewer] at hw
    rw [hstory]
    split at hw
    · next hi =>
      subst hi
      obtain ⟨w', hw', rfl⟩ := Option.map_eq_some_iff.1 hw
      rw [if_pos rfl]
      exact hqueue w' (h.queue i w' hw')
    · next hi =>
      rw [if_neg (Ne.symm hi)]
      exact h.queue i w hw

theorem receive (h : s.Sound n) (hsome : (s.broadcast.viewer? id).isSome = true) :
    (s.seen (.received id (s.broadcast.receive id).1) (s.broadcast.receive id).2).Sound n := by
  obtain ⟨v, hv⟩ := Option.isSome_iff_exists.1 hsome
  rw [receive_eq hv]
  refine h.taking (o := .receive) hv (by exact fun _ => ⟨rfl, rfl⟩) rfl (by exact fun _ => rfl)
    (by exact fun _ => rfl) ?_ ?_
  · intro w hw
    rw [queueOf, ← hw]
  · show v.queue.head? = _
    rw [h.queue id v hv]

theorem drain (h : s.Sound n) (hsome : (s.broadcast.viewer? id).isSome = true) :
    (s.seen (.drained id (s.broadcast.drain id).1) (s.broadcast.drain id).2).Sound n := by
  obtain ⟨v, hv⟩ := Option.isSome_iff_exists.1 hsome
  rw [drain_eq hv]
  exact h.taking (o := .drain) hv (by exact fun _ => ⟨rfl, rfl⟩) rfl (by exact fun _ => rfl)
    (by exact fun _ => rfl) (by exact fun _ _ => rfl) (h.queue id v hv)

/-- A frame gets its turn: it is due to all that are registered. -/
theorem turn (h : s.Sound n) (hidle : s.current = none) (place : Nat) (data : Bytes) :
    (s.turn place data).Sound n where
  broadcast := h.broadcast
  capacity := h.capacity
  registered := h.registered
  fresh := h.fresh
  queue := h.queue
  offers id := by
    have hoffers := h.offers id
    rw [due_of_idle hidle, List.append_nil] at hoffers
    show (offersTo id s.history).map _ ++ _ = publishedTo id s.history ++ _
    rw [hoffers, due_of_current rfl]
    refine congrArg _ (ite_congr (propext ?_) (fun _ => rfl) fun _ => rfl)
    rw [← h.registered]
    exact h.broadcast.mem_table_iff
  nodup p hp := by
    cases hp
    exact h.broadcast.nodup_table
  audience p hp id := by
    cases hp
    show id ∈ s.broadcast.table.map (·.id) ↔ registeredIn id s.history = true
    rw [← h.registered]
    exact h.broadcast.mem_table_iff
  count p hp := by
    cases hp
    rfl
  right := allRight_cons.2 ⟨trivial, h.right⟩

/-- Whoever is still to be offered the frame is registered. -/
theorem viewer_of_pending (h : s.Sound n) (hcurrent : s.current = some p) (hid : id ∈ p.pending) :
    ∃ v, s.broadcast.viewer? id = some v ∧ v.registered = true := by
  have hreg := (h.audience p hcurrent id).1 (List.mem_append_right _ hid)
  rw [← h.registered] at hreg
  exact (Option.any_eq_true _ _).1 hreg

/-- The frame is queued for a viewer exactly if its queue has room. -/
theorem takes_iff (h : s.Sound n) (hcurrent : s.current = some p) (hid : id ∈ p.pending) :
    s.broadcast.takes id = true ↔ (queueOf n (story id s.history)).length < n := by
  obtain ⟨v, hv, hr⟩ := h.viewer_of_pending hcurrent hid
  rw [takes, hv, Option.any_some, admits, hr, Bool.true_and, decide_eq_true_iff, h.capacity,
    h.queue id v hv]

/-- The queues after an offer are those that the stories tell of. -/
theorem queue_offer (h : s.Sound n) (hcurrent : s.current = some p) (hid : id ∈ p.pending) (i : Nat)
    {w : Viewer} (hw : (s.offer p id).broadcast.viewer? i = some w) :
    w.queue = queueOf n (story i (s.offer p id).history) := by
  obtain ⟨v, hv, hr⟩ := h.viewer_of_pending hcurrent hid
  show w.queue = queueOf n (story i (.offered id p.data _ :: s.history))
  rw [story]
  replace hw := (viewer?_offer _ _ _ _).symm.trans hw
  split at hw
  · next hi =>
    subst hi
    rw [hv, Option.map_some, Option.some_inj] at hw
    rw [if_pos rfl, queueOf, ← h.queue i v hv, ← hw, offered, admits, hr, Bool.true_and, h.capacity]
    split
    · next hroom => rw [if_pos (of_decide_eq_true hroom)]
    · next hfull => rw [if_neg (mt decide_eq_true hfull), List.append_nil]
  · next hi =>
    rw [if_neg (Ne.symm hi)]
    exact h.queue i w hw

/-- What a viewer is offered is no longer due to it, and nothing changes for the others. -/
theorem offers_offer (h : s.Sound n) (hcurrent : s.current = some p) (hid : id ∈ p.pending)
    (i : Nat) :
    (offersTo i (s.offer p id).history).map (·.1) ++ (s.offer p id).due i =
      publishedTo i (s.offer p id).history := by
  have hoffers := h.offers i
  rw [due_of_current hcurrent] at hoffers
  show (offersTo i s.history ++ _).map _ ++ _ = publishedTo i s.history
  rw [← hoffers, due_of_current rfl, List.map_append, List.append_assoc]
  refine congrArg _ ?_
  by_cases hi : id = i
  · subst hi
    have hgone : id ∉ p.pending.erase id :=
      (List.nodup_append.1 (h.nodup p hcurrent)).2.1.not_mem_erase
    rw [if_pos rfl, if_neg hgone, if_pos hid]
    rfl
  · simp only [if_neg hi, List.mem_erase_of_ne (Ne.symm hi)]
    rfl

/-- The frame is offered to a viewer. -/
theorem offer (h : s.Sound n) (hcurrent : s.current = some p) (hid : id ∈ p.pending) :
    (s.offer p id).Sound n := by
  obtain ⟨v, hv, -⟩ := h.viewer_of_pending hcurrent hid
  have hnodup := h.nodup p hcurrent
  have hperm : (id :: asked s.history ++ p.pending.erase id).Perm (asked s.history ++ p.pending) :=
    (List.perm_middle.symm).trans (.append_left _ (List.perm_cons_erase hid).symm)
  refine
    { broadcast := h.broadcast.offer p.data id
      capacity := h.capacity
      registered := ?registered
      fresh := ?fresh
      queue := fun i w hw => h.queue_offer hcurrent hid i hw
      offers := h.offers_offer hcurrent hid
      nodup := ?nodup
      audience := ?audience
      count := ?count
      right := allRight_cons.2 ⟨h.takes_iff hcurrent hid, h.right⟩ }
  case registered =>
    intro i
    show (s.broadcast.offer p.data id).isRegistered i = registeredIn i s.history
    rw [Broadcast.offer, isRegistered_modify _ fun v => ⟨id_offered _ _ v, registered_offered _ _ v⟩]
    exact h.registered i
  case fresh =>
    intro i hi
    have hne : id ≠ i := by
      rintro rfl
      cases (h.broadcast.fresh_of_le hi).symm.trans hv
    show story i (.offered id p.data _ :: s.history) = []
    rw [story, if_neg hne]
    exact h.fresh i hi
  case nodup =>
    intro q hq
    cases hq
    exact hperm.nodup_iff.2 hnodup
  case audience =>
    intro q hq i
    cases hq
    exact hperm.mem_iff.trans (h.audience p hcurrent i)
  case count =>
    intro q hq
    cases hq
    have hcount := h.count p hcurrent
    show (if s.broadcast.takes id then p.count + 1 else p.count) =
      (if s.broadcast.takes id then id :: queuedFor s.history else queuedFor s.history).length
    split
    · rw [hcount, List.length_cons]
    · exact hcount

/-- A frame's turn is over: all that are registered have been offered it. -/
theorem endTurn (h : s.Sound n) (hcurrent : s.current = some p) (hall : p.pending = []) :
    Publishers.Sound n { s with broadcast := s.broadcast.settle, current := none } where
  broadcast := .settle h.broadcast.nodup h.broadcast.taken h.broadcast.gate.2
  capacity := (congrArg (· + 1) (depth_settle _)).trans h.capacity
  registered i := (isRegistered_settle _ _).trans (h.registered i)
  fresh i hi := h.fresh i (Nat.le_trans (Nat.le_of_eq (nextId_settle _).symm) hi)
  queue i v hv := h.queue i v ((viewer?_settle _ _).symm.trans hv)
  offers i := by
    have hoffers := h.offers i
    rw [due_of_current hcurrent, hall, if_neg List.not_mem_nil] at hoffers
    rw [due_of_idle rfl]
    exact hoffers
  nodup q hq := by cases hq
  audience q hq := by cases hq
  count q hq := by cases hq
  right := h.right

/-- The publisher has its count: all that are registered have been offered the frame. -/
theorem finish (h : s.Sound n) (hcurrent : s.current = some p) (hall : p.pending = []) :
    (s.finish p).Sound n := by
  have hnodup := h.nodup p hcurrent
  have haudience := h.audience p hcurrent
  rw [hall, List.append_nil] at hnodup haudience
  exact
    { h.endTurn hcurrent hall with
      right := allRight_cons.2 ⟨⟨h.count p hcurrent, hnodup, haudience⟩, h.right⟩ }

/-- **What one step keeps.** -/
theorem step? (h : s.Sound n) {m : Move} (hm : s.step? m = some t) : t.Sound n := by
  cases m with
  | connect =>
      obtain ⟨hidle, ⟨⟩⟩ := Option.ite_none_right_eq_some.1 hm
      exact h.connect (Option.isNone_iff_eq_none.1 hidle)
  | disconnect id =>
      obtain ⟨hidle, ⟨⟩⟩ := Option.ite_none_right_eq_some.1 hm
      exact h.disconnect (Option.isNone_iff_eq_none.1 hidle) id
  | drop id =>
      obtain ⟨hguard, ⟨⟩⟩ := Option.ite_none_right_eq_some.1 hm
      rw [Bool.and_eq_true] at hguard
      exact h.drop (Option.isNone_iff_eq_none.1 hguard.1) id
  | publish data =>
      rw [Publishers.step?] at hm
      split at hm
      · cases hm
        exact { h with }
      · next hc =>
        cases hm
        exact h.turnedAway (Bool.eq_false_iff.2 hc) data
  | turn place =>
      obtain ⟨hidle, hm⟩ := Option.ite_none_right_eq_some.1 hm
      obtain ⟨data, -, rfl⟩ := Option.map_eq_some_iff.1 hm
      exact h.turn (Option.isNone_iff_eq_none.1 hidle) place data
  | offer id =>
      obtain ⟨p, hp, rfl⟩ := Option.map_eq_some_iff.1 hm
      obtain ⟨hcurrent, hid⟩ := Option.filter_eq_some_iff.1 hp
      exact h.offer hcurrent (List.contains_iff_mem.1 hid)
  | finish =>
      obtain ⟨p, hp, rfl⟩ := Option.map_eq_some_iff.1 hm
      obtain ⟨hcurrent, hall⟩ := Option.filter_eq_some_iff.1 hp
      exact h.finish hcurrent (List.isEmpty_iff.1 hall)
  | receive id =>
      obtain ⟨hsome, ⟨⟩⟩ := Option.ite_none_right_eq_some.1 hm
      exact h.receive hsome
  | drain id =>
      obtain ⟨hsome, ⟨⟩⟩ := Option.ite_none_right_eq_some.1 hm
      exact h.drain hsome

theorem run? (h : s.Sound n) {moves : List Move} (hrun : s.run? moves = some t) : t.Sound n := by
  induction moves generalizing s with
  | nil =>
      cases hrun
      exact h
  | cons m moves ih =>
      obtain ⟨u, hm, hrun⟩ := Option.bind_eq_some_iff.1 hrun
      exact ih (h.step? hm) hrun

end Sound

/-! ## Exact delivery -/

/-- **What delivery comes to** after a run, if `n` messages have room in a queue. -/
structure DeliversExactly (n : Nat) (s : Publishers) : Prop where
  /-- What a viewer has received and what waits for it: the acknowledgement, then the frames that
  were queued for it. -/
  whole : ∀ id v, s.broadcast.viewer? id = some v →
    receivedBy id s.history ++ v.queue = .ack :: keptFor id s.history
  /-- Whoever was let go has received as much of it as it took. -/
  part : ∀ id, receivedBy id s.history <+: .ack :: keptFor id s.history
  /-- A viewer was offered the frames published while it was registered, in their order and each
  once; the last one may still be due. -/
  offers : ∀ id, (offersTo id s.history).map (·.1) ++ s.due id = publishedTo id s.history
  /-- Those for which its queue had no room are missing, and no others; the publishers' counts are
  of the viewers that a frame was queued for. -/
  right : AllRight n s.history
  /-- The queue of a viewer and what it has received come from its own story. -/
  queue : ∀ id v, s.broadcast.viewer? id = some v → v.queue = queueOf n (story id s.history)
  received : ∀ id, receivedBy id s.history = receivedOf n (story id s.history)

/-- **Delivery is exact**, whatever comes first: a viewer gets the acknowledgement and then the frames
published while it was registered, but for those that its queue had no room for when they were
published. A publisher gets the number of viewers that its frame was queued for. And two viewers with
the same story of their own get the same, whatever the others did. -/
theorem delivery_is_exact {depth : Nat} {moves : List Move} {s : Publishers}
    (hrun : (Publishers.new depth).run? moves = some s) :
    s.DeliversExactly (max depth 1 + 1) ∧
      ∀ moves' t, (Publishers.new depth).run? moves' = some t →
        ∀ id i, story id s.history = story i t.history →
          receivedBy id s.history = receivedBy i t.history ∧
          ∀ v w, s.broadcast.viewer? id = some v → t.broadcast.viewer? i = some w →
            v.queue = w.queue := by
  have hs := (Sound.new depth).run? hrun
  have hwhole := received_append_queue hs.right
  refine ⟨⟨?_, ?_, hs.offers, hs.right, hs.queue, receivedBy_eq hs.right⟩, ?_⟩
  · intro id v hv
    rw [receivedBy_eq hs.right, hs.queue id v hv]
    exact hwhole id
  · intro id
    rw [receivedBy_eq hs.right, ← hwhole]
    exact List.prefix_append _ _
  · intro moves' t hrun' id i hsame
    have ht := (Sound.new depth).run? hrun'
    constructor
    · rw [receivedBy_eq hs.right, receivedBy_eq ht.right, hsame]
    · intro v w hv hw
      rw [hs.queue id v hv, ht.queue i w hw, hsame]

/-- A viewer that takes nothing, and one that takes what it is offered. -/
def slowAndFast : List Move :=
  [.connect, .connect, .receive 2] ++
    ([[0], [1], [2]] : List Bytes).flatMap
      fun data => [.publish data, .turn 0, .offer 2, .receive 2, .offer 1, .finish]

/-- The slow one misses the last frame, and the fast one gets them all. -/
theorem slow_viewer_misses_a_frame :
    ∃ s, (Publishers.new 2).run? slowAndFast = some s ∧ s.DeliversExactly 3 ∧
      publishedTo 1 s.history = [[0], [1], [2]] ∧
      keptFor 1 s.history = [.frame [0], .frame [1]] ∧
      receivedBy 2 s.history = [.ack, .frame [0], .frame [1], .frame [2]] := by
  have hseen : ((Publishers.new 2).run? slowAndFast).map (fun s =>
      (publishedTo 1 s.history, keptFor 1 s.history, receivedBy 2 s.history)) =
        some ([[0], [1], [2]], [.frame [0], .frame [1]],
          [.ack, .frame [0], .frame [1], .frame [2]]) := by
    decide
  obtain ⟨s, hrun, hs⟩ := Option.map_eq_some_iff.1 hseen
  simp only [Prod.mk.injEq] at hs
  obtain ⟨hpublished, hkept, hreceived⟩ := hs
  exact ⟨s, hrun, (delivery_is_exact hrun).1, hpublished, hkept, hreceived⟩

end Publishers

end Broadcast

end DeviceGateway
