import DeviceGateway.Broadcast
import Mathlib.Data.List.Nodup

/-!
# Publishing, one viewer after the other

Publishing a frame is no single step. Its publisher looks whether anybody is connected, waits for
its turn, and then offers the frame to the viewers one after the other, in any order. As long as a
frame has its turn nobody connects or is forgotten and no other frame has one, but viewers go on
receiving. `Publishers.run?` has all these steps in any order that is possible, and notes what is
seen of them. A frame that is published undisturbed comes to the same as in one step
(`run?_publication`).

A broadcast is sound if its viewers have their own numbers and its flag says whether anybody is
registered (`Broadcast.Sound`). All that happens to it keeps that.
-/

namespace DeviceGateway

namespace Broadcast

/-- Whether a frame that is offered to the viewer with a number is queued for it. -/
def takes (b : Broadcast) (id : Nat) : Bool := (b.viewer? id).any b.admits

/-- Whether frames are queued for the viewer with a number. -/
def isRegistered (b : Broadcast) (id : Nat) : Bool := (b.viewer? id).any (·.registered)

variable {b : Broadcast} {v : Viewer} {id i : Nat} {data : Bytes}

theorem id_offered (b : Broadcast) (data : Bytes) (v : Viewer) : (b.offered data v).id = v.id := by
  unfold offered
  split <;> rfl

theorem registered_offered (b : Broadcast) (data : Bytes) (v : Viewer) :
    (b.offered data v).registered = v.registered := by
  unfold offered
  split <;> rfl

/-! ## Viewers by their numbers -/

theorem id_of_viewer? (h : b.viewer? id = some v) : v.id = id := by
  simpa using List.find?_some h

theorem viewer?_modify (b : Broadcast) {f : Viewer → Viewer} (hf : ∀ v, (f v).id = v.id)
    (id i : Nat) :
    (b.modify id f).viewer? i = if i = id then (b.viewer? i).map f else b.viewer? i := by
  have hg : ∀ v : Viewer, (if v.id = id then f v else v).id = v.id := by
    intro v
    split
    · exact hf v
    · rfl
  have hfind : (b.modify id f).viewer? i =
      (b.viewer? i).map fun v => if v.id = id then f v else v := by
    rw [viewer?, modify, List.find?_map, viewer?]
    congr 2
    funext v
    simp only [Function.comp_apply, hg]
  rw [hfind]
  cases hv : b.viewer? i with
  | none => split <;> rfl
  | some v =>
      rw [Option.map_some, id_of_viewer? hv]
      split <;> rfl

@[simp] theorem viewers_settle (b : Broadcast) : b.settle.viewers = b.viewers := by
  unfold settle
  split <;> rfl

@[simp] theorem depth_settle (b : Broadcast) : b.settle.depth = b.depth := by
  unfold settle
  split <;> rfl

@[simp] theorem nextId_settle (b : Broadcast) : b.settle.nextId = b.nextId := by
  unfold settle
  split <;> rfl

theorem viewer?_settle (b : Broadcast) (i : Nat) : b.settle.viewer? i = b.viewer? i := by
  rw [viewer?, viewers_settle, viewer?]

theorem viewer?_connect (hfresh : b.viewer? b.nextId = none) (i : Nat) :
    b.connect.2.viewer? i = if i = b.nextId then some ⟨b.nextId, true, [.ack]⟩ else b.viewer? i := by
  show (b.viewers ++ [_]).find? _ = _
  rw [List.find?_append, show b.viewers.find? (·.id == i) = b.viewer? i from rfl]
  split
  · next hi =>
    rw [hi, hfresh]
    simp
  · next hi =>
    simp [Ne.symm hi]

theorem viewer?_disconnect (b : Broadcast) (id i : Nat) :
    (b.disconnect id).viewer? i =
      if i = id then (b.viewer? i).map ({ · with registered := false }) else b.viewer? i := by
  rw [disconnect, viewer?_settle]
  exact viewer?_modify b (by exact fun _ => rfl) id i

theorem viewer?_drop (b : Broadcast) (id i : Nat) :
    (b.drop id).2.viewer? i = if i = id then none else b.viewer? i := by
  unfold drop
  split
  · next hv =>
    split
    · next hi => rw [hi, hv]
    · rfl
  · show ((b.disconnect id).viewers.filter (·.id != id)).find? (·.id == i) = _
    rw [List.find?_filter]
    split
    · next hi =>
      refine List.find?_eq_none.2 fun v _ => ?_
      simp [hi]
    · next hi =>
      have hsame : (fun v : Viewer => (v.id != id && v.id == i)) = fun v => v.id == i := by
        funext v
        by_cases hv : v.id = i
        · simp [hv, hi]
        · simp [hv]
      simp only [Bool.decide_and, Bool.decide_eq_true, hsame]
      exact (viewer?_disconnect b id i).trans (if_neg hi)

theorem viewer?_offer (b : Broadcast) (data : Bytes) (id i : Nat) :
    (b.offer data id).viewer? i =
      if i = id then (b.viewer? i).map (b.offered data) else b.viewer? i :=
  viewer?_modify b (id_offered b data) id i

/-- A viewer after a frame was published in one step. -/
theorem viewer?_publish (hc : b.connected = true) (data : Bytes) (id : Nat) :
    (b.publish data).2.viewer? id = (b.viewer? id).map (b.offered data) := by
  have hsame : ((fun v : Viewer => v.id == id) ∘ b.offered data) = fun v => v.id == id := by
    funext v
    rw [Function.comp_apply, id_offered]
  rw [publish, hc]
  refine (viewer?_settle _ id).trans ?_
  show (b.viewers.map (b.offered data)).find? _ = _
  rw [List.find?_map, hsame, viewer?]

theorem receive_eq (h : b.viewer? id = some v) :
    b.receive id = (v.queue.head?, b.modify id fun v => { v with queue := v.queue.tail }) := by
  rw [receive, h]

theorem drain_eq (h : b.viewer? id = some v) :
    b.drain id = (v.queue, b.modify id fun v => { v with queue := [] }) := by
  rw [drain, h]

/-! ## Sound states -/

/-- The numbers of the viewers, and whether frames are queued for them. -/
def entries (b : Broadcast) : List (Nat × Bool) := b.viewers.map fun v => (v.id, v.registered)

theorem entries_modify (b : Broadcast) {f : Viewer → Viewer}
    (hf : ∀ v, (f v).id = v.id ∧ (f v).registered = v.registered) (id : Nat) :
    (b.modify id f).entries = b.entries := by
  rw [entries, modify, List.map_map]
  refine List.map_congr_left fun v _ => ?_
  rw [Function.comp_apply]
  split
  · rw [(hf v).1, (hf v).2]
  · rfl

/-- **A sound broadcast**: viewers have their own numbers, all of them taken, and the flag says
whether frames are queued for anybody. -/
structure Sound (b : Broadcast) : Prop where
  nodup : (b.entries.map (·.1)).Nodup
  taken : ∀ e ∈ b.entries, e.1 < b.nextId
  gate : b.connected = true ↔ ∃ e ∈ b.entries, e.2 = true

theorem table_eq_nil_iff : b.table = [] ↔ ¬ ∃ e ∈ b.entries, e.2 = true := by
  simp [table, entries]

theorem isRegistered_settle (b : Broadcast) (id : Nat) :
    b.settle.isRegistered id = b.isRegistered id := by
  rw [isRegistered, viewer?_settle, isRegistered]

theorem isRegistered_modify (b : Broadcast) {f : Viewer → Viewer}
    (hf : ∀ v, (f v).id = v.id ∧ (f v).registered = v.registered) (id i : Nat) :
    (b.modify id f).isRegistered i = b.isRegistered i := by
  rw [isRegistered, viewer?_modify b (fun v => (hf v).1), isRegistered]
  split
  · rw [Option.any_map]
    congr 1
    funext v
    exact (hf v).2
  · rfl

theorem isRegistered_disconnect (b : Broadcast) (id i : Nat) :
    (b.disconnect id).isRegistered i = (id != i && b.isRegistered i) := by
  rw [isRegistered, viewer?_disconnect, isRegistered]
  split
  · next hi =>
    rw [hi, bne_self_eq_false, Bool.false_and, Option.any_map]
    cases b.viewer? id <;> rfl
  · next hi => rw [bne_iff_ne.2 (Ne.symm hi), Bool.true_and]

theorem isRegistered_publish (b : Broadcast) (data : Bytes) (i : Nat) :
    (b.publish data).2.isRegistered i = b.isRegistered i := by
  cases hc : b.connected with
  | false =>
      rw [publish, hc]
      rfl
  | true =>
      rw [isRegistered, viewer?_publish hc, Option.any_map, isRegistered]
      congr 1
      funext v
      exact registered_offered b data v

theorem isRegistered_drop (b : Broadcast) (id i : Nat) :
    (b.drop id).2.isRegistered i = (id != i && b.isRegistered i) := by
  rw [isRegistered, viewer?_drop, isRegistered]
  split
  · next hi => rw [hi, bne_self_eq_false, Bool.false_and, Option.any_none]
  · next hi => rw [bne_iff_ne.2 (Ne.symm hi), Bool.true_and]

namespace Sound

theorem new (depth : Nat) : (Broadcast.new depth).Sound :=
  ⟨List.nodup_nil, fun _ h => absurd h List.not_mem_nil, by simp [Broadcast.new, entries]⟩

theorem of_entries {b' : Broadcast} (h : b.Sound) (he : b'.entries = b.entries)
    (hn : b'.nextId = b.nextId) (hc : b'.connected = b.connected) : b'.Sound :=
  ⟨he ▸ h.nodup, by rw [he, hn]; exact h.taken, by rw [he, hc]; exact h.gate⟩

/-- Lowering the flag when nobody is left. -/
theorem settle (nodup : (b.entries.map (·.1)).Nodup) (taken : ∀ e ∈ b.entries, e.1 < b.nextId)
    (gate : (∃ e ∈ b.entries, e.2 = true) → b.connected = true) : b.settle.Sound := by
  unfold Broadcast.settle
  split
  · next hempty =>
    have hnone := table_eq_nil_iff.1 (List.isEmpty_iff.1 hempty)
    exact ⟨nodup, taken, iff_of_false Bool.false_ne_true hnone⟩
  · next hsome =>
    have hsome := not_not.1 fun hno => hsome (List.isEmpty_iff.2 (table_eq_nil_iff.2 hno))
    exact ⟨nodup, taken, iff_of_true (gate hsome) hsome⟩

theorem fresh_of_le (h : b.Sound) (hid : b.nextId ≤ id) : b.viewer? id = none := by
  refine List.find?_eq_none.2 fun v hv => ?_
  have := h.taken (v.id, v.registered) (List.mem_map_of_mem hv)
  simp only [beq_iff_eq]
  omega

theorem fresh (h : b.Sound) : b.viewer? b.nextId = none := h.fresh_of_le (Nat.le_refl _)

theorem isRegistered_connect (h : b.Sound) (i : Nat) :
    b.connect.2.isRegistered i = (b.nextId == i || b.isRegistered i) := by
  rw [isRegistered, viewer?_connect h.fresh, isRegistered]
  split
  · next hi => rw [hi, beq_self_eq_true, Bool.true_or, Option.any_some]
  · next hi => rw [beq_false_of_ne (Ne.symm hi), Bool.false_or]

theorem viewer?_of_mem (h : b.Sound) (hv : v ∈ b.viewers) : b.viewer? v.id = some v := by
  obtain ⟨w, hw⟩ : ∃ w, b.viewer? v.id = some w := by
    rw [← Option.isSome_iff_exists, viewer?, List.find?_isSome]
    exact ⟨v, hv, beq_self_eq_true _⟩
  have hids : (b.viewers.map (·.id)).Nodup := by
    have := h.nodup
    rwa [entries, List.map_map] at this
  rw [hw, List.inj_on_of_nodup_map hids (List.mem_of_find?_eq_some hw) hv (id_of_viewer? hw)]

theorem nodup_table (h : b.Sound) : (b.table.map (·.id)).Nodup := by
  have hids := h.nodup
  rw [entries, List.map_map] at hids
  exact hids.sublist (List.Sublist.map _ List.filter_sublist)

/-- The viewers that frames are queued for, by their numbers. -/
theorem mem_table_iff (h : b.Sound) : id ∈ b.table.map (·.id) ↔ b.isRegistered id = true := by
  rw [isRegistered, Option.any_eq_true]
  constructor
  · intro hid
    obtain ⟨v, hv, rfl⟩ := List.mem_map.1 hid
    obtain ⟨hv, hr⟩ := List.mem_filter.1 hv
    exact ⟨v, h.viewer?_of_mem hv, hr⟩
  · rintro ⟨v, hv, hr⟩
    rw [← id_of_viewer? hv]
    exact List.mem_map_of_mem (List.mem_filter.2 ⟨List.mem_of_find?_eq_some hv, hr⟩)

theorem connect (h : b.Sound) : b.connect.2.Sound := by
  have he : b.connect.2.entries = b.entries ++ [(b.nextId, true)] := by
    rw [entries, Broadcast.connect, List.map_append]
    rfl
  refine ⟨?_, ?_, ?_⟩
  · rw [he, List.map_append, List.nodup_append]
    refine ⟨h.nodup, List.nodup_singleton _, ?_⟩
    intro i hi j hj
    obtain ⟨e, he, rfl⟩ := List.mem_map.1 hi
    rw [List.map_singleton, List.mem_singleton] at hj
    exact Nat.ne_of_lt (hj ▸ h.taken e he)
  · rw [he]
    intro e hmem
    rcases List.mem_append.1 hmem with hmem | hmem
    · exact Nat.lt_succ_of_lt (h.taken e hmem)
    · rw [List.mem_singleton.1 hmem]
      exact Nat.lt_succ_self _
  · rw [he]
    exact iff_of_true rfl ⟨_, List.mem_append_right _ (List.mem_singleton_self _), rfl⟩

theorem disconnect (h : b.Sound) (id : Nat) : (b.disconnect id).Sound := by
  have he : (b.modify id ({ · with registered := false })).entries =
      b.entries.map fun e => if e.1 = id then (e.1, false) else e := by
    rw [entries, entries, modify, List.map_map, List.map_map]
    refine List.map_congr_left fun v _ => ?_
    simp only [Function.comp_apply]
    split <;> rfl
  refine .settle ?_ ?_ ?_
  · have hids : (b.entries.map fun e => if e.1 = id then (e.1, false) else e).map (·.1) =
        b.entries.map (·.1) := by
      rw [List.map_map]
      refine List.map_congr_left fun e _ => ?_
      rw [Function.comp_apply]
      split <;> rfl
    rw [he, hids]
    exact h.nodup
  · rw [he]
    intro e hmem
    obtain ⟨e', hmem', rfl⟩ := List.mem_map.1 hmem
    have := h.taken e' hmem'
    split <;> exact this
  · rw [he]
    rintro ⟨e, hmem, hr⟩
    obtain ⟨e', hmem', rfl⟩ := List.mem_map.1 hmem
    refine h.gate.2 ⟨e', hmem', ?_⟩
    split at hr
    · cases hr
    · exact hr

theorem drop (h : b.Sound) (id : Nat) : (b.drop id).2.Sound := by
  unfold Broadcast.drop
  split
  · exact h
  · have h' := h.disconnect id
    have he : ({ b.disconnect id with viewers := (b.disconnect id).viewers.filter (·.id != id) } :
        Broadcast).entries = (b.disconnect id).entries.filter (·.1 != id) := by
      rw [entries, entries, List.filter_map]
      rfl
    refine ⟨?_, ?_, ?_⟩
    · rw [he]
      exact h'.nodup.sublist (List.Sublist.map _ List.filter_sublist)
    · rw [he]
      exact fun e hmem => h'.taken e (List.mem_filter.1 hmem).1
    · -- Whoever is let go was forgotten before.
      rw [he]
      refine h'.gate.trans ⟨?_, ?_⟩
      · rintro ⟨e, hmem, hr⟩
        refine ⟨e, List.mem_filter.2 ⟨hmem, ?_⟩, hr⟩
        rw [bne_iff_ne]
        rintro rfl
        obtain ⟨v, hv, rfl⟩ := List.mem_map.1 hmem
        have hfound := h'.viewer?_of_mem hv
        rw [viewer?_disconnect, if_pos rfl, Option.map_eq_some_iff] at hfound
        obtain ⟨w, -, hw⟩ := hfound
        rw [← hw] at hr
        cases hr
      · rintro ⟨e, hmem, hr⟩
        exact ⟨e, (List.mem_filter.1 hmem).1, hr⟩

theorem modify (h : b.Sound) {f : Viewer → Viewer}
    (hf : ∀ v, (f v).id = v.id ∧ (f v).registered = v.registered) (id : Nat) :
    (b.modify id f).Sound :=
  h.of_entries (entries_modify b hf id) rfl rfl

theorem offer (h : b.Sound) (data : Bytes) (id : Nat) : (b.offer data id).Sound :=
  h.modify (fun v => ⟨id_offered b data v, registered_offered b data v⟩) id

end Sound

/-! ## Publishers and viewers in any order -/

/-- **What is seen of a step.** -/
inductive Event where
  | connected (id : Nat)
  | disconnected (id : Nat)
  | dropped (id : Nat)
  /-- A publisher found that nobody is connected. -/
  | turnedAway (data : Bytes)
  /-- A frame has its turn. -/
  | turn (data : Bytes)
  /-- It was offered to a viewer, and whether it was queued. -/
  | offered (id : Nat) (data : Bytes) (queued : Bool)
  /-- The publisher has its count. -/
  | published (data : Bytes) (count : Nat)
  | received (id : Nat) (message : Option PushMessage)
  | drained (id : Nat) (messages : List PushMessage)
  deriving DecidableEq, Repr

/-- **A frame that has its turn.** -/
structure Publication where
  data : Bytes
  /-- The viewers that it is still to be offered to. -/
  pending : List Nat
  /-- How many viewers it was queued for. -/
  count : Nat
  deriving DecidableEq, Repr

/-- **A broadcast with its publishers.** -/
structure Publishers where
  broadcast : Broadcast
  /-- Frames whose publishers saw that somebody is connected. They wait for their turn. -/
  waiting : List Bytes
  current : Option Publication
  /-- What has been seen, the latest first. -/
  history : List Event
  deriving DecidableEq, Repr

namespace Publishers

def new (depth : Nat) : Publishers := ⟨.new depth, [], none, []⟩

/-- Who takes a step, and which. -/
inductive Move where
  | connect
  | disconnect (id : Nat)
  | drop (id : Nat)
  /-- A publisher looks whether anybody is connected. -/
  | publish (data : Bytes)
  /-- One of the frames that wait gets its turn. -/
  | turn (place : Nat)
  /-- The frame that has its turn is offered to a viewer. -/
  | offer (id : Nat)
  /-- All have been offered the frame. -/
  | finish
  | receive (id : Nat)
  | drain (id : Nat)
  deriving DecidableEq, Repr

/-- The state after a step on the broadcast itself. -/
def seen (s : Publishers) (e : Event) (broadcast : Broadcast) : Publishers :=
  { s with broadcast, history := e :: s.history }

/-- **A frame gets its turn.** -/
def turn (s : Publishers) (place : Nat) (data : Bytes) : Publishers :=
  { s with
    waiting := s.waiting.eraseIdx place
    current := some ⟨data, s.broadcast.table.map (·.id), 0⟩
    history := .turn data :: s.history }

/-- **The frame is offered** to one of those it is still to be offered to. -/
def offer (s : Publishers) (p : Publication) (id : Nat) : Publishers :=
  let queued := s.broadcast.takes id
  { s with
    broadcast := s.broadcast.offer p.data id
    current := some
      { p with pending := p.pending.erase id, count := if queued then p.count + 1 else p.count }
    history := .offered id p.data queued :: s.history }

/-- **The publisher has its count.** -/
def finish (s : Publishers) (p : Publication) : Publishers :=
  { s with
    broadcast := s.broadcast.settle
    current := none
    history := .published p.data p.count :: s.history }

/-- **The state after a step**, if it is possible. Viewers come and go while no frame has its turn. -/
def step? (s : Publishers) : Move → Option Publishers
  | .connect =>
    if s.current.isNone then
      some (s.seen (.connected s.broadcast.connect.1) s.broadcast.connect.2)
    else none
  | .disconnect id =>
    if s.current.isNone then some (s.seen (.disconnected id) (s.broadcast.disconnect id)) else none
  | .drop id =>
    if s.current.isNone && (s.broadcast.viewer? id).isSome then
      some (s.seen (.dropped id) (s.broadcast.drop id).2)
    else none
  | .publish data =>
    if s.broadcast.connected then some { s with waiting := s.waiting ++ [data] }
    else some (s.seen (.turnedAway data) s.broadcast)
  | .turn place => if s.current.isNone then s.waiting[place]?.map (s.turn place) else none
  | .offer id =>
    (s.current.filter fun p => p.pending.contains id).map fun p => s.offer p id
  | .finish => (s.current.filter fun p => p.pending.isEmpty).map s.finish
  | .receive id =>
    if (s.broadcast.viewer? id).isSome then
      some (s.seen (.received id (s.broadcast.receive id).1) (s.broadcast.receive id).2)
    else none
  | .drain id =>
    if (s.broadcast.viewer? id).isSome then
      some (s.seen (.drained id (s.broadcast.drain id).1) (s.broadcast.drain id).2)
    else none

/-- The state after a run, if all its steps are possible. -/
def run? (s : Publishers) : List Move → Option Publishers
  | [] => some s
  | m :: ms => (s.step? m).bind (run? · ms)

variable {s t : Publishers} {p : Publication}

theorem run?_append (s : Publishers) (before after : List Move) :
    s.run? (before ++ after) = (s.run? before).bind (run? · after) := by
  induction before generalizing s with
  | nil => rfl
  | cons m before ih =>
      show (s.step? m).bind (run? · (before ++ after)) = ((s.step? m).bind (run? · before)).bind _
      cases s.step? m with
      | none => rfl
      | some t => exact ih t

/-! ## A publication that nobody disturbs -/

theorem takes_offer (hi : i ≠ id) : (b.offer data id).takes i = b.takes i := by
  rw [takes, viewer?_offer, if_neg hi, takes]
  rfl

/-- A viewer that is offered a frame is not offered it again. -/
theorem viewers_offer (b : Broadcast) (data : Bytes) {id : Nat} {ids : List Nat} (hid : id ∉ ids) :
    ((b.offer data id).viewers.map fun v =>
        if v.id ∈ ids then offered (b.offer data id) data v else v) =
      b.viewers.map fun v => if v.id ∈ id :: ids then offered b data v else v := by
  rw [Broadcast.offer, modify, List.map_map]
  refine List.map_congr_left fun v _ => ?_
  rw [Function.comp_apply]
  by_cases hv : v.id = id
  · have hkept : (offered b data v).id ∉ ids := by
      rw [id_offered, hv]
      exact hid
    rw [if_pos hv, if_pos (List.mem_cons.2 (.inl hv))]
    exact if_neg hkept
  · rw [if_neg hv]
    have hmem : v.id ∈ id :: ids ↔ v.id ∈ ids := by
      rw [List.mem_cons, or_iff_right hv]
    simp only [hmem]
    rfl

/-- The count of a publication goes up by one for each viewer that the frame is queued for. -/
theorem count_cons (b : Broadcast) (count id : Nat) (ids : List Nat) :
    (if b.takes id then count + 1 else count) + (ids.filter b.takes).length =
      count + ((id :: ids).filter b.takes).length := by
  rw [List.filter_cons]
  split
  · rw [List.length_cons]
    omega
  · rfl

theorem run?_offers (ids : List Nat) (hids : ids.Nodup) (hcurrent : s.current = some p)
    (hp : p.pending = ids) :
    ∃ history, s.run? (ids.map .offer) = some
      { s with
        broadcast := { s.broadcast with
          viewers := s.broadcast.viewers.map fun v =>
            if v.id ∈ ids then offered s.broadcast p.data v else v }
        current := some
          { p with pending := [], count := p.count + (ids.filter s.broadcast.takes).length }
        history } := by
  induction ids generalizing s p with
  | nil =>
      refine ⟨s.history, ?_⟩
      have hviewers : (s.broadcast.viewers.map fun v =>
          if v.id ∈ ([] : List Nat) then offered s.broadcast p.data v else v) =
            s.broadcast.viewers := by
        simp
      show some s = some _
      rw [hviewers, List.filter_nil, List.length_nil, Nat.add_zero, ← hp, ← hcurrent]
  | cons id ids ih =>
      obtain ⟨hid, hids⟩ := List.nodup_cons.1 hids
      have hstep : s.step? (.offer id) = some (s.offer p id) := by
        simp [step?, hcurrent, hp]
      obtain ⟨history, hrun⟩ := ih hids (s := s.offer p id) rfl
        (show p.pending.erase id = ids by rw [hp, List.erase_cons_head])
      refine ⟨history, ?_⟩
      rw [List.map_cons, run?, hstep]
      refine hrun.trans ?_
      have htakes : ids.filter (s.broadcast.offer p.data id).takes = ids.filter s.broadcast.takes :=
        List.filter_congr fun i hi => takes_offer fun he => hid (he ▸ hi)
      simp only [offer, htakes, count_cons]
      rw [viewers_offer s.broadcast p.data hid]
      rfl

/-- Publishing in one step, in terms of the viewers that frames are queued for. -/
theorem publish_eq (hb : b.Sound) (hc : b.connected = true) (data : Bytes) :
    b.publish data =
      (((b.table.map (·.id)).filter b.takes).length,
        settle { b with viewers := b.viewers.map fun v =>
          if v.id ∈ b.table.map (·.id) then offered b data v else v }) := by
  have hcount : ((b.table.map (·.id)).filter b.takes).length = (b.viewers.filter b.admits).length := by
    rw [List.filter_map, List.length_map, table, List.filter_filter]
    congr 1
    refine List.filter_congr fun v hv => ?_
    rw [Function.comp_apply, takes, hb.viewer?_of_mem hv]
    simp only [admits, Option.any_some]
    cases v.registered <;> simp
  have hviewers : (b.viewers.map fun v =>
      if v.id ∈ b.table.map (·.id) then offered b data v else v) = b.viewers.map (offered b data) := by
    refine List.map_congr_left fun v hv => ?_
    split
    · rfl
    · next hv' =>
      rw [hb.mem_table_iff, isRegistered, hb.viewer?_of_mem hv, Option.any_some] at hv'
      rw [offered, if_neg]
      simp [admits, hv']
  rw [hcount, hviewers, publish, hc]
  rfl

/-- **A frame that is published undisturbed**: as if all were done in one step. -/
theorem run?_publication (hs : s.broadcast.Sound) (hidle : s.current = none)
    (hc : s.broadcast.connected = true) (data : Bytes) :
    ∃ history, s.run? (.publish data :: .turn s.waiting.length ::
        ((s.broadcast.table.map (·.id)).map .offer ++ [.finish])) = some
      { s with
        broadcast := (s.broadcast.publish data).2
        history := .published data (s.broadcast.publish data).1 :: history } := by
  have hqueued : s.step? (.publish data) = some { s with waiting := s.waiting ++ [data] } := by
    rw [step?, if_pos hc]
  have hturn : ({ s with waiting := s.waiting ++ [data] } : Publishers).step?
      (.turn s.waiting.length) =
        some (({ s with waiting := s.waiting ++ [data] } : Publishers).turn s.waiting.length data) := by
    simp [step?, hidle]
  obtain ⟨history, hoffers⟩ := run?_offers (s.broadcast.table.map (·.id)) hs.nodup_table
    (s := ({ s with waiting := s.waiting ++ [data] } : Publishers).turn s.waiting.length data) rfl rfl
  refine ⟨history, ?_⟩
  rw [run?, hqueued, Option.bind_some, run?, hturn, Option.bind_some, run?_append, hoffers,
    publish_eq hs hc]
  have hwaiting : (s.waiting ++ [data]).eraseIdx s.waiting.length = s.waiting := by
    rw [List.eraseIdx_append_of_length_le (Nat.le_refl _), Nat.sub_self]
    exact List.append_nil _
  simp [run?, step?, finish, turn, hwaiting, hidle]

end Publishers

end Broadcast

end DeviceGateway
