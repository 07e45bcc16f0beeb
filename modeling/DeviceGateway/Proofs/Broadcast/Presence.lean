import DeviceGateway.Proofs.Broadcast.Delivery

/-!
# Who is connected

A broadcast keeps a table of the viewers that frames are queued for, and a flag that says whether
the table has anybody in it. A viewer may leave the table by its number and once more when it is let
go, numbers that nobody has may be given, and publishing looks at the table as well. After all of
that, in any order, the flag and the table say what a history of the operations says
(`connected_flag_tells_the_truth`).
-/

namespace DeviceGateway

namespace Broadcast

variable {b : Broadcast} {id : Nat} {h : List Event}

/-! ## Histories of operations -/

/-- **What is seen of an operation.** Nothing is seen of one on a viewer that has been let go. -/
def seen (b : Broadcast) : Op → List Event
  | .connect => [.connected b.connect.1]
  | .disconnect id => [.disconnected id]
  | .drop id => if (b.viewer? id).isSome then [.dropped id] else []
  | .publish data => [.published data (b.publish data).1]
  | .receive id => if (b.viewer? id).isSome then [.received id (b.receive id).1] else []
  | .drain id => if (b.viewer? id).isSome then [.drained id (b.drain id).1] else []

/-- A history after operations, the latest first. -/
def log (h : List Event) (b : Broadcast) : List Op → List Event
  | [] => h
  | op :: ops => log (b.seen op ++ h) (b.step op).2 ops

/-- **The numbers that viewers got** as they connected. -/
def numbersGiven : List Event → List Nat
  | [] => []
  | .connected id :: h => id :: numbersGiven h
  | _ :: h => numbersGiven h

/-- **A viewer stays**: it has connected and since then has neither been disconnected nor dropped. -/
def Stays (id : Nat) (h : List Event) : Prop :=
  ∃ later earlier, h = later ++ .connected id :: earlier ∧
    .disconnected id ∉ later ∧ .dropped id ∉ later

theorem stays_cons {e : Event} (hd : e ≠ .disconnected id) (hl : e ≠ .dropped id)
    (hs : Stays id h) : Stays id (e :: h) := by
  obtain ⟨later, earlier, rfl, hnd, hnl⟩ := hs
  exact ⟨e :: later, earlier, rfl, List.not_mem_cons_of_ne_of_not_mem hd.symm hnd,
    List.not_mem_cons_of_ne_of_not_mem hl.symm hnl⟩

/-- Whoever stays did so before, unless it has just connected. -/
theorem stays_of_cons {e : Event} (hs : Stays id (e :: h)) :
    e = .connected id ∨ (Stays id h ∧ e ≠ .disconnected id ∧ e ≠ .dropped id) := by
  obtain ⟨later, earlier, heq, hnd, hnl⟩ := hs
  cases later with
  | nil => exact .inl (List.cons.inj heq).1
  | cons e' later =>
      obtain ⟨rfl, rfl⟩ := List.cons.inj heq
      refine .inr ⟨⟨later, earlier, rfl, List.not_mem_of_not_mem_cons hnd,
        List.not_mem_of_not_mem_cons hnl⟩, ?_, ?_⟩
      · exact Ne.symm (List.ne_of_not_mem_cons hnd)
      · exact Ne.symm (List.ne_of_not_mem_cons hnl)

theorem registeredIn_iff (id : Nat) (h : List Event) : registeredIn id h = true ↔ Stays id h := by
  induction h with
  | nil =>
      constructor
      · intro hcon
        cases hcon
      · rintro ⟨later, earlier, heq, -⟩
        cases later <;> cases heq
  | cons e h ih =>
      cases e with
      | connected i =>
          rw [registeredIn, Bool.or_eq_true, ih, beq_iff_eq]
          constructor
          · rintro (rfl | hs)
            · exact ⟨[], h, rfl, List.not_mem_nil, List.not_mem_nil⟩
            · exact stays_cons (by simp) (by simp) hs
          · intro hs
            rcases stays_of_cons hs with heq | ⟨hs, -⟩
            · exact .inl (Event.connected.inj heq)
            · exact .inr hs
      | disconnected i =>
          rw [registeredIn, Bool.and_eq_true, ih, bne_iff_ne]
          constructor
          · rintro ⟨hi, hs⟩
            exact stays_cons (by simpa using hi) (by simp) hs
          · intro hs
            rcases stays_of_cons hs with heq | ⟨hs, hd, -⟩
            · cases heq
            · exact ⟨by simpa using hd, hs⟩
      | dropped i =>
          rw [registeredIn, Bool.and_eq_true, ih, bne_iff_ne]
          constructor
          · rintro ⟨hi, hs⟩
            exact stays_cons (by simp) (by simpa using hi) hs
          · intro hs
            rcases stays_of_cons hs with heq | ⟨hs, -, hl⟩
            · cases heq
            · exact ⟨by simpa using hl, hs⟩
      | _ =>
          refine ih.trans ⟨stays_cons (by simp) (by simp), fun hs => ?_⟩
          rcases stays_of_cons hs with heq | ⟨hs, -⟩
          · cases heq
          · exact hs

/-! ## What an operation keeps -/

theorem nextId_step (b : Broadcast) (op : Op) : b.nextId ≤ (b.step op).2.nextId := by
  cases op with
  | connect => exact Nat.le_succ _
  | disconnect id =>
      show _ ≤ (b.disconnect id).nextId
      rw [disconnect, nextId_settle]
      exact Nat.le_refl _
  | drop id => exact Nat.le_of_eq (Publishers.Sound.depth_drop b id).2.symm
  | publish data =>
      show _ ≤ (b.publish data).2.nextId
      unfold publish
      split
      · exact Nat.le_refl _
      · simp only [nextId_settle]
        exact Nat.le_refl _
  | receive id =>
      show _ ≤ (b.receive id).2.nextId
      unfold receive
      split <;> exact Nat.le_refl _
  | drain id =>
      show _ ≤ (b.drain id).2.nextId
      unfold drain
      split <;> exact Nat.le_refl _

theorem entries_map_offered (b : Broadcast) (data : Bytes) :
    entries { b with viewers := b.viewers.map (b.offered data) } = b.entries := by
  rw [entries, entries, List.map_map]
  refine List.map_congr_left fun v _ => ?_
  rw [Function.comp_apply, id_offered, registered_offered]

namespace Sound

theorem publish (hb : b.Sound) (data : Bytes) : (b.publish data).2.Sound := by
  unfold Broadcast.publish
  split
  · exact hb
  · have he := entries_map_offered b data
    exact .settle (he ▸ hb.nodup) (he ▸ hb.taken) (he ▸ hb.gate.2)

theorem receive (hb : b.Sound) (id : Nat) : (b.receive id).2.Sound := by
  unfold Broadcast.receive
  split
  · exact hb
  · exact hb.modify (by exact fun _ => ⟨rfl, rfl⟩) id

theorem drain (hb : b.Sound) (id : Nat) : (b.drain id).2.Sound := by
  unfold Broadcast.drain
  split
  · exact hb
  · exact hb.modify (by exact fun _ => ⟨rfl, rfl⟩) id

/-- **All that happens to a broadcast keeps it sound.** -/
theorem step (hb : b.Sound) (op : Op) : (b.step op).2.Sound := by
  cases op with
  | connect => exact hb.connect
  | disconnect id => exact hb.disconnect id
  | drop id => exact hb.drop id
  | publish data => exact hb.publish data
  | receive id => exact hb.receive id
  | drain id => exact hb.drain id

theorem run (hb : b.Sound) (ops : List Op) : (b.run ops).Sound := by
  induction ops generalizing b with
  | nil => exact hb
  | cons op ops ih => exact ih (hb.step op)

theorem connected_iff (hb : b.Sound) : b.connected = true ↔ b.table ≠ [] := by
  rw [hb.gate, Ne, table_eq_nil_iff, not_not]

theorem clientCount_pos (hb : b.Sound) : b.connected = true ↔ 0 < b.clientCount := by
  rw [hb.connected_iff, clientCount, List.length_pos_iff]

end Sound

theorem isRegistered_receive (b : Broadcast) (id i : Nat) :
    (b.receive id).2.isRegistered i = b.isRegistered i := by
  unfold receive
  split
  · rfl
  · exact isRegistered_modify b (by exact fun _ => ⟨rfl, rfl⟩) id i

theorem isRegistered_drain (b : Broadcast) (id i : Nat) :
    (b.drain id).2.isRegistered i = b.isRegistered i := by
  unfold drain
  split
  · rfl
  · exact isRegistered_modify b (by exact fun _ => ⟨rfl, rfl⟩) id i

/-! ## Leaving the table -/

theorem table_disconnect (b : Broadcast) (id : Nat) :
    (b.disconnect id).table = b.table.filter (·.id != id) := by
  rw [table, disconnect, viewers_settle, modify, table]
  dsimp only
  induction b.viewers with
  | nil => rfl
  | cons v vs ih =>
      rw [List.map_cons, List.filter_cons, List.filter_cons, ih]
      by_cases hv : v.id = id
      · cases v.registered <;> simp [hv]
      · cases hr : v.registered <;> simp [hv, hr]

/-- **Letting a viewer go takes nobody else out of the table**, and nobody at all if it has been
disconnected. -/
theorem table_drop (b : Broadcast) (id : Nat) :
    (b.drop id).2.table = b.table.filter (·.id != id) := by
  unfold drop
  split
  · next hnone =>
    refine (List.filter_eq_self.2 fun v hv => ?_).symm
    have hne := List.find?_eq_none.1 hnone v (List.mem_filter.1 hv).1
    simpa using hne
  · have htwice : (b.table.filter (·.id != id)).filter (·.id != id) = b.table.filter (·.id != id) := by
      rw [List.filter_filter]
      simp only [Bool.and_self]
    rw [← htwice, ← table_disconnect, table, table, List.filter_filter, List.filter_filter]
    simp only [Bool.and_comm]

/-- Whoever has left the table does not come back. -/
theorem isRegistered_run (hb : b.Sound) (hid : id < b.nextId) (hr : b.isRegistered id = false)
    (ops : List Op) : (b.run ops).isRegistered id = false := by
  induction ops generalizing b with
  | nil => exact hr
  | cons op ops ih =>
      refine ih (hb.step op) (Nat.lt_of_lt_of_le hid (nextId_step b op)) ?_
      cases op with
      | connect =>
          show b.connect.2.isRegistered id = false
          rw [hb.isRegistered_connect, hr, Bool.or_false, beq_eq_false_iff_ne]
          exact Nat.ne_of_gt hid
      | disconnect i =>
          show (b.disconnect i).isRegistered id = false
          rw [isRegistered_disconnect, hr, Bool.and_false]
      | drop i =>
          show (b.drop i).2.isRegistered id = false
          rw [isRegistered_drop, hr, Bool.and_false]
      | publish data => exact (isRegistered_publish b data id).trans hr
      | receive i => exact (isRegistered_receive b i id).trans hr
      | drain i => exact (isRegistered_drain b i id).trans hr

/-! ## The flag and the table -/

/-- **What is kept**: the table has those whom the history says to stay, and numbers go up. -/
structure Kept (b : Broadcast) (h : List Event) : Prop where
  sound : b.Sound
  registered : ∀ id, b.isRegistered id = registeredIn id h
  given : ∀ id ∈ numbersGiven h, id < b.nextId
  nodup : (numbersGiven h).Nodup

theorem numbersGiven_append {es : List Event} (hes : ∀ e ∈ es, ∀ id, e ≠ .connected id)
    (h : List Event) : numbersGiven (es ++ h) = numbersGiven h := by
  induction es with
  | nil => rfl
  | cons e es ih =>
      rw [List.cons_append]
      cases e with
      | connected id => exact absurd rfl (hes _ List.mem_cons_self id)
      | _ => exact ih fun e he => hes e (List.mem_cons_of_mem _ he)

/-- Who is registered after an operation that is seen. -/
theorem Kept.registered_step (hk : b.Kept h) (op : Op) (i : Nat) :
    (b.step op).2.isRegistered i = registeredIn i (b.seen op ++ h) := by
  cases op with
  | connect =>
      show b.connect.2.isRegistered i = (b.nextId == i || registeredIn i h)
      rw [hk.sound.isRegistered_connect, hk.registered]
  | disconnect id =>
      show (b.disconnect id).isRegistered i = (id != i && registeredIn i h)
      rw [isRegistered_disconnect, hk.registered]
  | drop id =>
      show (b.drop id).2.isRegistered i = registeredIn i (b.seen (.drop id) ++ h)
      rw [seen]
      split
      · show _ = (id != i && registeredIn i h)
        rw [isRegistered_drop, hk.registered]
      · next hnone =>
        rw [Option.not_isSome_iff_eq_none] at hnone
        rw [Broadcast.drop, hnone]
        exact hk.registered i
  | publish data => exact (isRegistered_publish b data i).trans (hk.registered i)
  | receive id =>
      refine (isRegistered_receive b id i).trans ((hk.registered i).trans ?_)
      rw [seen]
      split <;> rfl
  | drain id =>
      refine (isRegistered_drain b id i).trans ((hk.registered i).trans ?_)
      rw [seen]
      split <;> rfl

theorem Kept.step (hk : b.Kept h) (op : Op) : (b.step op).2.Kept (b.seen op ++ h) := by
  have hreg := hk.registered_step op
  by_cases hop : op = .connect
  · subst hop
    refine ⟨hk.sound.connect, hreg, ?_, ?_⟩
    · intro id hid
      rcases List.mem_cons.1 hid with rfl | hid
      · exact Nat.lt_succ_self _
      · exact Nat.lt_succ_of_lt (hk.given id hid)
    · exact List.nodup_cons.2 ⟨fun hmem => Nat.lt_irrefl _ (hk.given _ hmem), hk.nodup⟩
  · have hsame : numbersGiven (b.seen op ++ h) = numbersGiven h := by
      refine numbersGiven_append (fun e he id => ?_) h
      cases op with
      | connect => exact absurd rfl hop
      | disconnect i => rw [List.mem_singleton.1 he]; simp
      | publish data => rw [List.mem_singleton.1 he]; simp
      | _ =>
          rw [seen] at he
          split at he
          · rw [List.mem_singleton.1 he]; simp
          · cases he
    refine ⟨hk.sound.step op, hreg, ?_, hsame ▸ hk.nodup⟩
    rw [hsame]
    exact fun id hid => Nat.lt_of_lt_of_le (hk.given id hid) (nextId_step b op)

theorem Kept.run (hk : b.Kept h) (ops : List Op) : (b.run ops).Kept (log h b ops) := by
  induction ops generalizing b h with
  | nil => exact hk
  | cons op ops ih => exact ih (hk.step op)

theorem kept_new (depth : Nat) : (Broadcast.new depth).Kept [] :=
  ⟨.new depth, fun _ => rfl, fun _ hid => absurd hid List.not_mem_nil, List.nodup_nil⟩

/-- **A broadcast tells the truth** after a history. -/
structure Truthful (b : Broadcast) (h : List Event) : Prop where
  /-- The flag says whether the table has anybody in it. -/
  flag : b.connected = true ↔ b.table ≠ []
  /-- No two viewers ever got the same number. -/
  numbers : (numbersGiven h).Nodup
  /-- Nobody is in the table twice. -/
  single : (b.table.map (·.id)).Nodup
  /-- Those who stay are in the table, and no others. -/
  present : ∀ id, id ∈ b.table.map (·.id) ↔ Stays id h
  /-- Whoever is disconnected or let go leaves the table, and nobody else does. -/
  leaves : ∀ id, (b.disconnect id).table = b.table.filter (·.id != id) ∧
    (b.drop id).2.table = b.table.filter (·.id != id)
  /-- A viewer that is disconnected and let go later on, whatever comes in between, takes nobody
  with it. -/
  leavesOnce : ∀ id ∈ numbersGiven h, ∀ ops,
    (((b.disconnect id).run ops).drop id).2.table = ((b.disconnect id).run ops).table

/-- **The flag and the table tell the truth** after any sequence of operations. -/
theorem connected_flag_tells_the_truth (depth : Nat) (ops : List Op) :
    ((Broadcast.new depth).run ops).Truthful (log [] (Broadcast.new depth) ops) := by
  have hk := (kept_new depth).run ops
  refine ⟨hk.sound.connected_iff, hk.nodup, hk.sound.nodup_table, fun id => ?_,
    fun id => ⟨table_disconnect _ id, table_drop _ id⟩, fun id hid later => ?_⟩
  · rw [hk.sound.mem_table_iff, hk.registered, registeredIn_iff]
  · rw [table_drop]
    refine List.filter_eq_self.2 fun v hv => ?_
    have hb := hk.sound.disconnect id
    have hgone : (((Broadcast.new depth).run ops).disconnect id).isRegistered id = false := by
      rw [isRegistered_disconnect, bne_self_eq_false, Bool.false_and]
    have hnext : id < (((Broadcast.new depth).run ops).disconnect id).nextId := by
      rw [Broadcast.disconnect, nextId_settle]
      exact hk.given id hid
    have hstill := isRegistered_run hb hnext hgone later
    rw [bne_iff_ne]
    rintro rfl
    have hmem := (hb.run later).mem_table_iff.1 (List.mem_map_of_mem hv)
    rw [hstill] at hmem
    cases hmem

end Broadcast

end DeviceGateway
