import DeviceGateway.Proofs.Call.PoolLookup
import DeviceGateway.Proofs.Server.Steps

/-!
# Connections that go on

As long as the caller stays, the gateway is not told to stop, and no number is used twice, the loop
of a connection does not leave (`Running`): every step of the loop, of the writer and of the calls
keeps it going. The calls that are there have been accepted, one at a time
(`contains_of_read`, `contains_of_inside`).
-/

namespace DeviceGateway

/-! ## The outbox -/

/-- An outbox is as open and as large as another one. -/
def Outbox.Alike (b b' : Outbox) : Prop := b'.isOpen = b.isOpen ∧ b'.capacity = b.capacity

theorem Outbox.alike_of_put? {b b' : Outbox} {f : Frame} (h : b.put? f = some (.ok b')) :
    b.Alike b' := by
  obtain ⟨-, -, rfl⟩ := put?_eq_ok_iff.1 h
  exact ⟨rfl, rfl⟩

theorem Call.Advance.alike {ω σ : Type} {c c' : Call ω σ} {b b' : Outbox}
    (ha : Advance c b c' b') : b.Alike b' := by
  cases ha with
  | worked hl hs hb =>
      rcases hb with rfl | ⟨f, -, -, hput⟩
      · exact ⟨rfl, rfl⟩
      · exact Outbox.alike_of_put? hput
  | refused e hr hs hb =>
      rw [hb]
      exact ⟨rfl, rfl⟩
  | told result hr hs ht =>
      cases ht with
      | sent f hf hput => exact Outbox.alike_of_put? hput
      | closed f hf _ hb =>
          rw [hb]
          exact ⟨rfl, rfl⟩
      | tooLarge e hf hb =>
          rw [hb]
          exact ⟨rfl, rfl⟩

/-- A step of the pool leaves alone whether all calls are withdrawn, and what the outbox is like. -/
theorem Pool.Step.alike {ω σ : Type} {h : Handler ω σ} {p p' : Pool ω σ} {s s' : Shared ω}
    {m : Pool.Move} (hp : Pool.Step h p s m p' s') :
    p'.allWithdrawn = p.allWithdrawn ∧ s.outbox.Alike s'.outbox := by
  cases hp with
  | poll _ hp => exact ⟨rfl, (Call.advances_of_poll? hp).2.2.alike⟩
  | carry _ hp => exact ⟨rfl, (Call.advances_of_carry? hp).2.2.alike⟩
  | expire _ hp => exact ⟨rfl, (Call.advances_of_expire? hp).2.2.alike⟩
  | report _ _ _ => exact ⟨rfl, rfl, rfl⟩
  | orphan _ => exact ⟨rfl, rfl, rfl⟩

theorem Call.Advance.queue {ω σ : Type} {c c' : Call ω σ} {b b' : Outbox}
    (ha : Advance c b c' b') : ∃ new, b'.queue = b.queue ++ new ∧ ∀ f ∈ new, f.callId = c.id := by
  have none : b' = b → ∃ new, b'.queue = b.queue ++ new ∧ ∀ f ∈ new, f.callId = c.id := by
    rintro rfl
    exact ⟨[], (List.append_nil _).symm, nofun⟩
  have one : ∀ {f : Frame}, f.callId = c.id → b.put? f = some (.ok b') →
      ∃ new, b'.queue = b.queue ++ new ∧ ∀ f ∈ new, f.callId = c.id := by
    intro f hid hput
    obtain ⟨-, -, rfl⟩ := Outbox.put?_eq_ok_iff.1 hput
    refine ⟨[f], rfl, fun g hg => ?_⟩
    rw [List.mem_singleton.1 hg]
    exact hid
  cases ha with
  | worked hl hs hb =>
      rcases hb with hb | ⟨f, -, hid, hput⟩
      · exact none hb
      · exact one hid hput
  | refused e hr hs hb => exact none hb
  | told result hr hs ht =>
      cases ht with
      | sent f hf hput => exact one (Frame.of_make hf).2.1 hput
      | closed f hf _ hb => exact none hb
      | tooLarge e hf hb => exact none hb

/-- **What a step of the pool puts into the outbox** are frames of the call that takes the step. -/
theorem Pool.Step.queue {ω σ : Type} {h : Handler ω σ} {p p' : Pool ω σ} {s s' : Shared ω}
    {m : Pool.Move} (hp : Pool.Step h p s m p' s') :
    ∃ new, s'.outbox.queue = s.outbox.queue ++ new ∧
      ∀ f ∈ new, m.caller? = some f.callId ∧ p.contains f.callId = true := by
  have said : ∀ {id : UInt64} {c c' : Call ω σ}, p.call? id = some c → m.caller? = some id →
      Call.Advance c s.outbox c' s'.outbox → ∃ new, s'.outbox.queue = s.outbox.queue ++ new ∧
        ∀ f ∈ new, m.caller? = some f.callId ∧ p.contains f.callId = true := by
    intro id c c' hc hm ha
    obtain ⟨new, hq, hnew⟩ := ha.queue
    refine ⟨new, hq, fun f hf => ?_⟩
    have hid : f.callId = id := (hnew f hf).trans (Pool.id_of_call? hc)
    rw [hid, Pool.contains, hc]
    exact ⟨hm, rfl⟩
  cases hp with
  | poll hc hp => exact said hc rfl (Call.advances_of_poll? hp).2.2
  | carry hc hp => exact said hc rfl (Call.advances_of_carry? hp).2.2
  | expire hc hp => exact said hc rfl (Call.advances_of_expire? hp).2.2
  | report | orphan => exact ⟨[], (List.append_nil _).symm, fun _ hf => absurd hf List.not_mem_nil⟩

namespace Connection

variable {ω σ : Type} {s : Server ω σ} {c c' : Connection ω σ}

/-! ## Who is there -/

/-- What the connection puts into the outbox comes from its calls, or refuses one. -/
theorem Step.queue {m : Move} (hstep : Step s c m c') (hm : m.isInside = true) :
    ∃ new, c'.shared.outbox.queue = c.shared.outbox.queue ++ new ∧
      ∀ f ∈ new, c.stage = .rejecting f ∨ c.pool.contains f.callId = true := by
  have none : ∃ new, c.shared.outbox.queue = c.shared.outbox.queue ++ new ∧
      ∀ f ∈ new, c.stage = .rejecting f ∨ c.pool.contains f.callId = true :=
    ⟨[], (List.append_nil _).symm, nofun⟩
  cases hstep with
  | @answer g outbox hs hput =>
      obtain ⟨-, -, rfl⟩ := Outbox.put?_eq_ok_iff.1 hput
      refine ⟨[g], rfl, fun f hf => .inl ?_⟩
      rw [List.mem_singleton.1 hf]
      exact hs
  | pool hp =>
      obtain ⟨new, hq, hnew⟩ := hp.queue
      exact ⟨new, hq, fun f hf => .inr (hnew f hf).2⟩
  | notice | heed | feed | unheard | tear | torn | join | flush => exact none
  | _ => cases hm

theorem contains_of_inside {m : Move} (hstep : Step s c m c') (hm : m.isInside = true)
    {id : UInt64} (hc : c'.pool.contains id = true) : c.pool.contains id = true := by
  cases hstep with
  | notice _ hn =>
      rw [Pool.contains, Pool.call?_notice hn] at hc
      split at hc
      · cases hc
      · exact hc
  | feed _ hf =>
      rw [Pool.contains_eq, Pool.standing?_feed? hf, ← Pool.contains_eq] at hc
      exact hc
  | tear _ =>
      rw [Pool.contains_eq, Pool.standing?_tear, ← Pool.contains_eq] at hc
      exact hc
  | pool hp =>
      rw [← Pool.mem_numbers_iff] at hc ⊢
      rwa [Pool.numbers_of_step hp] at hc
  | heed | answer | unheard | torn | join | flush => exact hc
  | _ => cases hm

/-- **Reading a frame accepts a call at most**, and under a number that was free. -/
theorem contains_of_read {f : Frame} {rest : Bytes}
    (hd : Frame.decode s.checksum c.unread = .frame f rest) (hstep : Step s c .read c') {id : UInt64}
    (hc : c'.pool.contains id = true) :
    c.pool.contains id = true ∨ f.kind = .call ∧ f.callId = id := by
  cases hstep with
  | readFault _ hd' | readEnd _ hd' =>
      rw [hd] at hd'
      cases hd'
  | accept _ hd' hk _ hl =>
      rw [hd] at hd'
      cases hd'
      rw [Pool.contains, Pool.call?_spawn hl] at hc
      split at hc
      · next heq => exact .inr ⟨hk, heq.symm⟩
      · exact .inl hc
  | halfClose =>
      rw [Pool.contains_eq, Pool.standing?_halfClose, ← Pool.contains_eq] at hc
      exact .inl hc
  | cancel =>
      rw [Pool.contains_eq, Pool.standing?_cancel, ← Pool.contains_eq] at hc
      exact .inl hc
  | _ => exact .inl hc

/-- Reading touches neither the world nor the outbox. -/
theorem Step.shared_read (hstep : Step s c .read c') : c'.shared = c.shared := by
  cases hstep <;> rfl

/-- No step but reading makes the loop wait in the middle of a frame. -/
theorem Step.waiting_inside {m : Move} (hstep : Step s c m c') (hm : m.isInside = true) :
    (∀ id message, c'.stage = .feeding id message → c.stage = .feeding id message) ∧
      ∀ f, c'.stage = .rejecting f → c.stage = .rejecting f := by
  cases hstep with
  | notice | pool => exact ⟨fun _ _ h => h, fun _ h => h⟩
  | feed | answer | unheard | heed | tear | torn | join | flush => exact ⟨nofun, nofun⟩
  | _ => cases hm

/-- What the loop waits for after it has read a frame is about that frame. -/
theorem Step.waiting_read {f : Frame} {rest : Bytes} (hstep : Step s c .read c')
    (hd : Frame.decode s.checksum c.unread = .frame f rest) :
    (∀ id message, c'.stage = .feeding id message → f.callId = id) ∧
      ∀ g, c'.stage = .rejecting g → g.callId = f.callId := by
  have serving : c.stage = .serving → (∀ id message, c.stage = .feeding id message →
      f.callId = id) ∧ ∀ g, c.stage = .rejecting g → g.callId = f.callId := by
    intro hs
    rw [hs]
    exact ⟨nofun, nofun⟩
  cases hstep with
  | readFault _ hd' | readEnd _ hd' =>
      rw [hd] at hd'
      cases hd'
  | refuse _ hd' _ _ hg =>
      rw [hd] at hd'
      cases hd'
      refine ⟨nofun, fun g h => ?_⟩
      cases h
      exact (Frame.of_make hg).2.1
  | message _ hd' =>
      rw [hd] at hd'
      cases hd'
      refine ⟨fun id message h => ?_, nofun⟩
      cases h
      rfl
  | duplicate => exact ⟨nofun, nofun⟩
  | accept hs | halfClose hs | cancel hs | status hs => exact serving hs

/-! ## Going on -/

/-- **The loop goes on**, and the writer with it. -/
structure Running (c : Connection ω σ) : Prop where
  sound : c.Sound
  going : c.leaving? = none
  stays : c.pool.allWithdrawn = false
  isOpen : c.shared.outbox.isOpen = true
  capacity : c.shared.outbox.capacity = outboxCapacity
  deaf : c.pool.Deaf

theorem running_start (world : ω) : (start world : Connection ω σ).Running :=
  ⟨sound_start world, rfl, rfl, rfl, rfl, nofun⟩

namespace Running

theorem inside (h : c.Running) {m : Move} (hm : m.isInside = true) (hstep : Step s c m c') :
    c'.Running := by
  have hsound := h.sound.step hstep
  have going : ∀ {stage : LoopStage}, c.stage = stage →
      { c with stage := stage }.leaving? = none := by
    rintro stage rfl
    exact h.going
  cases hstep with
  | @notice id pool hs hn =>
      refine ⟨hsound, h.going, ?_, h.isOpen, h.capacity, ?_⟩
      · obtain ⟨rest, -, rfl⟩ := Pool.notice?_eq_some_iff.1 hn
        exact h.stays
      · intro i call hcall
        rw [Pool.call?_notice hn] at hcall
        split at hcall
        · cases hcall
        · exact h.deaf _ _ hcall
  | heed _ hw =>
      rw [h.stays] at hw
      cases hw
  | @feed id m pool hs hf =>
      have hstays := (Pool.allWithdrawn_feed? hf).trans h.stays
      exact ⟨hsound, rfl, hstays, h.isOpen, h.capacity, h.deaf.feed? hf⟩
  | answer hs hput =>
      obtain ⟨ho, hcap⟩ := Outbox.alike_of_put? hput
      exact ⟨hsound, rfl, h.stays, ho.trans h.isOpen, hcap.trans h.capacity, h.deaf⟩
  | unheard hs hc =>
      rw [h.isOpen] at hc
      cases hc
  | tear hs | torn hs | join hs | flush hs => cases going hs
  | pool hp =>
      obtain ⟨hw, ho, hcap⟩ := hp.alike
      exact ⟨hsound, h.going, hw.trans h.stays, ho.trans h.isOpen, hcap.trans h.capacity,
        h.deaf.step hp⟩
  | _ => cases hm

/-- **The loop reads a frame** that does not use a number twice. -/
theorem read (h : c.Running) {f : Frame} {rest : Bytes}
    (hd : Frame.decode s.checksum c.unread = .frame f rest)
    (hfree : f.kind = .call → c.pool.contains f.callId = false) (hstep : Step s c .read c') :
    c'.Running := by
  have hsound := h.sound.step hstep
  cases hstep with
  | readFault _ hd' | readEnd _ hd' =>
      rw [hd] at hd'
      cases hd'
  | duplicate _ hd' hk _ hl =>
      rw [hd] at hd'
      cases hd'
      rw [hfree hk] at hl
      cases hl
  | refuse => exact ⟨hsound, rfl, h.stays, h.isOpen, h.capacity, h.deaf⟩
  | @accept _ _ r pool hs _ _ _ hl =>
      refine ⟨hsound, h.going, ?_, h.isOpen, h.capacity, ?_⟩
      · obtain ⟨-, rfl⟩ := Pool.spawn_eq_ok_iff.1 hl
        exact h.stays
      · intro i call hcall
        rw [Pool.call?_spawn hl] at hcall
        split at hcall
        · cases hcall
          cases s.accept r <;> exact Call.deaf_of_live rfl
        · exact h.deaf _ _ hcall
  | message => exact ⟨hsound, rfl, h.stays, h.isOpen, h.capacity, h.deaf⟩
  | halfClose =>
      exact ⟨hsound, h.going, h.stays, h.isOpen, h.capacity,
        h.deaf.modify _ (fun _ => rfl) (fun _ => rfl) fun _ => rfl⟩
  | cancel =>
      exact ⟨hsound, h.going, h.stays, h.isOpen, h.capacity,
        h.deaf.modify _ (fun _ => rfl) (fun _ => rfl) fun _ => rfl⟩
  | status => exact ⟨hsound, h.going, h.stays, h.isOpen, h.capacity, h.deaf⟩

end Running

end Connection

end DeviceGateway
