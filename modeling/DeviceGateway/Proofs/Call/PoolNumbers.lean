import DeviceGateway.Proofs.Call.PoolSteps
import Mathlib.Data.List.Nodup
import Mathlib.Data.List.Perm.Basic

/-!
# The numbers of the calls of a pool

No two calls of a pool have the same number (`Numbered`), so a call is found by its number exactly
when it is there (`call?_eq_some_iff`). A pool that is kept well then has as many reports waiting as
calls that are gone (`length_events`). A step of a pool keeps all numbers, and leaves alone whether
calls are withdrawn and whether their messages have ended.
-/

namespace DeviceGateway

/-! ## What the steps of a call leave alone -/

namespace Call

variable {ω σ : Type} {h : Handler ω σ}

/-- What is decided by others than the call itself: whether it is withdrawn, and whether messages
may still come for it. -/
def SameOutside (c c' : Call ω σ) : Prop :=
  c'.withdrawn = c.withdrawn ∧ c'.inbox.sending = c.inbox.sending

theorem sameOutside_conclude (c : Call ω σ) (result : Except GatewayError Unit) :
    SameOutside c (c.conclude result) := ⟨rfl, rfl⟩

theorem Rests.sameOutside {c c' : Call ω σ} {s s' : Shared ω} (hr : Rests h c s c' s') :
    SameOutside c c' := by
  cases hr <;> exact ⟨rfl, rfl⟩

theorem Resumes.sameOutside {c k : Call ω σ} {s t : Shared ω} {j : Job ω σ} {allWithdrawn : Bool}
    (hres : Resumes h allWithdrawn c s k t j) : SameOutside c k := by
  cases hres with
  | received _ _ htake => exact ⟨rfl, Inbox.sending_take? htake⟩
  | started | carried | sent | answered | withdrawn | deafened => exact ⟨rfl, rfl⟩

theorem sameOutside_of_poll? {c c' : Call ω σ} {s s' : Shared ω} {allWithdrawn : Bool}
    (hp : c.poll? h allWithdrawn s = some (c', s')) : SameOutside c c' := by
  cases polls_of_poll? hp with
  | dropped | finished | refused => exact sameOutside_conclude c _
  | resumed _ hres hr =>
      have hkept := hres.sameOutside
      have hleft := (rests_of_resume hr).sameOutside
      exact ⟨hleft.1.trans hkept.1, hleft.2.trans hkept.2⟩
  | told => exact ⟨rfl, rfl⟩

theorem sameOutside_of_carry? {c c' : Call ω σ} {s s' : Shared ω}
    (hp : c.carry? s = some (c', s')) : SameOutside c c' := by
  obtain ⟨effect, release, next, -, rfl, -⟩ := carry?_eq_some_iff.1 hp
  exact ⟨rfl, rfl⟩

theorem sameOutside_of_expire? {c c' : Call ω σ} {s s' : Shared ω}
    (hp : c.expire? h s = some (c', s')) : SameOutside c c' := by
  obtain ⟨state, limit, next, -, -, hr⟩ := expire?_eq_some_iff.1 hp
  exact (rests_of_resume hr).sameOutside

end Call

/-! ## Numbers -/

namespace Pool

variable {ω σ : Type} {h : Handler ω σ} {p p' : Pool ω σ} {s s' : Shared ω}

/-- The numbers of the calls, in the order in which they were accepted. -/
def numbers (p : Pool ω σ) : List UInt64 := p.calls.map (·.id)

/-- **No two calls have the same number.** -/
def Numbered (p : Pool ω σ) : Prop := p.numbers.Nodup

theorem length_numbers (p : Pool ω σ) : p.numbers.length = p.size := List.length_map _

theorem call?_eq_some_iff (hn : p.Numbered) {id : UInt64} {c : Call ω σ} :
    p.call? id = some c ↔ c ∈ p.calls ∧ c.id = id := by
  constructor
  · intro hc
    exact ⟨List.mem_of_find?_eq_some hc, id_of_call? hc⟩
  · rintro ⟨hm, rfl⟩
    have hsome : (p.call? c.id).isSome = true := by
      rw [call?, List.find?_isSome]
      exact ⟨c, hm, beq_self_eq_true _⟩
    obtain ⟨d, hd⟩ := Option.isSome_iff_exists.1 hsome
    have heq := List.inj_on_of_nodup_map hn (List.mem_of_find?_eq_some hd) hm (id_of_call? hd)
    rwa [heq] at hd

theorem mem_numbers_iff {id : UInt64} : id ∈ p.numbers ↔ p.contains id = true := by
  rw [contains, call?, List.find?_isSome, numbers, List.mem_map]
  simp only [beq_iff_eq]

theorem numbers_map {g : Call ω σ → Call ω σ} (hg : ∀ c, (g c).id = c.id)
    (hp : p'.calls = p.calls.map g) : p'.numbers = p.numbers := by
  rw [numbers, hp, List.map_map, numbers]
  exact List.map_congr_left fun c _ => hg c

theorem numbers_modify (p : Pool ω σ) (id : UInt64) {f : Call ω σ → Call ω σ}
    (hf : ∀ c, (f c).id = c.id) : (p.modify id f).numbers = p.numbers := by
  refine numbers_map (fun c => ?_) rfl
  split
  · exact hf c
  · rfl

@[simp] theorem numbers_halfClose (p : Pool ω σ) (id : UInt64) :
    (p.halfClose id).numbers = p.numbers := numbers_modify p id fun _ => rfl

@[simp] theorem numbers_cancel (p : Pool ω σ) (id : UInt64) :
    (p.cancel id).numbers = p.numbers := numbers_modify p id fun _ => rfl

@[simp] theorem numbers_tear (p : Pool ω σ) (t : TeardownStep) : (p.tear t).numbers = p.numbers := by
  cases t with
  | endMessages id => exact numbers_halfClose p id
  | withdraw id => exact numbers_cancel p id

@[simp] theorem numbers_replace (p : Pool ω σ) (c : Call ω σ) :
    (p.replace c).numbers = p.numbers := by
  refine numbers_map (fun d => ?_) rfl
  split
  · next hd => exact hd.symm
  · rfl

theorem numbers_feed? {id : UInt64} {m : Bytes} (hp : p.feed? id m = some p') :
    p'.numbers = p.numbers := by
  cases feeds_of_feed? hp with
  | unknown => rfl
  | taken => exact numbers_replace _ _

theorem numbers_of_step {m : Move} (hp : Step h p s m p' s') : p'.numbers = p.numbers := by
  cases hp with
  | poll | carry | expire => exact numbers_replace _ _
  | report => exact numbers_replace _ _
  | orphan => rfl

theorem numbers_spawn {id : UInt64} {sup : Bool} {stage : CallStage ω σ}
    (hp : p.spawn id sup stage = .ok p') : p'.numbers = p.numbers ++ [id] := by
  obtain ⟨-, rfl⟩ := spawn_eq_ok_iff.1 hp
  exact List.map_append

theorem Numbered.spawn (hn : p.Numbered) {id : UInt64} {sup : Bool} {stage : CallStage ω σ}
    (hp : p.spawn id sup stage = .ok p') : p'.Numbered := by
  have hfree := (spawn_eq_ok_iff.1 hp).1
  rw [Numbered, numbers_spawn hp]
  refine List.nodup_append.2 ⟨hn, List.nodup_singleton _, ?_⟩
  intro i hi j hj
  rw [List.mem_singleton] at hj
  rintro rfl
  rw [hj, mem_numbers_iff, hfree] at hi
  cases hi

theorem Numbered.notice (hn : p.Numbered) {id : UInt64} (hp : p.notice? = some (id, p')) :
    p'.Numbered := by
  obtain ⟨rest, -, rfl⟩ := notice?_eq_some_iff.1 hp
  exact hn.sublist (List.filter_sublist.map _)

/-! ## Calls after a step -/

/-- The calls after a replacement are the new one and some of the old. -/
theorem mem_replace {c d : Call ω σ} (hd : d ∈ (p.replace c).calls) :
    d ∈ p.calls ∨ d = c ∧ ∃ e ∈ p.calls, e.id = c.id := by
  obtain ⟨e, he, heq⟩ := List.mem_map.1 hd
  split at heq
  · next hid => exact Or.inr ⟨heq.symm, e, he, hid⟩
  · exact Or.inl (heq ▸ he)

theorem mem_of_call? {id : UInt64} {c : Call ω σ} (hc : p.call? id = some c) : c ∈ p.calls :=
  List.mem_of_find?_eq_some hc

/-- Handing over a message decides nothing about a call. -/
theorem mem_of_feed? {id : UInt64} {m : Bytes} (hp : p.feed? id m = some p') {d : Call ω σ}
    (hd : d ∈ p'.calls) : ∃ c ∈ p.calls, c.id = d.id ∧ c.SameOutside d := by
  cases feeds_of_feed? hp with
  | unknown => exact ⟨d, hd, rfl, rfl, rfl⟩
  | @taken c inbox hc hput =>
      rcases mem_replace hd with hd | ⟨rfl, -⟩
      · exact ⟨d, hd, rfl, rfl, rfl⟩
      · exact ⟨c, mem_of_call? hc, rfl, rfl, Inbox.sending_put? hput⟩

/-- **After a step of the pool the calls are the same**, and what is decided by others than the
calls themselves has not changed. -/
theorem mem_of_step {m : Move} (hp : Step h p s m p' s') {d : Call ω σ} (hd : d ∈ p'.calls) :
    ∃ c ∈ p.calls, c.id = d.id ∧ c.SameOutside d := by
  have replaced : ∀ {id : UInt64} {c : Call ω σ} (c' : Call ω σ), p.call? id = some c →
      c'.id = c.id → c.SameOutside c' → d ∈ (p.replace c').calls →
      ∃ c ∈ p.calls, c.id = d.id ∧ c.SameOutside d := by
    intro id c c' hc hid hsame hd
    rcases mem_replace hd with hd | ⟨rfl, -⟩
    · exact ⟨d, hd, rfl, rfl, rfl⟩
    · exact ⟨c, mem_of_call? hc, hid.symm, hsame⟩
  cases hp with
  | poll hc hp =>
      exact replaced _ hc (Call.advances_of_poll? hp).1 (Call.sameOutside_of_poll? hp) hd
  | carry hc hp =>
      exact replaced _ hc (Call.advances_of_carry? hp).1 (Call.sameOutside_of_carry? hp) hd
  | expire hc hp =>
      exact replaced _ hc (Call.advances_of_expire? hp).1 (Call.sameOutside_of_expire? hp) hd
  | @report id c hc hs hroom => exact replaced { c with stage := .gone } hc rfl ⟨rfl, rfl⟩ hd
  | orphan ho => exact ⟨d, hd, rfl, rfl, rfl⟩

/-- A call decides neither its withdrawal nor the end of its messages. -/
theorem Acts.sameOutside {id : UInt64} {c c' : Call ω σ} {m : Move}
    (ha : Acts h p s id c m c' s') : c.SameOutside c' := by
  cases ha with
  | poll hp => exact Call.sameOutside_of_poll? hp
  | carry hp => exact Call.sameOutside_of_carry? hp
  | expire hp hw => exact Call.sameOutside_of_expire? hp
  | report hs => exact ⟨rfl, rfl⟩

/-! ## Reports -/

/-- How many calls are gone. -/
def goneCount (p : Pool ω σ) : Nat := p.calls.countP (·.stage.isGone)

theorem isGone_iff {stage : CallStage ω σ} : stage.isGone = true ↔ stage = .gone := by
  cases stage <;> simp [CallStage.isGone]

/-- **As many reports wait as calls are gone.** -/
theorem length_events (hk : p.WellKept) (hn : p.Numbered) : p.events.length = p.goneCount := by
  have hgone : ((p.calls.filter (·.stage.isGone)).map (·.id)).Nodup :=
    hn.sublist (List.filter_sublist.map _)
  have hperm : p.events.Perm ((p.calls.filter (·.stage.isGone)).map (·.id)) := by
    rw [List.perm_ext_iff_of_nodup hk.nodup hgone]
    intro id
    rw [hk.reported, List.mem_map]
    constructor
    · rintro ⟨sup, hs⟩
      obtain ⟨c, hc, hstands⟩ := Option.map_eq_some_iff.1 hs
      rw [Prod.mk.injEq] at hstands
      obtain ⟨hm, hid⟩ := (call?_eq_some_iff hn).1 hc
      exact ⟨c, List.mem_filter.2 ⟨hm, isGone_iff.2 hstands.2⟩, hid⟩
    · rintro ⟨c, hm, hid⟩
      obtain ⟨hm, hg⟩ := List.mem_filter.1 hm
      have hc := (call?_eq_some_iff hn).2 ⟨hm, hid⟩
      exact ⟨c.supervised, by rw [standing?_of_call? hc, isGone_iff.1 hg]⟩
  rw [hperm.length_eq, List.length_map, goneCount, List.countP_eq_length_filter]

/-- With fewer calls gone than there are, some call is not gone. -/
theorem exists_not_gone (hlt : p.goneCount < p.size) :
    ∃ c ∈ p.calls, c.stage.isGone = false := by
  by_contra hall
  push Not at hall
  have heq : p.goneCount = p.calls.length :=
    List.countP_eq_length.2 fun c hc => eq_true_of_ne_false (hall c hc)
  rw [heq] at hlt
  exact absurd hlt (Nat.lt_irrefl _)

theorem goneCount_lt_of_mem {c : Call ω σ} (hm : c ∈ p.calls) (hg : c.stage.isGone = false) :
    p.goneCount < p.size := by
  refine Nat.lt_of_le_of_ne List.countP_le_length fun heq => ?_
  rw [List.countP_eq_length.1 heq c hm] at hg
  cases hg

end Pool

end DeviceGateway
