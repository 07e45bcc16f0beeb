import DeviceGateway.Proofs.Limiter.Solvency

/-!
# Fractions of a token

A refill puts in whole tokens and starts the clock again at the instant of the request. So the time
that made no whole token is kept for as long as nothing at all is gained, and dropped by the first
refill that gains something. Counted in thousandths of a token nothing else is lost
(`account_of_run`): what was given out, what the bucket holds, what its refills dropped and what
its clock still has pending are together the start and the time since then at the rate. How often
the bucket is asked does not matter, only where its refills fall: time is kept exactly as long as
what they dropped and what is pending are less than one token (`time_is_kept_iff`).
-/

namespace DeviceGateway.TokenBucket

/-- What the time since the last refill is worth, in thousandths of a token. -/
def pending (b : TokenBucket) (now : Int) : Nat := b.rate * wholeMillis b.lastRefill now

/-- **What a refill drops**, in thousandths of a token: what was pending, less the whole tokens that
are put in. A refill that gains nothing leaves the clock alone and drops nothing. -/
def dropped (b : TokenBucket) (now : Int) : Nat :=
  if 0 < b.gained now then b.pending now - 1000 * b.gained now else 0

/-- What the refill for a request drops. There is none if the tokens suffice. -/
def droppedBy (b : TokenBucket) (r : Request) : Nat :=
  if b.tokens < r.permits then b.dropped r.instant else 0

/-- **What all refills of a run drop.** -/
def totalDropped : TokenBucket → List Request → Nat
  | _, [] => 0
  | b, r :: rs => b.droppedBy r + totalDropped (b.next r) rs

/-- **No refill of a run is cut off by the capacity**: each puts in all that it gained. -/
def Uncut : TokenBucket → List Request → Prop
  | _, [] => True
  | b, r :: rs =>
    (b.tokens < r.permits → b.tokens + b.gained r.instant ≤ b.capacity) ∧ Uncut (b.next r) rs

/-- **An instant in whole milliseconds** from another one. -/
def IsWhole (start t : Int) : Prop := (t - start) % 1000000 = 0

instance decidableUncut : (b : TokenBucket) → (rs : List Request) → Decidable (b.Uncut rs)
  | _, [] => inferInstanceAs (Decidable True)
  | b, r :: rs =>
    have := decidableUncut (b.next r) rs
    inferInstanceAs (Decidable (_ ∧ _))

instance (start t : Int) : Decidable (IsWhole start t) := inferInstanceAs (Decidable (_ = _))

variable {b : TokenBucket} {r : Request} {rs : List Request} {start s t u : Int}

/-! ## One refill -/

theorem IsWhole.between (hs : IsWhole start s) (ht : IsWhole start t) : IsWhole s t := by
  unfold IsWhole at *
  omega

/-- In whole milliseconds nothing is lost where two intervals meet. -/
theorem wholeMillis_add (hu : IsWhole s u) (hsu : s ≤ u) (hut : u ≤ t) :
    wholeMillis s u + wholeMillis u t = wholeMillis s t := by
  unfold IsWhole at hu
  unfold wholeMillis
  omega

theorem lastRefill_refill (b : TokenBucket) (u : Int) :
    (b.refill u).lastRefill = b.lastRefill ∨ (b.refill u).lastRefill = u := by
  unfold refill
  split
  · exact Or.inr rfl
  · exact Or.inl rfl

/-- The gain is never more than what was pending. -/
theorem gained_le_pending (b : TokenBucket) (u : Int) : 1000 * b.gained u ≤ b.pending u :=
  Nat.mul_comm _ _ ▸ (Nat.le_div_iff_mul_le (by decide)).1 (gained_le b u)

/-- Less than a token is pending when nothing is gained. -/
theorem pending_lt_of_gained_zero (h : b.gained u = 0) : b.pending u < 1000 := by
  have hword : 1000 ≤ maxWord := by decide
  have hproduct : elapsedMillis b.lastRefill u * b.rate < 1000 := by
    unfold gained at h
    omega
  rcases Nat.eq_zero_or_pos b.rate with hrate | hrate
  · rw [pending, hrate, Nat.zero_mul]
    decide
  · -- The time is short, so it was not cut down to a word.
    have hshort : elapsedMillis b.lastRefill u < 1000 :=
      Nat.lt_of_le_of_lt (Nat.le_mul_of_pos_right _ hrate) hproduct
    have hmillis : elapsedMillis b.lastRefill u = wholeMillis b.lastRefill u := by
      unfold elapsedMillis wholeMillis at *
      omega
    rwa [pending, Nat.mul_comm, ← hmillis]

/-- A second refill at once gains nothing. -/
theorem gained_refill (b : TokenBucket) (u : Int) : (b.refill u).gained u = 0 := by
  by_cases h : 0 < b.gained u
  · refine gained_zero_of_lastRefill ?_
    rw [refill, if_pos h]
  · rw [refill_of_gained_zero (b := b) (by omega)]
    omega

/-- **A refill accounts for all that was pending**, unless the capacity cuts it off. -/
theorem account_of_refill (hword : b.capacity ≤ maxWord)
    (huncut : b.tokens + b.gained u ≤ b.capacity) (hu : IsWhole b.lastRefill u) (hut : u ≤ t) :
    1000 * (b.refill u).tokens + b.dropped u + (b.refill u).pending t =
      1000 * b.tokens + b.pending t := by
  by_cases hgain : 0 < b.gained u
  · have hlast := Int.le_of_lt (lastRefill_lt_of_gained_pos hgain)
    have htokens : (b.refill u).tokens = b.tokens + b.gained u := by
      rw [refill, if_pos hgain]
      simp only
      omega
    have hdropped : b.dropped u = b.pending u - 1000 * b.gained u := if_pos hgain
    have hpending : (b.refill u).pending t = b.rate * wholeMillis u t := by
      rw [refill, if_pos hgain, pending]
    have hsplit : b.pending u + b.rate * wholeMillis u t = b.pending t := by
      rw [pending, pending, ← wholeMillis_add hu hlast hut, Nat.mul_add]
    have hle := gained_le_pending b u
    omega
  · rw [refill_of_gained_zero (by omega), dropped, if_neg hgain, Nat.add_zero]

/-! ## One request -/

theorem lastRefill_next (b : TokenBucket) (r : Request) :
    (b.next r).lastRefill = b.lastRefill ∨ (b.next r).lastRefill = r.instant := by
  rcases request_cases b r with ⟨-, -, h⟩ | ⟨-, -, -, h⟩ | ⟨-, -, -, h⟩
  · exact Or.inl (by rw [h])
  · rw [h]
    exact lastRefill_refill b r.instant
  · rw [h]
    exact lastRefill_refill b r.instant

/-- **A request accounts for what it is given**, for what is left, and for what its refill drops. -/
theorem account_of_request (hword : b.capacity ≤ maxWord)
    (huncut : b.tokens < r.permits → b.tokens + b.gained r.instant ≤ b.capacity)
    (hr : IsWhole b.lastRefill r.instant) (hrt : r.instant ≤ t) :
    1000 * (b.given r + (b.next r).tokens) + b.droppedBy r + (b.next r).pending t =
      1000 * b.tokens + b.pending t := by
  rcases request_cases b r with ⟨hle, hgiven, hnext⟩ | ⟨hfew, hle, hgiven, hnext⟩ |
    ⟨hfew, -, hgiven, hnext⟩
  · rw [droppedBy, if_neg (by omega), hgiven, hnext]
    simp only [pending]
    omega
  · have hrefill := account_of_refill hword (huncut hfew) hr hrt
    rw [droppedBy, if_pos hfew, hgiven, hnext]
    simp only [pending] at hrefill ⊢
    omega
  · have hrefill := account_of_refill hword (huncut hfew) hr hrt
    rw [droppedBy, if_pos hfew, hgiven, hnext, Nat.zero_add]
    exact hrefill

/-! ## A run of requests -/

theorem totalDropped_append (b : TokenBucket) (rs rs' : List Request) :
    b.totalDropped (rs ++ rs') = b.totalDropped rs + (b.after rs).totalDropped rs' := by
  induction rs generalizing b with
  | nil => exact (Nat.zero_add _).symm
  | cons r rs ih =>
      rw [List.cons_append, totalDropped, totalDropped, after_cons, ih, Nat.add_assoc]

theorem uncut_append (b : TokenBucket) (rs rs' : List Request) :
    b.Uncut (rs ++ rs') ↔ b.Uncut rs ∧ (b.after rs).Uncut rs' := by
  induction rs generalizing b with
  | nil => exact ⟨fun h => ⟨trivial, h⟩, And.right⟩
  | cons r rs ih =>
      rw [List.cons_append, Uncut, Uncut, after_cons, ih, and_assoc]

/-- The clock stands in whole milliseconds from the start if it is only asked there. -/
theorem isWhole_after (hb : IsWhole start b.lastRefill) (hrs : ∀ r ∈ rs, IsWhole start r.instant) :
    IsWhole start (b.after rs).lastRefill := by
  induction rs generalizing b with
  | nil => exact hb
  | cons r rs ih =>
      refine ih (b := b.next r) ?_ fun q hq => hrs q (List.mem_cons_of_mem _ hq)
      rcases lastRefill_next b r with h | h
      · rwa [h]
      · rw [h]
        exact hrs r List.mem_cons_self

/-- **The account of a run**, in thousandths of a token. Every request lies in whole milliseconds
from the start, and none is later than the instant up to which the clock is read. -/
theorem account_of_run (hword : b.capacity ≤ maxWord) (huncut : b.Uncut rs)
    (hb : IsWhole start b.lastRefill) (hrs : ∀ r ∈ rs, IsWhole start r.instant)
    (ht : ∀ r ∈ rs, r.instant ≤ t) :
    1000 * (b.totalAdmitted rs + (b.after rs).tokens) + b.totalDropped rs + (b.after rs).pending t =
      1000 * b.tokens + b.pending t := by
  induction rs generalizing b with
  | nil => simp only [totalAdmitted, admitted, after, totalDropped, List.map_nil, List.sum_nil,
      List.foldl_nil, Nat.zero_add, Nat.add_zero]
  | cons r rs ih =>
      obtain ⟨hfirst, hrest⟩ := huncut
      have hr := hrs r List.mem_cons_self
      have hrequest := account_of_request hword hfirst (hb.between hr) (ht r List.mem_cons_self)
      have hclock : IsWhole start (b.after [r]).lastRefill :=
        isWhole_after hb fun q hq => List.mem_singleton.1 hq ▸ hr
      have hlater := ih (b := b.next r) (by rwa [next_capacity]) hrest hclock
        (fun q hq => hrs q (List.mem_cons_of_mem _ hq))
        (fun q hq => ht q (List.mem_cons_of_mem _ hq))
      rw [totalAdmitted_cons, after_cons, totalDropped]
      omega

/-! ## When time is kept -/

/-- **When the time since the start is kept.** A bucket starts full and is asked in whole
milliseconds from its start, at instants that never go back, and no refill is cut off by the
capacity. Whenever a request finds too few tokens, what the bucket holds after the refill and all
that it gave out before fall short of the start and the time since then at the rate by what its
refills dropped and by what is pending, which is less than one token. So they are those tokens,
rounded down, exactly if the refills did not drop so much that a whole token is missing. -/
theorem time_is_kept_iff (capacity rate : UInt64) (start : Int) {earlier : List Request}
    {r : Request} (hsorted : (earlier ++ [r]).Pairwise (·.instant ≤ ·.instant))
    (hwhole : ∀ q ∈ earlier ++ [r], IsWhole start q.instant)
    (huncut : (full capacity.toNat rate.toNat start).Uncut (earlier ++ [r]))
    (hfew : ((full capacity.toNat rate.toNat start).after earlier).tokens < r.permits) :
    let b := full capacity.toNat rate.toNat start
    let refilled := (b.after earlier).refill r.instant
    let kept := refilled.tokens + b.totalAdmitted earlier
    let lost := b.totalDropped (earlier ++ [r])
    let waiting := refilled.pending r.instant
    1000 * kept + (lost + waiting) =
        1000 * capacity.toNat + rate.toNat * wholeMillis start r.instant ∧
      waiting < 1000 ∧
      (kept = capacity.toNat + rate.toNat * wholeMillis start r.instant / 1000 ↔
        lost + waiting < 1000) := by
  intro b refilled kept lost waiting
  have hcapacity : (b.after earlier).capacity = capacity.toNat := after_capacity b earlier
  have hword : capacity.toNat ≤ maxWord := Nat.le_sub_one_of_lt capacity.toNat_lt
  have hearlier : ∀ q ∈ earlier, IsWhole start q.instant := fun q hq =>
    hwhole q (List.mem_append_left _ hq)
  have hr : IsWhole start r.instant := hwhole r (List.mem_append_right _ List.mem_cons_self)
  have hlast : ∀ q ∈ earlier, q.instant ≤ r.instant := fun q hq =>
    (List.pairwise_append.1 hsorted).2.2 q hq r List.mem_cons_self
  obtain ⟨hbefore, hnow, -⟩ := (uncut_append b earlier [r]).1 huncut
  have hstart : IsWhole start b.lastRefill := by
    show (start - start) % 1000000 = 0
    omega
  have hrun := account_of_run (b := b) hword hbefore hstart hearlier hlast
  have hrefill := account_of_refill (t := r.instant) (by rwa [hcapacity]) (hnow hfew)
    ((isWhole_after hstart hearlier).between hr) (Int.le_refl _)
  have hlost : lost = b.totalDropped earlier + (b.after earlier).dropped r.instant := by
    simp only [lost, totalDropped_append, totalDropped, droppedBy, Nat.add_zero]
    rw [if_pos hfew]
  have haccount : 1000 * kept + (lost + waiting) =
      1000 * capacity.toNat + rate.toNat * wholeMillis start r.instant := by
    have hbegin : b.pending r.instant = rate.toNat * wholeMillis start r.instant := rfl
    have hfull : b.tokens = capacity.toNat := rfl
    simp only [kept, waiting, refilled]
    omega
  have hwaiting : waiting < 1000 := pending_lt_of_gained_zero (gained_refill _ _)
  exact ⟨haccount, hwaiting, by omega⟩

/-- A bucket of two tokens that gains one and a half in a tenth of a second, and is asked every tenth
of a second. After two refills a whole token is missing. -/
theorem a_token_is_missing_after_two_refills :
    let b := full (2 : UInt64).toNat (15 : UInt64).toNat 0
    let earlier : List Request := [⟨2, 0⟩, ⟨1, 100000000⟩]
    let r : Request := ⟨1, 200000000⟩
    let refilled := (b.after earlier).refill r.instant
    ((earlier ++ [r]).Pairwise (·.instant ≤ ·.instant) ∧
      (∀ q ∈ earlier ++ [r], IsWhole 0 q.instant) ∧ b.Uncut (earlier ++ [r]) ∧
      (b.after earlier).tokens < r.permits) ∧
    refilled.tokens + b.totalAdmitted earlier = 4 ∧
    b.totalDropped (earlier ++ [r]) + refilled.pending r.instant = 1000 ∧
    1000 * 4 + 1000 = 1000 * 2 + 15 * wholeMillis 0 r.instant ∧
    (4 = 2 + 15 * wholeMillis 0 r.instant / 1000 ↔ 1000 < 1000) := by
  intro b earlier r refilled
  have hsorted : (earlier ++ [r]).Pairwise (·.instant ≤ ·.instant) := by decide
  have hwhole : ∀ q ∈ earlier ++ [r], IsWhole 0 q.instant := by decide
  have huncut : b.Uncut (earlier ++ [r]) := by decide
  have hfew : (b.after earlier).tokens < r.permits := by decide
  have hkept : refilled.tokens + b.totalAdmitted earlier = 4 := by decide
  have hlost : b.totalDropped (earlier ++ [r]) + refilled.pending r.instant = 1000 := by decide
  have haccount : 1000 * (refilled.tokens + b.totalAdmitted earlier) +
      (b.totalDropped (earlier ++ [r]) + refilled.pending r.instant) =
        1000 * 2 + 15 * wholeMillis 0 r.instant :=
    (time_is_kept_iff 2 15 0 hsorted hwhole huncut hfew).1
  have hiff : refilled.tokens + b.totalAdmitted earlier = 2 + 15 * wholeMillis 0 r.instant / 1000 ↔
      b.totalDropped (earlier ++ [r]) + refilled.pending r.instant < 1000 :=
    (time_is_kept_iff 2 15 0 hsorted hwhole huncut hfew).2.2
  rw [hkept, hlost] at haccount hiff
  exact ⟨⟨hsorted, hwhole, huncut, hfew⟩, hkept, hlost, haccount, hiff⟩

/-- **Time is lost by asking**, although no refill is cut off by the capacity. -/
theorem asking_loses_time :
    ¬ ∀ (capacity rate : UInt64) (start : Int) (earlier : List Request) (r : Request),
      (earlier ++ [r]).Pairwise (·.instant ≤ ·.instant) →
      (∀ q ∈ earlier ++ [r], IsWhole start q.instant) →
      (full capacity.toNat rate.toNat start).Uncut (earlier ++ [r]) →
      ((full capacity.toNat rate.toNat start).after earlier).tokens < r.permits →
      (((full capacity.toNat rate.toNat start).after earlier).refill r.instant).tokens +
          (full capacity.toNat rate.toNat start).totalAdmitted earlier =
        capacity.toNat + rate.toNat * wholeMillis start r.instant / 1000 := by
  intro h
  have hfive := h 2 15 0 [⟨2, 0⟩, ⟨1, 100000000⟩] ⟨1, 200000000⟩ (by decide) (by decide) (by decide)
    (by decide)
  exact absurd hfive (by decide)

end DeviceGateway.TokenBucket
