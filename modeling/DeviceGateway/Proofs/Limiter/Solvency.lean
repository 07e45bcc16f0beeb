import DeviceGateway.Proofs.Limiter.Bursts

/-!
# The totals of a token bucket

Requests may come in any order of their instants, and may ask for any number of tokens. Whatever
they are, the tokens stay within the capacity and the refill clock only goes forward, and what has
been given out since the start is no more than the bucket started with and gained up to the latest
instant that it was asked at (`bucket_is_solvent`). The account is again what the bucket can still
give (`worth`): each request takes what it is given out of it (`total_add_worth_le`).
-/

namespace DeviceGateway.TokenBucket

/-- **The permits that a bucket has given out** over a run of requests. -/
def totalAdmitted (b : TokenBucket) (rs : List Request) : Nat :=
  ((b.admitted rs).map (·.permits)).sum

/-- The latest instant that a bucket was asked at, or its start if none was later. -/
def latest (start : Int) (rs : List Request) : Int := rs.foldl (fun t r => max t r.instant) start

/-- **Whether a request goes without.** -/
def Rejects (b : TokenBucket) (r : Request) : Prop :=
  (b.tryAcquire r.permits r.instant).1 = false

variable {b : TokenBucket} {r : Request} {rs : List Request} {start s t u : Int}

/-! ## One request -/

/-- A refill never takes tokens out, if the capacity is a word. -/
theorem tokens_le_refill (hb : b.tokens ≤ b.capacity) (hword : b.capacity ≤ maxWord) (u : Int) :
    b.tokens ≤ (b.refill u).tokens := by
  unfold refill
  split
  · -- All three bounds on the refilled tokens are at least those that were there.
    simp only
    omega
  · exact Nat.le_refl _

theorem lastRefill_le_refill (b : TokenBucket) (u : Int) : b.lastRefill ≤ (b.refill u).lastRefill := by
  by_cases h : 0 < b.gained u
  · rw [refill, if_pos h]
    exact Int.le_of_lt (lastRefill_lt_of_gained_pos h)
  · rw [refill_of_gained_zero (by omega)]

/-- **The refill clock does not go back**, whatever the instant of the request. -/
theorem lastRefill_le_next (b : TokenBucket) (r : Request) :
    b.lastRefill ≤ (b.next r).lastRefill := by
  rcases request_cases b r with ⟨-, -, h⟩ | ⟨-, -, -, h⟩ | ⟨-, -, -, h⟩
  · rw [h]
  · rw [h]
    exact lastRefill_le_refill b r.instant
  · rw [h]
    exact lastRefill_le_refill b r.instant

/-- **A request goes without exactly if there are too few tokens after the refill.** -/
theorem rejects_iff (hb : b.tokens ≤ b.capacity) (hword : b.capacity ≤ maxWord) :
    b.Rejects r ↔ (b.refill r.instant).tokens < r.permits := by
  have hrefill := tokens_le_refill hb hword r.instant
  unfold Rejects tryAcquire
  constructor
  · intro h
    split at h
    · cases h
    · dsimp only at h
      split at h
      · cases h
      · next hfew => exact Nat.lt_of_not_le hfew
  · intro h
    rw [if_neg (by omega)]
    dsimp only
    rw [if_neg (by omega)]

theorem next_of_rejects (h : b.Rejects r) : b.next r = b.refill r.instant := by
  rw [Rejects] at h
  rcases request_cases b r with ⟨hle, -, -⟩ | ⟨hlt, hle, -, -⟩ | ⟨-, -, -, hnext⟩
  · rw [tryAcquire, if_pos hle] at h
    cases h
  · rw [tryAcquire, if_neg (by omega)] at h
    dsimp only at h
    rw [if_pos hle] at h
    cases h
  · exact hnext

/-! ## A run of requests -/

theorem le_latest_start (start : Int) (rs : List Request) : start ≤ latest start rs := by
  induction rs generalizing start with
  | nil => exact Int.le_refl _
  | cons r rs ih =>
      have hrest : max start r.instant ≤ latest start (r :: rs) := ih (max start r.instant)
      omega

theorem le_latest_of_mem (start : Int) (h : r ∈ rs) : r.instant ≤ latest start rs := by
  induction rs generalizing start with
  | nil => cases h
  | cons q rs ih =>
      rcases List.mem_cons.1 h with rfl | h
      · have hrest := le_latest_start (max start r.instant) rs
        show r.instant ≤ latest (max start r.instant) rs
        omega
      · exact ih (max start q.instant) h

theorem lastRefill_le_after (b : TokenBucket) (rs : List Request) :
    b.lastRefill ≤ (b.after rs).lastRefill := by
  induction rs generalizing b with
  | nil => exact Int.le_refl _
  | cons r rs ih => exact Int.le_trans (lastRefill_le_next b r) (ih (b.next r))

theorem totalAdmitted_cons (b : TokenBucket) (r : Request) (rs : List Request) :
    b.totalAdmitted (r :: rs) = b.given r + (b.next r).totalAdmitted rs := by
  simp only [totalAdmitted, admitted_cons, given]
  split
  · rw [List.map_cons, List.sum_cons]
  · rw [Nat.zero_add]

/-- **What has been given out is taken out of what the bucket could give**, whatever the order of the
requests: all that matters is that none is later than the instant up to which gains are counted. -/
theorem total_add_worth_le (ht : ∀ r ∈ rs, r.instant ≤ t) :
    b.totalAdmitted rs + (b.after rs).worth t ≤ b.worth t := by
  induction rs generalizing b with
  | nil => exact Nat.le_of_eq (Nat.zero_add _)
  | cons r rs ih =>
      have hpaid := given_add_worth_le (b := b) (ht r List.mem_cons_self)
      have hlater := ih (b := b.next r) fun q hq => ht q (List.mem_cons_of_mem _ hq)
      rw [totalAdmitted_cons, after_cons]
      omega

/-! ## Solvency -/

/-- **A bucket is solvent** after a run of requests, counted from its start. -/
structure Solvent (capacity rate : Nat) (start : Int) (rs : List Request) (b : TokenBucket) :
    Prop where
  /-- It holds no more than its capacity. -/
  within : b.tokens ≤ capacity
  /-- Its clock has not gone back since the start, and will not go back, -/
  clock : start ≤ b.lastRefill ∧ ∀ more, b.lastRefill ≤ (b.after more).lastRefill
  /-- a request that goes without takes nothing out, -/
  rejection : ∀ r, b.Rejects r → b.tokens ≤ (b.next r).tokens
  /-- and goes without only if there are too few tokens even after the refill. -/
  scarce : ∀ r, b.Rejects r ↔ (b.refill r.instant).tokens < r.permits
  /-- All that was given out is what was there and what was gained in the whole milliseconds up to
  the latest instant, at the most. -/
  total : (full capacity rate start).totalAdmitted rs ≤
    capacity + rate * wholeMillis start (latest start rs) / 1000

/-- **A bucket that starts full stays solvent**, for every capacity and rate that are words and any
requests, at any instants in any order. -/
theorem bucket_is_solvent (capacity rate : UInt64) (start : Int) (rs : List Request) :
    Solvent capacity.toNat rate.toNat start rs
      ((full capacity.toNat rate.toNat start).after rs) := by
  have hcapacity : ((full capacity.toNat rate.toNat start).after rs).capacity = capacity.toNat :=
    after_capacity _ _
  have hword : capacity.toNat ≤ maxWord := Nat.le_sub_one_of_lt capacity.toNat_lt
  have hwithin : ((full capacity.toNat rate.toNat start).after rs).tokens ≤ capacity.toNat :=
    after_tokens_le (b := full capacity.toNat rate.toNat start) (Nat.le_refl _) rs
  have hscarce (r : Request) : ((full capacity.toNat rate.toNat start).after rs).Rejects r ↔
      (((full capacity.toNat rate.toNat start).after rs).refill r.instant).tokens < r.permits :=
    rejects_iff (by rwa [hcapacity]) (by rwa [hcapacity])
  refine ⟨hwithin, ⟨?_, ?_⟩, ?_, hscarce, ?_⟩
  · exact lastRefill_le_after (full capacity.toNat rate.toNat start) rs
  · exact lastRefill_le_after _
  · intro r hr
    rw [next_of_rejects hr]
    exact tokens_le_refill (by rwa [hcapacity]) (by rwa [hcapacity]) r.instant
  · have htotal := total_add_worth_le (b := full capacity.toNat rate.toNat start)
      (t := latest start rs) fun r hr => le_latest_of_mem start hr
    have hworth : (full capacity.toNat rate.toNat start).worth (latest start rs) =
        capacity.toNat + rate.toNat * wholeMillis start (latest start rs) / 1000 := rfl
    omega

/-- A bucket of two tokens that is asked at instants that go back and forth. -/
example : (full 2 10 0).totalAdmitted
    [⟨2, 500000000⟩, ⟨1, -100000000⟩, ⟨1, 250000000⟩, ⟨2, 200000000⟩] = 3 := by decide

end DeviceGateway.TokenBucket
