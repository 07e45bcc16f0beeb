import Mathlib.Data.List.TakeWhile
import Mathlib.Data.Nat.ModEq
import DeviceGateway.Limiter.TokenBucket

/-!
# Bursts of a token bucket

How much a bucket gives out from one instant to another. What it can still give until an instant is
its tokens and the gains up to then (`worth`): a request takes out of that what it is given, and a
refill adds nothing to it. So the gains that count are those since the refill clock stood, and the
clock of a full bucket stands for as long as nobody finds too few tokens in it. An interval that
opens on such a bucket can see the capacity twice, once from the bucket and once from its clock, and
no more than that beside the gains of its own (`bursts_are_bounded`).
-/

namespace DeviceGateway.TokenBucket

/-- A request for a number of tokens at an instant. -/
structure Request where
  permits : Nat
  instant : Int
  deriving DecidableEq, Repr

/-- **The requests that a bucket admits**, asked one after another. -/
def admitted (b : TokenBucket) : List Request → List Request
  | [] => []
  | r :: rs =>
    let (granted, b') := b.tryAcquire r.permits r.instant
    if granted then r :: b'.admitted rs else b'.admitted rs

/-- The bucket after the requests. -/
def after (b : TokenBucket) (rs : List Request) : TokenBucket :=
  rs.foldl (fun b r => (b.tryAcquire r.permits r.instant).2) b

/-- The bucket as an interval finds it: after the requests before the interval. -/
def openedAt (b : TokenBucket) (rs : List Request) (s : Int) : TokenBucket :=
  b.after (rs.takeWhile (·.instant < s))

/-- The permits admitted from one instant to another, both included. -/
def admittedWithin (b : TokenBucket) (rs : List Request) (s t : Int) : Nat :=
  (((b.admitted rs).filter fun r => s ≤ r.instant ∧ r.instant ≤ t).map (·.permits)).sum

/-- Whole milliseconds from one instant to another. Unlike `elapsedMillis` they have no largest
value. -/
def wholeMillis (s t : Int) : Nat := (t - s).toNat / 1000000

/-- What a bucket can still give out until an instant. -/
def worth (b : TokenBucket) (t : Int) : Nat :=
  b.tokens + b.rate * wholeMillis b.lastRefill t / 1000

variable {b : TokenBucket} {r : Request} {rs : List Request} {s t u : Int}

/-! ## One request -/

theorem refill_rate (b : TokenBucket) (u : Int) : (b.refill u).rate = b.rate := by
  unfold refill
  split <;> rfl

theorem refill_capacity (b : TokenBucket) (u : Int) : (b.refill u).capacity = b.capacity := by
  unfold refill
  split <;> rfl

theorem refill_tokens_le (hb : b.tokens ≤ b.capacity) (u : Int) :
    (b.refill u).tokens ≤ b.capacity := by
  unfold refill
  split
  · exact Nat.min_le_right _ _
  · exact hb

/-- A refill that gained nothing did nothing. -/
theorem refill_of_gained_zero (h : b.gained u = 0) : b.refill u = b := by
  rw [refill, if_neg (by omega)]

/-- Nothing is gained from an instant to itself. -/
theorem gained_zero_of_lastRefill (h : b.lastRefill = u) : b.gained u = 0 := by
  simp only [gained, elapsedMillis, h, Int.sub_self, Int.toNat_zero, Nat.zero_div, Nat.zero_min,
    Nat.zero_mul]

theorem refill_refill (b : TokenBucket) (u : Int) : (b.refill u).refill u = b.refill u := by
  by_cases h : 0 < b.gained u
  · refine refill_of_gained_zero (gained_zero_of_lastRefill ?_)
    rw [refill, if_pos h]
  · rw [refill_of_gained_zero (b := b) (by omega), refill_of_gained_zero (by omega)]

/-- A request that finds too few tokens is one to the bucket after its refill. -/
theorem tryAcquire_of_lt (h : b.tokens < r.permits) :
    b.tryAcquire r.permits r.instant = (b.refill r.instant).tryAcquire r.permits r.instant := by
  simp only [tryAcquire, refill_refill, if_neg (Nat.not_le.2 h)]
  split <;> rfl

/-- Milliseconds of two intervals, one after the other, are milliseconds of both together. -/
theorem wholeMillis_add_le (hsu : s ≤ u) (hut : u ≤ t) :
    wholeMillis s u + wholeMillis u t ≤ wholeMillis s t := by
  unfold wholeMillis
  omega

theorem gains_mono (R : Nat) (h : s ≤ u) :
    R * wholeMillis u t / 1000 ≤ R * wholeMillis s t / 1000 := by
  refine Nat.div_le_div_right (Nat.mul_le_mul_left _ ?_)
  unfold wholeMillis
  omega

/-- What is gained up to an instant are the milliseconds up to it at the rate, at the most. -/
theorem gained_le (b : TokenBucket) (u : Int) :
    b.gained u ≤ b.rate * wholeMillis b.lastRefill u / 1000 := by
  refine Nat.div_le_div_right ?_
  calc min (elapsedMillis b.lastRefill u * b.rate) maxWord
      ≤ elapsedMillis b.lastRefill u * b.rate := Nat.min_le_left _ _
    _ ≤ wholeMillis b.lastRefill u * b.rate := Nat.mul_le_mul_right _ (Nat.min_le_left _ _)
    _ = b.rate * wholeMillis b.lastRefill u := Nat.mul_comm _ _

theorem lastRefill_lt_of_gained_pos (h : 0 < b.gained u) : b.lastRefill < u := by
  by_contra hle
  have : (u - b.lastRefill).toNat = 0 := by omega
  simp only [gained, elapsedMillis, this, Nat.zero_div, Nat.zero_min, Nat.zero_mul] at h
  omega

/-- **A refill adds nothing** to what a bucket can still give. -/
theorem worth_refill_le (hut : u ≤ t) : (b.refill u).worth t ≤ b.worth t := by
  by_cases h : 0 < b.gained u
  · have hsu := Int.le_of_lt (lastRefill_lt_of_gained_pos h)
    have hgains : b.gained u + b.rate * wholeMillis u t / 1000 ≤
        b.rate * wholeMillis b.lastRefill t / 1000 := by
      calc b.gained u + b.rate * wholeMillis u t / 1000
          ≤ b.rate * wholeMillis b.lastRefill u / 1000 + b.rate * wholeMillis u t / 1000 :=
            Nat.add_le_add_right (gained_le b u) _
        _ ≤ (b.rate * wholeMillis b.lastRefill u + b.rate * wholeMillis u t) / 1000 :=
            Nat.div_add_div_le_add_div
        _ = b.rate * (wholeMillis b.lastRefill u + wholeMillis u t) / 1000 := by
            rw [Nat.mul_add]
        _ ≤ b.rate * wholeMillis b.lastRefill t / 1000 :=
            Nat.div_le_div_right (Nat.mul_le_mul_left _ (wholeMillis_add_le hsu hut))
    simp only [refill, if_pos h, worth]
    omega
  · rw [refill_of_gained_zero (by omega)]

/-- The permits that a request is given. -/
def given (b : TokenBucket) (r : Request) : Nat :=
  if (b.tryAcquire r.permits r.instant).1 then r.permits else 0

/-- The bucket after one request. -/
abbrev next (b : TokenBucket) (r : Request) : TokenBucket := (b.tryAcquire r.permits r.instant).2

/-- **What can happen to a request**: it is served from the tokens that are there, or from those
that are there after a refill, or it goes without. -/
theorem request_cases (b : TokenBucket) (r : Request) :
    (r.permits ≤ b.tokens ∧ b.given r = r.permits ∧
      b.next r = { b with tokens := b.tokens - r.permits }) ∨
    (b.tokens < r.permits ∧ r.permits ≤ (b.refill r.instant).tokens ∧ b.given r = r.permits ∧
      b.next r =
        { b.refill r.instant with tokens := (b.refill r.instant).tokens - r.permits }) ∨
    (b.tokens < r.permits ∧ (b.refill r.instant).tokens < r.permits ∧ b.given r = 0 ∧
      b.next r = b.refill r.instant) := by
  unfold given next tryAcquire
  split
  next h => exact .inl ⟨h, rfl, rfl⟩
  next h =>
    have h := Nat.lt_of_not_le h
    dsimp only
    split
    next h' => exact .inr (.inl ⟨h, h', rfl, rfl⟩)
    next h' => exact .inr (.inr ⟨h, Nat.lt_of_not_le h', rfl, rfl⟩)

/-- **A request takes what it is given** out of what the bucket can still give. -/
theorem given_add_worth_le (hut : r.instant ≤ t) : b.given r + (b.next r).worth t ≤ b.worth t := by
  rcases request_cases b r with ⟨hle, hgiven, hnext⟩ | ⟨-, hle, hgiven, hnext⟩ |
    ⟨-, -, hgiven, hnext⟩
  · rw [hgiven, hnext]
    simp only [worth]
    omega
  · have hrefill := worth_refill_le (b := b) hut
    rw [hgiven, hnext]
    simp only [worth] at hrefill ⊢
    omega
  · rw [hgiven, hnext, Nat.zero_add]
    exact worth_refill_le hut

theorem next_rate (b : TokenBucket) (r : Request) : (b.next r).rate = b.rate := by
  rcases request_cases b r with ⟨-, -, h⟩ | ⟨-, -, -, h⟩ | ⟨-, -, -, h⟩ <;>
    simp only [h, refill_rate]

theorem next_capacity (b : TokenBucket) (r : Request) : (b.next r).capacity = b.capacity := by
  rcases request_cases b r with ⟨-, -, h⟩ | ⟨-, -, -, h⟩ | ⟨-, -, -, h⟩ <;>
    simp only [h, refill_capacity]

theorem next_tokens_le (hb : b.tokens ≤ b.capacity) (r : Request) :
    (b.next r).tokens ≤ b.capacity := by
  have hrefill := refill_tokens_le hb r.instant
  rcases request_cases b r with ⟨-, -, h⟩ | ⟨-, -, -, h⟩ | ⟨-, -, -, h⟩ <;> rw [h]
  · exact Nat.le_trans (Nat.sub_le _ _) hb
  · exact Nat.le_trans (Nat.sub_le _ _) hrefill
  · exact hrefill

/-! ## A run of requests -/

theorem admitted_cons (b : TokenBucket) (r : Request) (rs : List Request) :
    b.admitted (r :: rs) =
      if (b.tryAcquire r.permits r.instant).1 then r :: (b.next r).admitted rs
      else (b.next r).admitted rs := rfl

theorem after_cons (b : TokenBucket) (r : Request) (rs : List Request) :
    b.after (r :: rs) = (b.next r).after rs := rfl

theorem admitted_append (b : TokenBucket) (rs rs' : List Request) :
    b.admitted (rs ++ rs') = b.admitted rs ++ (b.after rs).admitted rs' := by
  induction rs generalizing b with
  | nil => rfl
  | cons r rs ih =>
      rw [List.cons_append, admitted_cons, admitted_cons, after_cons, ih]
      split <;> rfl

theorem admitted_sublist (b : TokenBucket) (rs : List Request) :
    (b.admitted rs).Sublist rs := by
  induction rs generalizing b with
  | nil => exact .slnil
  | cons r rs ih =>
      rw [admitted_cons]
      split
      · exact (ih _).cons_cons r
      · exact (ih _).cons r

theorem after_rate (b : TokenBucket) (rs : List Request) : (b.after rs).rate = b.rate := by
  induction rs generalizing b with
  | nil => rfl
  | cons r rs ih => rw [after_cons, ih, next_rate]

theorem after_capacity (b : TokenBucket) (rs : List Request) :
    (b.after rs).capacity = b.capacity := by
  induction rs generalizing b with
  | nil => rfl
  | cons r rs ih => rw [after_cons, ih, next_capacity]

/-- **No run fills a bucket beyond its capacity.** -/
theorem after_tokens_le (hb : b.tokens ≤ b.capacity) (rs : List Request) :
    (b.after rs).tokens ≤ b.capacity := by
  induction rs generalizing b with
  | nil => exact hb
  | cons r rs ih =>
      have hnext := ih (b := b.next r) (next_capacity b r ▸ next_tokens_le hb r)
      rwa [next_capacity] at hnext

/-- Requests outside the interval do not count. -/
theorem admittedWithin_of_outside (h : ∀ r ∈ rs, r.instant < s ∨ t < r.instant) :
    b.admittedWithin rs s t = 0 := by
  have hnone : (b.admitted rs).filter (fun r => s ≤ r.instant ∧ r.instant ≤ t) = [] := by
    refine List.filter_eq_nil_iff.2 fun r hr => ?_
    have := h r ((admitted_sublist b rs).subset hr)
    simp only [decide_eq_true_eq]
    omega
  rw [admittedWithin, hnone]
  rfl

theorem admittedWithin_append (b : TokenBucket) (rs rs' : List Request) (s t : Int) :
    b.admittedWithin (rs ++ rs') s t =
      b.admittedWithin rs s t + (b.after rs).admittedWithin rs' s t := by
  simp only [admittedWithin, admitted_append, List.filter_append, List.map_append,
    List.sum_append]

theorem admittedWithin_cons_le (b : TokenBucket) (r : Request) (rs : List Request) (s t : Int) :
    b.admittedWithin (r :: rs) s t ≤ b.given r + (b.next r).admittedWithin rs s t := by
  simp only [admittedWithin, admitted_cons, given]
  split
  · rw [List.filter_cons]
    split
    · rw [List.map_cons, List.sum_cons]
    · exact Nat.le_add_left _ _
  · exact Nat.le_add_left _ _

/-! ## The bounds -/

/-- **A run gives out what the bucket could give**, and no more. -/
theorem admittedWithin_le_worth (hrs : rs.Pairwise (·.instant ≤ ·.instant)) (s t : Int) :
    b.admittedWithin rs s t ≤ b.worth t := by
  induction rs generalizing b with
  | nil => exact Nat.zero_le _
  | cons r rs ih =>
      obtain ⟨hfirst, hrest⟩ := List.pairwise_cons.1 hrs
      by_cases hrt : r.instant ≤ t
      · have hstep := admittedWithin_cons_le b r rs s t
        have hpaid := given_add_worth_le (b := b) hrt
        have hlater := ih (b := b.next r) hrest
        omega
      · -- The interval is over: no later request lies in it either.
        have hout : b.admittedWithin (r :: rs) s t = 0 := by
          refine admittedWithin_of_outside fun q hq => .inr ?_
          rcases List.mem_cons.1 hq with rfl | hq
          · omega
          · have := hfirst q hq
            omega
        omega

/-- **The first refill brings a capacity at the most**: until then a bucket lives on its tokens, and
from then on its clock stands within the interval. -/
theorem admittedWithin_le_twice (hb : b.tokens ≤ b.capacity)
    (hrs : rs.Pairwise (·.instant ≤ ·.instant)) (hs : ∀ r ∈ rs, s ≤ r.instant) (t : Int) :
    b.admittedWithin rs s t ≤ b.tokens + (b.capacity + b.rate * wholeMillis s t / 1000) := by
  induction rs generalizing b with
  | nil => exact Nat.zero_le _
  | cons r rs ih =>
      obtain ⟨-, hrest⟩ := List.pairwise_cons.1 hrs
      have hlater := ih (b := b.next r) (next_capacity b r ▸ next_tokens_le hb r) hrest
        fun q hq => hs q (List.mem_cons_of_mem _ hq)
      have hstep := admittedWithin_cons_le b r rs s t
      rw [next_capacity, next_rate] at hlater
      by_cases hfew : b.tokens < r.permits
      · by_cases hgain : 0 < b.gained r.instant
        · -- The refill: from here on the bound of the refilled bucket counts.
          have hsame : b.admittedWithin (r :: rs) s t =
              (b.refill r.instant).admittedWithin (r :: rs) s t := by
            simp only [admittedWithin, admitted_cons, next, tryAcquire_of_lt hfew]
          have hworth := admittedWithin_le_worth (b := b.refill r.instant) hrs s t
          have hclock : (b.refill r.instant).lastRefill = r.instant := by
            rw [refill, if_pos hgain]
          have htokens := refill_tokens_le hb r.instant
          have hgains := gains_mono (t := t) b.rate (hs r List.mem_cons_self)
          rw [worth, refill_rate, hclock] at hworth
          omega
        · have hkept := refill_of_gained_zero (b := b) (u := r.instant) (by omega)
          rcases request_cases b r with ⟨h, -⟩ | ⟨-, h, -⟩ | ⟨-, -, hgiven, hnext⟩
          · omega
          · rw [hkept] at h
            omega
          · have htokens : (b.next r).tokens = b.tokens := by rw [hnext, hkept]
            omega
      · rcases request_cases b r with ⟨-, hgiven, hnext⟩ | ⟨h, -⟩ | ⟨h, -⟩
        · have htokens : (b.next r).tokens = b.tokens - r.permits := by rw [hnext]
          omega
        · exact absurd h hfew
        · exact absurd h hfew

/-- What is admitted within an interval is admitted by the bucket that the interval finds, and from
requests that are not before it. -/
theorem admittedWithin_eq_openedAt (b : TokenBucket)
    (hrs : rs.Pairwise (·.instant ≤ ·.instant)) (s t : Int) :
    ∃ late : List Request, late.Pairwise (·.instant ≤ ·.instant) ∧ (∀ r ∈ late, s ≤ r.instant) ∧
      b.admittedWithin rs s t = (b.openedAt rs s).admittedWithin late s t := by
  let early : Request → Bool := (·.instant < s)
  have hsorted := hrs.sublist (List.dropWhile_sublist early)
  have hearly : ∀ r ∈ rs.takeWhile early, r.instant < s ∨ t < r.instant := fun r hr =>
    .inl (of_decide_eq_true (p := r.instant < s) (List.mem_takeWhile_imp (p := early) hr))
  refine ⟨rs.dropWhile early, hsorted, fun r hr => ?_, ?_⟩
  · -- The first request that is not early is not before the interval, so none after it is.
    cases hlate : rs.dropWhile early with
    | nil => exact absurd (hlate ▸ hr) List.not_mem_nil
    | cons q qs =>
        have hne : rs.dropWhile early ≠ [] := hlate ▸ List.cons_ne_nil q qs
        have hfirst := List.head_dropWhile_not (l := rs) early hne
        simp only [hlate, List.head_cons, early, decide_eq_false_iff_not] at hfirst
        rw [hlate] at hr hsorted
        rcases List.mem_cons.1 hr with rfl | hr
        · omega
        · have := (List.pairwise_cons.1 hsorted).1 r hr
          omega
  · conv_lhs => rw [← List.takeWhile_append_dropWhile (p := early) (l := rs)]
    rw [admittedWithin_append, admittedWithin_of_outside hearly, Nat.zero_add]
    rfl

/-- **The bursts of a bucket that starts full.** From one instant to another it admits its capacity
and the gains since the refill clock stood when the interval opened, at the most. It also admits
no more than twice its capacity and the gains of the interval itself. -/
theorem bursts_are_bounded (capacity rate : Nat) (start : Int) {rs : List Request}
    (hrs : rs.Pairwise (·.instant ≤ ·.instant)) (s t : Int) :
    (full capacity rate start).admittedWithin rs s t ≤ capacity +
      rate * wholeMillis ((full capacity rate start).openedAt rs s).lastRefill t / 1000 ∧
    (full capacity rate start).admittedWithin rs s t ≤
      2 * capacity + rate * wholeMillis s t / 1000 := by
  obtain ⟨late, hsorted, hafter, hwithin⟩ :=
    admittedWithin_eq_openedAt (full capacity rate start) hrs s t
  have htokens : ((full capacity rate start).openedAt rs s).tokens ≤ capacity :=
    after_tokens_le (b := full capacity rate start) (Nat.le_refl _) _
  have hcapacity : ((full capacity rate start).openedAt rs s).capacity = capacity :=
    after_capacity _ _
  have hrate : ((full capacity rate start).openedAt rs s).rate = rate := after_rate _ _
  have hworth := admittedWithin_le_worth (b := (full capacity rate start).openedAt rs s) hsorted s t
  have htwice := admittedWithin_le_twice (b := (full capacity rate start).openedAt rs s)
    (by rwa [hcapacity]) hsorted hafter t
  rw [worth, hrate] at hworth
  rw [hcapacity, hrate] at htwice
  constructor <;> omega

/-- The bound is reached: a bucket of two tokens that gains one in a tenth of a second gives out
five within a tenth of a second, five seconds after its start. -/
theorem five_permits_of_a_bucket_of_two :
    let requests : List Request :=
      [⟨2, 5000000000⟩, ⟨1, 5000000000⟩, ⟨1, 5050000000⟩, ⟨1, 5100000000⟩]
    requests.Pairwise (·.instant ≤ ·.instant) ∧
    (full 2 10 0).admittedWithin requests 5000000000 5100000000 = 5 ∧
    5 ≤ 2 + 10 * wholeMillis ((full 2 10 0).openedAt requests 5000000000).lastRefill 5100000000
      / 1000 ∧
    5 ≤ 2 * 2 + 10 * wholeMillis 5000000000 5100000000 / 1000 := by
  intro requests
  have hsorted : requests.Pairwise (·.instant ≤ ·.instant) := by decide
  have hfive : (full 2 10 0).admittedWithin requests 5000000000 5100000000 = 5 := by decide
  have hbounds := bursts_are_bounded 2 10 0 hsorted 5000000000 5100000000
  rw [hfive] at hbounds
  exact ⟨hsorted, hfive, hbounds⟩

/-- **A full bucket can be emptied twice at once**: the first request does not look at the clock, so
the second one finds all that was gained before. -/
theorem admitted_twice {capacity rate : Nat} {start now : Int}
    (hgain : capacity ≤ (full capacity rate start).gained now) (hpos : 0 < capacity)
    (hword : capacity ≤ maxWord) :
    (full capacity rate start).admitted [⟨capacity, now⟩, ⟨capacity, now⟩] =
      [⟨capacity, now⟩, ⟨capacity, now⟩] := by
  -- The first request leaves an empty bucket whose clock still stands at the start.
  let emptied : TokenBucket := ⟨capacity, rate, 0, start⟩
  have hfirst : (full capacity rate start).tryAcquire capacity now = (true, emptied) := by
    simp only [tryAcquire, full, Nat.le_refl, if_true, Nat.sub_self, emptied]
  have hrefilled : (emptied.refill now).tokens = capacity := by
    have hsame : emptied.gained now = (full capacity rate start).gained now := rfl
    rw [refill, if_pos (by omega)]
    simp only [emptied] at hsame ⊢
    omega
  have hsecond : (emptied.tryAcquire capacity now).1 = true := by
    rw [tryAcquire, if_neg (by simp only [emptied]; omega)]
    simp only [hrefilled, Nat.le_refl, if_true]
  simp only [admitted, hfirst, hsecond, if_true]

/-- **The capacity and the gains of an interval do not bound its burst**, not even rounded up. -/
theorem interval_gains_do_not_bound_bursts :
    ¬ ∀ (capacity rate : Nat) (start : Int) (rs : List Request),
      rs.Pairwise (·.instant ≤ ·.instant) → ∀ s t : Int,
        (full capacity rate start).admittedWithin rs s t ≤
          capacity + (rate * wholeMillis s t + 999) / 1000 := by
  intro h
  have hsecond : ([⟨1, 10000000000⟩, ⟨1, 10000000000⟩] : List Request).Pairwise
      (·.instant ≤ ·.instant) := by decide
  have hbound := h 1 1 0 _ hsecond 10000000000 10000000000
  have hboth : (full 1 1 0).admitted [⟨1, 10000000000⟩, ⟨1, 10000000000⟩] = _ :=
    admitted_twice (by decide) Nat.one_pos (by decide)
  simp only [admittedWithin, hboth] at hbound
  exact absurd hbound (by decide)

end DeviceGateway.TokenBucket
