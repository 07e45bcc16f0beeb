import Mathlib.Data.List.Induction
import DeviceGateway.Limiter.FixedWindow

/-!
# Windows of a limiter

A window starts with whatever call comes after the one before has run out, so the windows lie on no
grid. What a limiter can still admit until an instant is the rest of its window, and a limit for
every further window that fits in before (`room`): a call takes out of that what it is given, and a
new window adds nothing to it (`given_add_room_le`). The window that is open when an interval begins
started less than its length before, so as many windows reach into the interval as would cover it,
and one more (`admittedWithin_le`). The other way round, a call goes without only if its window is
used up, and all that used it up lies in the time of one window before the call
(`limit_le_of_rejects`).
-/

namespace DeviceGateway.FixedWindow

/-- The counter after one call. -/
abbrev next (w : FixedWindow) (t : Int) : FixedWindow := (w.allow t).2

/-- **Whether a call goes without.** -/
def Rejects (w : FixedWindow) (t : Int) : Prop := (w.allow t).1 = false

/-- The counter after calls at some instants. -/
def after (w : FixedWindow) (calls : List Int) : FixedWindow := calls.foldl next w

/-- **The calls that are admitted**, by their instants. -/
def admitted : FixedWindow → List Int → List Int
  | _, [] => []
  | w, t :: ts => if (w.allow t).1 then t :: admitted (w.next t) ts else admitted (w.next t) ts

/-- The number of calls admitted from one instant to another, both included. -/
def admittedWithin (w : FixedWindow) (calls : List Int) (a b : Int) : Nat :=
  (w.admitted calls).countP fun t => a ≤ t ∧ t ≤ b

/-- **The starts of the windows**, one after another, from the one that is open. -/
def starts : FixedWindow → List Int → List Int
  | w, [] => [w.start]
  | w, t :: ts =>
    if (w.next t).start = w.start then starts (w.next t) ts else w.start :: starts (w.next t) ts

/-- What one call is given. -/
def given (w : FixedWindow) (t : Int) : Nat := if (w.allow t).1 then 1 else 0

/-- **What can still be admitted until an instant**: the rest of the window, and a limit for every
further window. -/
def room (w : FixedWindow) (b : Int) : Nat :=
  (w.limit - w.count) + w.limit * ((b - w.start).toNat / w.window.nanos)

variable {w : FixedWindow} {t a b : Int} {ts calls : List Int}

/-! ## One call -/

/-- **The window of a call** is the one that is open, or a new one that starts with the call. -/
theorem advance_cases (w : FixedWindow) (t : Int) :
    ((t - w.start).toNat < w.window.nanos ∧ w.advance t = w) ∨
      (w.window.nanos ≤ (t - w.start).toNat ∧ w.advance t = { w with count := 0, start := t }) := by
  unfold advance
  split
  next h => exact Or.inr ⟨h, rfl⟩
  next h => exact Or.inl ⟨Nat.lt_of_not_le h, rfl⟩

/-- **What can happen to a call**: its window has room for it, or it has not. -/
theorem allow_cases (w : FixedWindow) (t : Int) :
    ((w.advance t).count < (w.advance t).limit ∧ w.given t = 1 ∧
      w.allow t = (true, { w.advance t with count := (w.advance t).count + 1 })) ∨
    ((w.advance t).limit ≤ (w.advance t).count ∧ w.given t = 0 ∧
      w.allow t = (false, w.advance t)) := by
  unfold given allow
  dsimp only
  split
  next h => exact Or.inr ⟨h, rfl, rfl⟩
  next h => exact Or.inl ⟨Nat.lt_of_not_le h, rfl, rfl⟩

theorem advance_limit (w : FixedWindow) (t : Int) : (w.advance t).limit = w.limit := by
  rcases advance_cases w t with ⟨-, h⟩ | ⟨-, h⟩ <;> rw [h]

theorem advance_window (w : FixedWindow) (t : Int) : (w.advance t).window = w.window := by
  rcases advance_cases w t with ⟨-, h⟩ | ⟨-, h⟩ <;> rw [h]

theorem next_limit (w : FixedWindow) (t : Int) : (w.next t).limit = w.limit := by
  rcases allow_cases w t with ⟨-, -, h⟩ | ⟨-, -, h⟩ <;> simp only [next, h, advance_limit]

theorem next_window (w : FixedWindow) (t : Int) : (w.next t).window = w.window := by
  rcases allow_cases w t with ⟨-, -, h⟩ | ⟨-, -, h⟩ <;> simp only [next, h, advance_window]

theorem next_start (w : FixedWindow) (t : Int) : (w.next t).start = (w.advance t).start := by
  rcases allow_cases w t with ⟨-, -, h⟩ | ⟨-, -, h⟩ <;> rw [next, h]

/-- A call adds to the counter of its window what it is given. -/
theorem next_count (w : FixedWindow) (t : Int) :
    (w.next t).count = (w.advance t).count + w.given t := by
  rcases allow_cases w t with ⟨-, hgiven, h⟩ | ⟨-, hgiven, h⟩ <;> rw [next, h, hgiven]
  rfl

/-- **The counter never exceeds the limit.** -/
theorem next_count_le (hw : w.count ≤ w.limit) (t : Int) : (w.next t).count ≤ w.limit := by
  have hadvance : (w.advance t).count ≤ w.limit := by
    rcases advance_cases w t with ⟨-, h⟩ | ⟨-, h⟩ <;> rw [h]
    · exact hw
    · exact Nat.zero_le _
  have hlimit := advance_limit w t
  rw [next_count]
  rcases allow_cases w t with ⟨hroom, hgiven, -⟩ | ⟨-, hgiven, -⟩ <;> omega

/-- The window of a call started less than its length before the call. -/
theorem lt_start_advance (hw : 0 < w.window.nanos) (t : Int) :
    t - w.window.nanos < (w.advance t).start := by
  rcases advance_cases w t with ⟨hopen, h⟩ | ⟨-, h⟩ <;> rw [h]
  · omega
  · simp only
    omega

/-- A call for which a window was started finds it open. -/
theorem advance_advance (hw : 0 < w.window.nanos) (t : Int) :
    (w.advance t).advance t = w.advance t := by
  rcases advance_cases (w.advance t) t with ⟨-, h⟩ | ⟨hover, -⟩
  · exact h
  · have hstart := lt_start_advance hw t
    rw [advance_window] at hover
    omega

theorem allow_advance (hw : 0 < w.window.nanos) (t : Int) :
    (w.advance t).allow t = w.allow t := by
  unfold allow
  rw [advance_advance hw]

/-- **A window starts when the one before has run out**, whatever the instant of the call. -/
theorem next_start_cases (hw : 0 < w.window.nanos) (t : Int) :
    (w.next t).start = w.start ∨ w.start + w.window.nanos ≤ (w.next t).start := by
  rw [next_start]
  rcases advance_cases w t with ⟨-, h⟩ | ⟨hover, h⟩ <;> rw [h]
  · exact Or.inl rfl
  · right
    simp only
    omega

/-- **A call takes what it is given** out of what can still be admitted. -/
theorem given_add_room_le (hw : 0 < w.window.nanos) (htb : t ≤ b) :
    w.given t + (w.next t).room b ≤ w.room b := by
  have hlimit := next_limit w t
  have hcount := next_count w t
  unfold room
  rw [next_start, next_window, hlimit]
  rcases advance_cases w t with ⟨-, hsame⟩ | ⟨hover, hnew⟩
  · rw [hsame] at hcount ⊢
    rcases allow_cases w t with ⟨hroom, hgiven, -⟩ | ⟨-, hgiven, -⟩
    · rw [hsame] at hroom
      omega
    · omega
  · -- The new window uses up one of those that fit in before the end.
    have hfits : (b - t).toNat / w.window.nanos + 1 ≤ (b - w.start).toNat / w.window.nanos := by
      rw [← Nat.add_div_right _ hw]
      exact Nat.div_le_div_right (by omega)
    have hlater : w.limit * ((b - t).toNat / w.window.nanos) + w.limit ≤
        w.limit * ((b - w.start).toNat / w.window.nanos) := by
      rw [← Nat.mul_succ]
      exact Nat.mul_le_mul_left _ hfits
    rw [hnew] at hcount ⊢
    rcases allow_cases w t with ⟨hroom, hgiven, -⟩ | ⟨hfull, hgiven, -⟩
    · rw [hnew] at hroom
      simp only at hroom hcount ⊢
      omega
    · rw [hnew] at hfull
      simp only at hfull hcount ⊢
      omega

/-! ## A run of calls -/

theorem admitted_cons (w : FixedWindow) (t : Int) (ts : List Int) :
    w.admitted (t :: ts) =
      if (w.allow t).1 then t :: (w.next t).admitted ts else (w.next t).admitted ts := rfl

theorem admitted_append (w : FixedWindow) (ts ts' : List Int) :
    w.admitted (ts ++ ts') = w.admitted ts ++ (w.after ts).admitted ts' := by
  induction ts generalizing w with
  | nil => rfl
  | cons t ts ih =>
      rw [List.cons_append, admitted_cons, admitted_cons, ih]
      split <;> rfl

theorem after_append (w : FixedWindow) (ts ts' : List Int) :
    w.after (ts ++ ts') = (w.after ts).after ts' :=
  List.foldl_append

theorem admitted_sublist (w : FixedWindow) (ts : List Int) : (w.admitted ts).Sublist ts := by
  induction ts generalizing w with
  | nil => exact .slnil
  | cons t ts ih =>
      rw [admitted_cons]
      split
      · exact (ih _).cons_cons t
      · exact (ih _).cons t

theorem after_limit (w : FixedWindow) (ts : List Int) : (w.after ts).limit = w.limit := by
  induction ts generalizing w with
  | nil => rfl
  | cons t ts ih => exact (ih (w.next t)).trans (next_limit w t)

theorem after_window (w : FixedWindow) (ts : List Int) : (w.after ts).window = w.window := by
  induction ts generalizing w with
  | nil => rfl
  | cons t ts ih => exact (ih (w.next t)).trans (next_window w t)

theorem after_count_le (hw : w.count ≤ w.limit) (ts : List Int) : (w.after ts).count ≤ w.limit := by
  induction ts generalizing w with
  | nil => exact hw
  | cons t ts ih =>
      have hnext := ih (w := w.next t) (next_limit w t ▸ next_count_le hw t)
      rwa [next_limit] at hnext

/-- Calls outside the interval do not count. -/
theorem admittedWithin_of_outside (h : ∀ t ∈ ts, t < a ∨ b < t) : w.admittedWithin ts a b = 0 := by
  refine List.countP_eq_zero.2 fun t ht => ?_
  have hout := h t ((admitted_sublist w ts).subset ht)
  simp only [decide_eq_true_eq]
  omega

theorem admittedWithin_cons_le (w : FixedWindow) (t : Int) (ts : List Int) (a b : Int) :
    w.admittedWithin (t :: ts) a b ≤ w.given t + (w.next t).admittedWithin ts a b := by
  simp only [admittedWithin, admitted_cons, given]
  split
  · rw [List.countP_cons]
    split <;> omega
  · omega

/-- A call before the interval does not count. -/
theorem admittedWithin_cons_of_lt (h : t < a) :
    w.admittedWithin (t :: ts) a b = (w.next t).admittedWithin ts a b := by
  simp only [admittedWithin, admitted_cons]
  split
  · rw [List.countP_cons_of_neg]
    simp only [decide_eq_true_eq]
    omega
  · rfl

/-- **A run admits what there was room for**, and no more. -/
theorem admittedWithin_le_room (hw : 0 < w.window.nanos) (hts : ts.Pairwise (· ≤ ·)) (a b : Int) :
    w.admittedWithin ts a b ≤ w.room b := by
  induction ts generalizing w with
  | nil => exact Nat.zero_le _
  | cons t ts ih =>
      obtain ⟨hfirst, hrest⟩ := List.pairwise_cons.1 hts
      by_cases htb : t ≤ b
      · have hstep := admittedWithin_cons_le w t ts a b
        have hpaid := given_add_room_le hw htb
        have hlater := ih (w := w.next t) (next_window w t ▸ hw) hrest
        omega
      · -- The interval is over: no later call lies in it either.
        have hout : w.admittedWithin (t :: ts) a b = 0 := by
          refine admittedWithin_of_outside fun u hu => .inr ?_
          rcases List.mem_cons.1 hu with rfl | hu
          · omega
          · have := hfirst u hu
            omega
        omega

/-- **Within an interval** as many windows are used as would cover it, and one more. -/
theorem admittedWithin_le (hw : 0 < w.window.nanos) (hts : ts.Pairwise (· ≤ ·)) (a : Int) (d : Nat) :
    w.admittedWithin ts a (a + d) ≤
      w.limit * ((d + w.window.nanos - 1) / w.window.nanos + 1) := by
  induction ts generalizing w with
  | nil => exact Nat.zero_le _
  | cons t ts ih =>
      by_cases hta : t < a
      · have hlater := ih (w := w.next t) (next_window w t ▸ hw) (List.pairwise_cons.1 hts).2
        rw [next_limit, next_window] at hlater
        rwa [admittedWithin_cons_of_lt hta]
      · -- The first call in the interval: its window reaches back by less than its length.
        have hsame : w.admittedWithin (t :: ts) a (a + d) =
            (w.advance t).admittedWithin (t :: ts) a (a + d) := by
          simp only [admittedWithin, admitted_cons, next, allow_advance hw]
        have hroom := admittedWithin_le_room (w := w.advance t) (advance_window w t ▸ hw) hts a (a + d)
        have hstart := lt_start_advance hw t
        have hwindows : w.limit * ((a + d - (w.advance t).start).toNat / w.window.nanos) ≤
            w.limit * ((d + w.window.nanos - 1) / w.window.nanos) :=
          Nat.mul_le_mul_left _ (Nat.div_le_div_right (by omega))
        rw [room, advance_limit, advance_window] at hroom
        rw [Nat.mul_succ]
        omega

/-- **The counter counts calls in its window**: all of them were admitted since the window started,
and the window started with the limiter or with a call. -/
theorem count_le_countP (hcount : w.count = 0) (hcalls : calls.Pairwise (· ≤ ·))
    (hstart : ∀ t ∈ calls, w.start ≤ t) :
    (w.after calls).count ≤ (w.admitted calls).countP (fun t => (w.after calls).start ≤ t) ∧
      ((w.after calls).start = w.start ∨ (w.after calls).start ∈ calls) := by
  induction calls using List.reverseRecOn with
  | nil => exact ⟨Nat.le_of_eq hcount, Or.inl rfl⟩
  | append_singleton calls t ih =>
      obtain ⟨hsorted, -, hlast⟩ := List.pairwise_append.1 hcalls
      obtain ⟨hcounted, horigin⟩ := ih hsorted fun u hu => hstart u (List.mem_append_left _ hu)
      -- The window that is open started no later than this call.
      have hopen : (w.after calls).start ≤ t := by
        rcases horigin with h | h
        · rw [h]
          exact hstart t (List.mem_append_right _ List.mem_cons_self)
        · exact hlast _ h t List.mem_cons_self
      have hafter : w.after (calls ++ [t]) = (w.after calls).next t := after_append w calls [t]
      have hgiven (s : Int) (hs : s ≤ t) : (w.admitted (calls ++ [t])).countP (s ≤ ·) =
          (w.admitted calls).countP (s ≤ ·) + (w.after calls).given t := by
        rw [admitted_append, List.countP_append, admitted_cons, given]
        split <;> simp [admitted, hs]
      rw [hafter, next_count, next_start]
      rcases advance_cases (w.after calls) t with ⟨-, h⟩ | ⟨-, h⟩
      · rw [h, hgiven _ hopen]
        exact ⟨Nat.add_le_add_right hcounted _, horigin.imp_right (List.mem_append_left _)⟩
      · rw [h]
        simp only
        rw [hgiven t (Int.le_refl t)]
        exact ⟨Nat.add_le_add_right (Nat.zero_le _) _,
          Or.inr (List.mem_append_right _ List.mem_cons_self)⟩

/-- **A call goes without only if a limit was used up** within the length of a window before it. -/
theorem limit_le_of_rejects (hcount : w.count = 0)
    (hcalls : (calls ++ [t]).Pairwise (· ≤ ·)) (hstart : ∀ u ∈ calls ++ [t], w.start ≤ u)
    (h : (w.after calls).Rejects t) :
    w.limit ≤ (w.admitted calls).countP fun u => t - w.window.nanos < u ∧ u ≤ t := by
  obtain ⟨hsorted, -, hlast⟩ := List.pairwise_append.1 hcalls
  obtain ⟨hcounted, -⟩ :=
    count_le_countP hcount hsorted fun u hu => hstart u (List.mem_append_left _ hu)
  have hfull : w.limit ≤ ((w.after calls).advance t).count := by
    rcases allow_cases (w.after calls) t with ⟨-, -, hallow⟩ | ⟨hfull, -, -⟩
    · rw [Rejects, hallow] at h
      cases h
    · rwa [advance_limit, after_limit] at hfull
  rcases advance_cases (w.after calls) t with ⟨hopen, hadvance⟩ | ⟨-, hadvance⟩
  · rw [hadvance] at hfull
    rw [after_window] at hopen
    refine Nat.le_trans (Nat.le_trans hfull hcounted) (List.countP_mono_left fun u hu hsince => ?_)
    have hut := hlast u ((admitted_sublist w calls).subset hu) t List.mem_cons_self
    simp only [decide_eq_true_eq] at hsince ⊢
    omega
  · -- A new window is used up only if nothing is ever admitted.
    rw [hadvance] at hfull
    exact Nat.le_trans hfull (Nat.zero_le _)

theorem le_of_mem_starts (hw : 0 < w.window.nanos) {s : Int} (hs : s ∈ w.starts ts) :
    w.start ≤ s := by
  induction ts generalizing w with
  | nil => exact Int.le_of_eq (List.mem_singleton.1 hs).symm
  | cons t ts ih =>
      have hlater : s ∈ (w.next t).starts ts → w.start ≤ s := by
        intro hs
        have hle := ih (w := w.next t) (next_window w t ▸ hw) hs
        rcases next_start_cases hw t with h | h <;> omega
      rw [starts] at hs
      split at hs
      · exact hlater hs
      · rcases List.mem_cons.1 hs with rfl | hs
        · exact Int.le_refl _
        · exact hlater hs

/-- **Windows do not overlap.** -/
theorem starts_apart (hw : 0 < w.window.nanos) (ts : List Int) :
    (w.starts ts).Pairwise fun s s' : Int => s + w.window.nanos ≤ s' := by
  induction ts generalizing w with
  | nil => exact List.pairwise_singleton _ _
  | cons t ts ih =>
      have hnext : 0 < (w.next t).window.nanos := next_window w t ▸ hw
      have hlater := ih hnext
      rw [next_window] at hlater
      rw [starts]
      split
      · exact hlater
      next hmoved =>
        refine List.pairwise_cons.2 ⟨fun s hs => ?_, hlater⟩
        have hle := le_of_mem_starts hnext hs
        rcases next_start_cases hw t with h | h
        · exact absurd h hmoved
        · omega

/-! ## Keeping to a limit -/

/-- **A limiter keeps to its limit** over a run of calls. -/
structure KeepsToLimit (limit : Nat) (window : Duration) (start : Int) (calls : List Int) : Prop where
  /-- At instants in any order, the counter does not exceed the limit, -/
  counted : ((new limit window start).after calls).count ≤ limit
  /-- and the windows do not overlap. -/
  apart : ((new limit window start).starts calls).Pairwise fun s s' : Int => s + window.nanos ≤ s'
  /-- At instants that do not go back, an interval sees a limit for each window that it takes to
  cover it, and for one more. -/
  bounded : calls.Pairwise (· ≤ ·) → ∀ (a : Int) (d : Nat),
    (new limit window start).admittedWithin calls a (a + d) ≤
      limit * ((d + window.nanos - 1) / window.nanos + 1)
  /-- If none of them is before the start, a call goes without only if a limit was used up since less
  than a window before it. -/
  fair : calls.Pairwise (· ≤ ·) → (∀ t ∈ calls, start ≤ t) → ∀ earlier t later,
    calls = earlier ++ t :: later → ((new limit window start).after earlier).Rejects t →
      limit ≤ ((new limit window start).admitted earlier).countP
        fun u => t - window.nanos < u ∧ u ≤ t

/-- **Every limiter keeps to its limit**, if its windows last. -/
theorem windows_keep_to_limit (limit : Nat) {window : Duration} (hwindow : 0 < window.nanos)
    (start : Int) (calls : List Int) : KeepsToLimit limit window start calls := by
  refine ⟨after_count_le (Nat.zero_le limit) calls, starts_apart (w := new limit window start) hwindow calls,
    ?_, ?_⟩
  · intro hsorted a d
    exact admittedWithin_le (w := new limit window start) hwindow hsorted a d
  · rintro hsorted hstart earlier t later rfl hrejects
    have hsplit : earlier ++ t :: later = earlier ++ [t] ++ later := by
      rw [List.append_assoc, List.singleton_append]
    rw [hsplit] at hsorted hstart
    exact limit_le_of_rejects (w := new limit window start) rfl
      (List.pairwise_append.1 hsorted).1 (fun u hu => hstart u (List.mem_append_left _ hu)) hrejects

/-- The bound is reached: two windows of ten nanoseconds, each with room for one call, meet in an
interval of one. The third call goes without. -/
theorem two_calls_within_a_nanosecond :
    let window : Duration := ⟨10⟩
    let calls : List Int := [9, 10, 10]
    0 < window.nanos ∧ calls.Pairwise (· ≤ ·) ∧ (∀ t ∈ calls, 0 ≤ t) ∧
    (new 1 window 0).starts calls = [0, 10] ∧
    (new 1 window 0).admittedWithin calls 9 (9 + (1 : Nat)) = 2 ∧
    2 ≤ 1 * ((1 + window.nanos - 1) / window.nanos + 1) ∧
    ((new 1 window 0).after [9, 10]).Rejects 10 ∧
    1 ≤ ((new 1 window 0).admitted [9, 10]).countP
      fun u : Int => 10 - window.nanos < u ∧ u ≤ 10 := by
  intro window calls
  have hwindow : 0 < window.nanos := by decide
  have hsorted : calls.Pairwise (· ≤ ·) := by decide
  have hstart : ∀ t ∈ calls, 0 ≤ t := by decide
  have hstarts : (new 1 window 0).starts calls = [0, 10] := by decide
  have htwo : (new 1 window 0).admittedWithin calls 9 (9 + (1 : Nat)) = 2 := by decide
  have hrejects : ((new 1 window 0).after [9, 10]).Rejects 10 := by
    show (FixedWindow.allow _ 10).1 = false
    decide
  have hkept := windows_keep_to_limit 1 hwindow 0 calls
  have hbound := hkept.bounded hsorted 9 1
  rw [htwo] at hbound
  exact ⟨hwindow, hsorted, hstart, hstarts, htwo, hbound, hrejects,
    hkept.fair hsorted hstart [9, 10] 10 [] rfl hrejects⟩

end DeviceGateway.FixedWindow
