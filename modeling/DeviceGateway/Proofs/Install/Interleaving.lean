import DeviceGateway.Proofs.Install.Staged

/-!
# Installs are atomic

However the operations of transactions come in between each other, each works on a staged file of
its own, so what it does to the disk concerns no other one (`Sound.advance`). Only the last
operation of a commit touches the install directory, and there it puts the whole package in the
place of whatever stood under its name (`Sound.install`). So at every moment the install directory
holds what was there before and the packages that have been committed since
(`installs_are_atomic`).
-/

namespace DeviceGateway.StagingDirectories

variable {d : StagingDirectories} {k : UInt64} {number number' : Option UInt64} {name : String}
  {p : StagedPackage} {data : Bytes} {t t' : Transaction} {w w' : Workspace StagingCounter}
  {touched : Place → Prop}

/-! ## All transactions -/

namespace Installs

theorem getElem?_set_of_some {α : Type} {l : List α} {i : Nat} {a b : α} (hi : l[i]? = some a)
    (j : Nat) : (l.set i b)[j]? = if j = i then some b else l[j]? := by
  obtain ⟨hlt, -⟩ := List.getElem?_eq_some_iff.1 hi
  rw [List.getElem?_set]
  by_cases hj : i = j
  · rw [if_pos hj, if_pos hlt, if_pos hj.symm]
  · rw [if_neg hj, if_neg (Ne.symm hj)]

theorem set_of_some {α : Type} {l : List α} {i : Nat} {a : α} (hi : l[i]? = some a) :
    l.set i a = l := by
  refine List.ext_getElem? fun j => ?_
  rw [getElem?_set_of_some hi]
  split
  · next hj => rw [hj, hi]
  · rfl

theorem getElem?_concat_eq_some_iff {α : Type} {l : List α} {a b : α} {i : Nat} :
    (l ++ [a])[i]? = some b ↔ l[i]? = some b ∨ (i = l.length ∧ b = a) := by
  rw [List.getElem?_append]
  split
  · next hlt =>
    constructor
    · exact .inl
    · rintro (h | ⟨rfl, -⟩)
      · exact h
      · exact absurd hlt (Nat.lt_irrefl _)
  · next hle =>
    rw [List.getElem?_singleton]
    constructor
    · intro h
      split at h
      · cases h
        exact .inr ⟨by omega, rfl⟩
      · cases h
    · rintro (h | ⟨rfl, rfl⟩)
      · obtain ⟨hlt, -⟩ := List.getElem?_eq_some_iff.1 h
        exact absurd hlt hle
      · rw [if_pos (Nat.sub_self _)]

theorem last?_append (d : StagingDirectories) (installed : List (StagedPackage × Bytes))
    (p : StagedPackage) (data : Bytes) (name : String) :
    last? d (installed ++ [(p, data)]) name =
      if p.target = d.targetPath name then some data else last? d installed name := by
  unfold last?
  rw [List.reverse_append, List.reverse_singleton, List.singleton_append, List.find?_cons]
  by_cases h : p.target = d.targetPath name
  · rw [if_pos h, decide_eq_true h]
    rfl
  · rw [if_neg h, decide_eq_false h]

/-- **What the file under a name in the install directory holds**, by what was there at the
beginning and what has been installed since. -/
def expected (d : StagingDirectories) (w : Workspace StagingCounter)
    (installed : List (StagedPackage × Bytes)) (name : String) : Option Bytes :=
  (last? d installed name).or (w.disk.content? (d.installPlace w.disk name))

/-! ### Numbers -/

/-- **The numbers that transactions have taken**: none has been taken twice, and the next one has
not been taken. -/
structure Counted (next : UInt64) (numbers : List (Option UInt64)) : Prop where
  distinct : ∀ (i j : Nat) (k : UInt64), numbers[i]? = some (some k) →
    numbers[j]? = some (some k) → i = j
  below : ∀ (i : Nat) (k : UInt64), numbers[i]? = some (some k) → k < next

variable {next : UInt64} {i : Nat} {numbers : List (Option UInt64)}

theorem Counted.begin (h : Counted next numbers) : Counted next (numbers ++ [none]) := by
  have hbefore : ∀ (i : Nat) (k : UInt64), (numbers ++ [none])[i]? = some (some k) →
      numbers[i]? = some (some k) := by
    intro i k hi
    rcases getElem?_concat_eq_some_iff.1 hi with hi | ⟨-, hnone⟩
    · exact hi
    · cases hnone
  exact ⟨fun i j k hi hj => h.distinct i j k (hbefore i k hi) (hbefore j k hj),
    fun i k hi => h.below i k (hbefore i k hi)⟩

/-- **The next number is taken**, and the counter goes on. -/
theorem Counted.take (h : Counted next numbers) (hi : numbers[i]? = some none)
    (hon : next ≤ next + 1) : Counted (next + 1) (numbers.set i (some next)) := by
  have hlt : next < next + 1 := by grind
  have hfresh : ∀ (j : Nat) (k : UInt64), numbers[j]? = some (some k) → k ≠ next := by
    rintro j k hj rfl
    exact UInt64.lt_irrefl _ (h.below j k hj)
  refine ⟨?_, ?_⟩
  · intro a b k ha hb
    rw [getElem?_set_of_some hi] at ha hb
    by_cases hai : a = i
    · by_cases hbi : b = i
      · rw [hai, hbi]
      · rw [if_pos hai] at ha
        rw [if_neg hbi] at hb
        cases ha
        exact absurd rfl (hfresh b _ hb)
    · rw [if_neg hai] at ha
      by_cases hbi : b = i
      · rw [if_pos hbi] at hb
        cases hb
        exact absurd rfl (hfresh a _ ha)
      · rw [if_neg hbi] at hb
        exact h.distinct a b k ha hb
  · intro a k ha
    rw [getElem?_set_of_some hi] at ha
    split at ha
    · cases ha
      exact hlt
    · exact UInt64.lt_trans (h.below a k ha) hlt

/-! ### The account -/

/-- **The account of all transactions**, from a world on, with the number that each of them has
taken. -/
structure Sound (d : StagingDirectories) (w : Workspace StagingCounter) (s : Installs)
    (numbers : List (Option UInt64)) : Prop where
  tidy : s.world.disk.Tidy
  here : s.world.disk.here = w.disk.here
  stands : ∀ (i : Nat) (t : Transaction), s.transactions[i]? = some t →
    ∃ number, numbers[i]? = some number ∧ Stands d s.world.disk number t
  length : numbers.length = s.transactions.length
  counted : Counted s.world.installs.next numbers
  content : ∀ name, '/' ∉ name.toList →
    s.world.disk.content? (d.installPlace w.disk name) = expected d w s.installed name
  installed : ∀ p data, (p, data) ∈ s.installed ↔
    ∃ i : Nat, s.transactions[i]? = some (.committed p data)

variable {s s' : Installs} {w₀ : Workspace StagingCounter} {label : Option String}

theorem sound_start (ht : w.disk.Tidy) : Sound d w (start w) [] where
  tidy := ht
  here := rfl
  stands i t h := by cases h
  length := rfl
  counted := ⟨fun _ _ _ h => (by cases h), fun _ _ h => (by cases h)⟩
  content name _ := rfl
  installed p data := by
    constructor
    · intro h
      cases h
    · rintro ⟨i, h⟩
      cases h

/-- **Another transaction is begun.** -/
theorem Sound.begin (hs : Sound d w₀ s numbers) :
    Sound d w₀ { s with transactions := s.transactions ++ [.ofBegin (d.begin label)] }
      (numbers ++ [none]) where
  tidy := hs.tidy
  here := hs.here
  stands i t ht := by
    rw [getElem?_concat_eq_some_iff] at ht
    rcases ht with ht | ⟨hi, rfl⟩
    · obtain ⟨number, hn, hstands⟩ := hs.stands i t ht
      exact ⟨number, getElem?_concat_eq_some_iff.2 (.inl hn), hstands⟩
    · exact ⟨none, getElem?_concat_eq_some_iff.2 (.inr ⟨hi.trans hs.length.symm, rfl⟩),
        .beginning (.staging label)⟩
  length := by
    rw [List.length_append, List.length_append, hs.length]
    rfl
  counted := hs.counted.begin
  content := hs.content
  installed p data := by
    rw [hs.installed]
    constructor
    · rintro ⟨i, hi⟩
      exact ⟨i, getElem?_concat_eq_some_iff.2 (.inl hi)⟩
    · rintro ⟨i, hi⟩
      rcases getElem?_concat_eq_some_iff.1 hi with hi | ⟨-, hbegun⟩
      · exact ⟨i, hi⟩
      · cases hbegun

/-- The others stand where they stood, if their staged files are spared. -/
theorem Sound.stands_becomes (hs : Sound d w₀ s numbers) (hi : s.transactions[i]? = some t)
    (hn : numbers[i]? = some number) (hconfined : Confined d touched s.world.disk w'.disk)
    (hfree : ∀ (j : Nat) k name, j ≠ i → numbers[j]? = some (some k) →
      ¬ touched (d.stagedPlace s.world.disk name k))
    (hown : Stands d w'.disk number' t') (j : Nat) {u : Transaction}
    (hu : (s.transactions.set i t')[j]? = some u) :
    ∃ number, (numbers.set i number')[j]? = some number ∧ Stands d w'.disk number u := by
  rw [getElem?_set_of_some hi] at hu
  rw [getElem?_set_of_some hn]
  by_cases hj : j = i
  · rw [if_pos hj] at hu ⊢
    cases hu
    exact ⟨number', rfl, hown⟩
  · rw [if_neg hj] at hu ⊢
    obtain ⟨number, hnumber, hstands⟩ := hs.stands j u hu
    refine ⟨number, hnumber, hstands.spared hconfined fun k name hk => ?_⟩
    exact hfree j k name hj (hk ▸ hnumber)

theorem Sound.directories (hs : Sound d w₀ s numbers)
    (hdirs : w₀.disk.placeOf d.staging ≠ w₀.disk.placeOf d.install) :
    s.world.disk.placeOf d.staging ≠ s.world.disk.placeOf d.install := by
  rwa [Disk.placeOf_of_here hs.here, Disk.placeOf_of_here hs.here]

/-- **An operation of one transaction** keeps the account of all, if it installs nothing. -/
theorem Sound.advance (hs : Sound d w₀ s numbers)
    (hdirs : w₀.disk.placeOf d.staging ≠ w₀.disk.placeOf d.install)
    (hi : s.transactions[i]? = some t) (hn : numbers[i]? = some number)
    (ha : Advances d s.world number w' number' t')
    (hon : s.world.installs.next ≤ w'.installs.next)
    (ht : ∀ p data, t ≠ .committed p data) (ht' : ∀ p data, t' ≠ .committed p data) :
    Sound d w₀ (s.becomes i t' w') (numbers.set i number') := by
  have hfree : ∀ (j : Nat) k name, j ≠ i → numbers[j]? = some (some k) →
      ¬ ∃ k' name', number' = some k' ∧
        d.stagedPlace s.world.disk name k = d.stagedPlace s.world.disk name' k' := by
    rintro j k name hj hk ⟨k', name', hk', hplace⟩
    cases stagedPlace_inj hplace
    -- The number was taken before, or it is the next one; in both cases no other transaction has it.
    rcases ha.counts with ⟨rfl, -⟩ | ⟨-, hnext, -⟩
    · exact hj (hs.counted.distinct j i k hk (hk' ▸ hn))
    · cases hnext.symm.trans hk'
      exact UInt64.lt_irrefl _ (hs.counted.below j _ hk)
  refine ⟨ha.confined.tidy, ha.confined.spares.keeps.here.trans hs.here,
    fun j u => hs.stands_becomes hi hn ha.confined hfree ha.stands j, ?_, ?_, ?_, ?_⟩
  · rw [List.length_set, hs.length]
    exact (List.length_set ..).symm
  · rcases ha.counts with ⟨rfl, hinstalls⟩ | ⟨rfl, rfl, hinstalls⟩
    · show Counted w'.installs.next _
      rw [hinstalls, set_of_some hn]
      exact hs.counted
    · show Counted w'.installs.next _
      rw [hinstalls] at hon ⊢
      exact hs.counted.take hn hon
  · intro name hname
    rw [show (s.becomes i t' w').installed = s.installed from rfl, ← hs.content name hname]
    refine ha.confined.spares.content? ?_
    rintro ⟨k, name', -, hplace⟩
    rw [← installPlace_of_here hs.here] at hplace
    exact installPlace_ne (hs.directories hdirs) hplace
  · intro p data
    rw [show (s.becomes i t' w').installed = s.installed from rfl, hs.installed]
    refine exists_congr fun j => ?_
    show _ ↔ (s.transactions.set i t')[j]? = _
    rw [getElem?_set_of_some hi]
    by_cases hj : j = i
    · rw [if_pos hj, hj, hi]
      exact ⟨fun h => absurd (Option.some.inj h) (ht p data),
        fun h => absurd (Option.some.inj h) (ht' p data)⟩
    · rw [if_neg hj]

/-- **What the install directory holds after a package is installed**: its data under its name, and
what was there under all others. -/
theorem Sound.content_installed (hs : Sound d w₀ s numbers)
    (hdirs : w₀.disk.placeOf d.staging ≠ w₀.disk.placeOf d.install)
    (ha : Installed d s.world k name p data w') {other : String} (hother : '/' ∉ other.toList) :
    w'.disk.content? (d.installPlace w₀.disk other) =
      expected d w₀ (s.installed ++ [(p, data)]) other := by
  have htarget := ha.cleared.target
  rw [expected, last?_append, ← installPlace_of_here hs.here]
  by_cases hsame : p.target = d.targetPath other
  · have hname : name = other :=
      Path.join_inj ha.cleared.proper.no_slash hother (htarget.symm.trans hsame)
    rw [if_pos hsame, ← hname, ha.content]
    rfl
  · have hbefore := hs.content other hother
    rw [expected, ← installPlace_of_here hs.here] at hbefore
    rw [if_neg hsame, ← hbefore]
    refine ha.confined.spares.content? ?_
    rintro (hplace | hplace)
    · exact installPlace_ne (hs.directories hdirs) hplace
    · obtain ⟨-, hlast⟩ := List.append_inj' hplace rfl
      refine hsame ?_
      rw [htarget, (List.cons.inj hlast).1]

/-- **A package is installed**, and the account says so. -/
theorem Sound.install (hs : Sound d w₀ s numbers)
    (hdirs : w₀.disk.placeOf d.staging ≠ w₀.disk.placeOf d.install)
    (hi : s.transactions[i]? = some t) (hn : numbers[i]? = some (some k))
    (ha : Installed d s.world k name p data w') (ht : ∀ p data, t ≠ .committed p data) :
    Sound d w₀
      { s.becomes i (.committed p data) w' with installed := s.installed ++ [(p, data)] }
      (numbers.set i (some k)) := by
  have hfree : ∀ (j : Nat) k' name', j ≠ i → numbers[j]? = some (some k') →
      ¬ (d.stagedPlace s.world.disk name' k' = d.stagedPlace s.world.disk name k ∨
        d.stagedPlace s.world.disk name' k' = d.installPlace s.world.disk name) := by
    rintro j k' name' hj hk (hplace | hplace)
    · cases stagedPlace_inj hplace
      exact hj (hs.counted.distinct j i _ hk hn)
    · exact installPlace_ne (hs.directories hdirs) hplace.symm
  refine ⟨ha.confined.tidy, ha.confined.spares.keeps.here.trans hs.here,
    fun j u => hs.stands_becomes hi hn ha.confined hfree (.committed ha.cleared) j, ?_, ?_, ?_, ?_⟩
  · rw [List.length_set, hs.length]
    exact (List.length_set ..).symm
  · show Counted w'.installs.next _
    rw [ha.installs, set_of_some hn]
    exact hs.counted
  · exact fun other hother => hs.content_installed hdirs ha hother
  · intro q bytes
    rw [List.mem_append, List.mem_singleton, hs.installed]
    show _ ↔ ∃ j : Nat, (s.transactions.set i (.committed p data))[j]? = _
    constructor
    · rintro (⟨j, hj⟩ | heq)
      · refine ⟨j, ?_⟩
        rw [getElem?_set_of_some hi, if_neg]
        · exact hj
        · rintro rfl
          exact ht q bytes (Option.some.inj (hi.symm.trans hj))
      · cases heq
        exact ⟨i, by rw [getElem?_set_of_some hi, if_pos rfl]⟩
    · rintro ⟨j, hj⟩
      rw [getElem?_set_of_some hi] at hj
      split at hj
      · cases hj
        exact .inr rfl
      · exact .inl ⟨j, hj⟩

/-! ### Steps -/

theorem ofBegin_ne_committed (job : Work (Except GatewayError StagedPackage)) :
    Transaction.ofBegin job ≠ .committed p data := by
  unfold Transaction.ofBegin
  split <;> nofun

theorem ofWrite_ne_committed {bytes more : Bytes} {q : StagedPackage}
    (job : Work (Except GatewayError StagedPackage)) :
    Transaction.ofWrite p data more job ≠ .committed q bytes := by
  unfold Transaction.ofWrite
  split <;> nofun

theorem ofCommit_ne_committed {bytes : Bytes} {q : StagedPackage}
    {job : Work (Except GatewayError Unit)} (h : record p data job = []) :
    Transaction.ofCommit p data job ≠ .committed q bytes := by
  unfold Transaction.ofCommit
  split
  · cases h
  · nofun
  · nofun

section

variable (hdirs : w₀.disk.placeOf d.staging ≠ w₀.disk.placeOf d.install) (hs : Sound d w₀ s numbers)
  (hon : s.world.installs.next ≤ s'.world.installs.next)
include hdirs hs hon

/-- **A transaction that is to write** keeps the account. -/
theorem Sound.write {more : Bytes} (h : s.write? i more = some s') :
    ∃ numbers', Sound d w₀ s' numbers' := by
  unfold write? at h
  split at h
  · next hi =>
    obtain ⟨number, hn, hstands⟩ := hs.stands i _ hi
    cases h
    cases hstands with
    | held hh =>
      exact ⟨_, hs.advance hdirs hi hn (.of_same hs.tidy (.writing hh rfl)) hon nofun nofun⟩
  · cases h

/-- **A transaction that is to be committed** keeps the account. -/
theorem Sound.commit (h : s.commit? i = some s') : ∃ numbers', Sound d w₀ s' numbers' := by
  unfold commit? at h
  split at h
  · next hi =>
    obtain ⟨number, hn, hstands⟩ := hs.stands i _ hi
    cases h
    cases hstands with
    | held hh =>
      have ha := Advances.of_same hs.tidy (.committing hh .syncing)
      exact ⟨_, hs.advance hdirs hi hn ha hon nofun nofun⟩
  · cases h

/-- **An operation that is refused** keeps the account. -/
theorem Sound.fail (h : s.fail? i = some s') : ∃ numbers', Sound d w₀ s' numbers' := by
  unfold fail? at h
  split at h
  · next hi =>
    obtain ⟨number, hn, -⟩ := hs.stands i _ hi
    cases h
    exact ⟨_, hs.advance hdirs hi hn (.of_same hs.tidy .refused) hon nofun nofun⟩
  · next hi =>
    obtain ⟨number, hn, hstands⟩ := hs.stands i _ hi
    cases h
    cases hstands with
    | writing hh _ =>
      exact ⟨_, hs.advance hdirs hi hn (.of_same hs.tidy (.held hh)) hon nofun nofun⟩
  · next hi =>
    obtain ⟨number, hn, hstands⟩ := hs.stands i _ hi
    cases h
    cases hstands with
    | committing hh _ =>
      exact ⟨_, hs.advance hdirs hi hn (advances_release hs.tidy hh) hon nofun nofun⟩
  · next hi =>
    obtain ⟨number, hn, hstands⟩ := hs.stands i _ hi
    cases h
    cases hstands with
    | leaving hc _ _ =>
      exact ⟨_, hs.advance hdirs hi hn (.of_same hs.tidy (.givenUp hc)) hon nofun nofun⟩
  · cases h

/-- **A write that stops in the middle** keeps the account. -/
theorem Sound.short {count : Nat} (h : s.short? i count = some s') :
    ∃ numbers', Sound d w₀ s' numbers' := by
  unfold short? at h
  split at h
  · next hi =>
    obtain ⟨number, hn, hstands⟩ := hs.stands i _ hi
    obtain ⟨⟨job', w'⟩, hstep, rfl⟩ := Option.map_eq_some_iff.1 h
    cases hstands with
    | writing hh _ =>
      have ha := advances_write hs.tidy hh hstep
      exact ⟨_, hs.advance hdirs hi hn ha hon nofun fun _ _ => ofWrite_ne_committed job'⟩
  · cases h

/-- **A transaction that is dropped** keeps the account. -/
theorem Sound.drop (h : s.drop? i = some s') : ∃ numbers', Sound d w₀ s' numbers' := by
  unfold drop? at h
  split at h
  · next hi =>
    obtain ⟨number, hn, hstands⟩ := hs.stands i _ hi
    cases h
    cases hstands with
    | held hh => exact ⟨_, hs.advance hdirs hi hn (advances_release hs.tidy hh) hon nofun nofun⟩
  · next hi =>
    obtain ⟨number, hn, hstands⟩ := hs.stands i _ hi
    cases h
    cases hstands with
    | writing hh hjob =>
      obtain ⟨heffect, rfl⟩ := leftover_of_write hjob
      exact ⟨_, hs.advance hdirs hi hn (advances_leave hs.tidy hh heffect) hon nofun nofun⟩
  · next hi =>
    obtain ⟨number, hn, hstands⟩ := hs.stands i _ hi
    cases h
    cases hstands with
    | committing hh hjob =>
      obtain ⟨heffect, rfl⟩ := leftover_of_commits hjob
      exact ⟨_, hs.advance hdirs hi hn (advances_leave hs.tidy hh heffect) hon nofun nofun⟩
  · cases h

/-- **The next operation of a transaction** keeps the account. -/
theorem Sound.go (hprocess : '/' ∉ d.process.toList) (h : s.go? i = some s') :
    ∃ numbers', Sound d w₀ s' numbers' := by
  unfold go? at h
  split at h
  · next job hi =>
    obtain ⟨number, hn, hstands⟩ := hs.stands i _ hi
    obtain ⟨⟨job', w'⟩, hstep, rfl⟩ := Option.map_eq_some_iff.1 h
    cases hstands with
    | beginning hjob =>
      obtain ⟨number', ha⟩ := advances_begin hprocess hs.tidy hjob hstep
      exact ⟨_, hs.advance hdirs hi hn ha hon nofun fun _ _ => ofBegin_ne_committed job'⟩
  · next p data more job hi =>
    obtain ⟨number, hn, hstands⟩ := hs.stands i _ hi
    obtain ⟨⟨job', w'⟩, hstep, rfl⟩ := Option.map_eq_some_iff.1 h
    cases hstands with
    | writing hh hjob =>
      subst hjob
      have ha := advances_write hs.tidy hh hstep
      exact ⟨_, hs.advance hdirs hi hn ha hon nofun fun _ _ => ofWrite_ne_committed job'⟩
  · next p data job hi =>
    obtain ⟨number, hn, hstands⟩ := hs.stands i _ hi
    obtain ⟨⟨job', w'⟩, hstep, rfl⟩ := Option.map_eq_some_iff.1 h
    cases hstands with
    | @committing k _ _ _ _ hh hjob =>
      rcases commit_cases (hs.directories hdirs) hs.tidy hh hjob hstep with
        ⟨hinstalled, rfl⟩ | ⟨ha, hrecord⟩
      · exact ⟨_, hs.install hdirs hi hn hinstalled nofun⟩
      · refine ⟨numbers.set i (some k), ?_⟩
        simp only [hrecord, List.append_nil]
        exact hs.advance hdirs hi hn ha hon nofun fun _ _ => ofCommit_ne_committed hrecord
  · next p effect hi =>
    obtain ⟨number, hn, hstands⟩ := hs.stands i _ hi
    cases h
    cases hstands with
    | leaving hcleared horphan heffect =>
      have ha := advances_leftover hs.tidy hcleared horphan heffect
      exact ⟨_, hs.advance hdirs hi hn ha hon nofun nofun⟩
  · cases h

/-- **Every step keeps the account.** -/
theorem Sound.step (hprocess : '/' ∉ d.process.toList) {m : Move} (h : s.step? d m = some s') :
    ∃ numbers', Sound d w₀ s' numbers' := by
  cases m with
  | begin label =>
      cases h
      exact ⟨_, hs.begin⟩
  | write i more => exact hs.write hdirs hon h
  | commit i => exact hs.commit hdirs hon h
  | drop i => exact hs.drop hdirs hon h
  | go i => exact hs.go hdirs hon hprocess h
  | fail i => exact hs.fail hdirs hon h
  | short i count => exact hs.short hdirs hon h

end

/-- **A whole run keeps the account**, if the counter goes on in it. -/
theorem sound_of_run? (hprocess : '/' ∉ d.process.toList)
    (hdirs : w₀.disk.placeOf d.staging ≠ w₀.disk.placeOf d.install) {ms : List Move}
    (hs : Sound d w₀ s numbers) (hcount : s.countsOn d ms = true) (h : s.run? d ms = some s') :
    ∃ numbers', Sound d w₀ s' numbers' := by
  induction ms generalizing s numbers with
  | nil =>
      cases h
      exact ⟨numbers, hs⟩
  | cons m ms ih =>
      obtain ⟨s₁, hstep, hrest⟩ := Option.bind_eq_some_iff.1 h
      rw [countsOn, hstep, Bool.and_eq_true, decide_eq_true_eq] at hcount
      obtain ⟨numbers₁, hs₁⟩ := hs.step hdirs hcount.1 hprocess hstep
      exact ih hs₁ hcount.2 hrest

/-! ## What may be relied on -/

/-- **What transactions come to** that began on a world. -/
structure Atomic (d : StagingDirectories) (w : Workspace StagingCounter) (s : Installs) : Prop where
  /-- No two of them have one staged file. -/
  apart : ∀ (i j : Nat) (t u : Transaction) (p q : StagedPackage), i ≠ j →
    s.transactions[i]? = some t → s.transactions[j]? = some u →
    t.package? = some p → u.package? = some q → p.staged ≠ q.staged
  /-- A file in the install directory holds what was installed last under its name, or what was
  there at the beginning. -/
  content : ∀ name, '/' ∉ name.toList →
    s.world.disk.content? (d.installPlace w.disk name) =
      (last? d s.installed name).or (w.disk.content? (d.installPlace w.disk name))
  /-- What has been installed are the packages that are committed, each with all its data. -/
  installed : ∀ p data, (p, data) ∈ s.installed ↔
    ∃ i : Nat, s.transactions[i]? = some (.committed p data)
  /-- Nothing has been installed by a transaction that was dropped, or whose commit failed. -/
  dropped : ∀ (i : Nat) (t : Transaction) (p : StagedPackage), s.transactions[i]? = some t →
    t.package? = some p → (∀ data, t ≠ .committed p data) → ∀ data, (p, data) ∉ s.installed
  /-- There is no staged file of a transaction that is over. -/
  cleared : ∀ (i : Nat) (t : Transaction) (p : StagedPackage), s.transactions[i]? = some t →
    t.package? = some p → t.isResolved = true → s.world.disk.pathExists p.staged = false

theorem Sound.apart (hs : Sound d w₀ s numbers) (hprocess : '/' ∉ d.process.toList) {i j : Nat}
    {t u : Transaction} {p q : StagedPackage} (hi : s.transactions[i]? = some t)
    (hj : s.transactions[j]? = some u) (hp : t.package? = some p) (hq : u.package? = some q)
    (h : p.staged = q.staged) : i = j := by
  obtain ⟨number, hn, hstands⟩ := hs.stands i t hi
  obtain ⟨k, name, rfl, hstages⟩ := hstands.stages hp
  obtain ⟨number', hn', hstands'⟩ := hs.stands j u hj
  obtain ⟨k', name', rfl, hstages'⟩ := hstands'.stages hq
  rw [hstages.staged, hstages'.staged] at h
  cases stagedPath_inj hprocess hstages.proper hstages'.proper h
  exact hs.counted.distinct i j k hn hn'

theorem Sound.atomic (hs : Sound d w₀ s numbers) (hprocess : '/' ∉ d.process.toList) :
    Atomic d w₀ s where
  apart i j t u p q hne hi hj hp hq h := hne (hs.apart hprocess hi hj hp hq h)
  content := hs.content
  installed := hs.installed
  dropped i t p hi hp ht data hmem := by
    obtain ⟨j, hj⟩ := (hs.installed p data).1 hmem
    cases hs.apart hprocess hi hj hp rfl rfl
    exact ht data (Option.some.inj (hi.symm.trans hj))
  cleared i t p hi hp hr := by
    obtain ⟨number, -, hstands⟩ := hs.stands i t hi
    obtain ⟨k, name, hcleared⟩ := hstands.cleared hp hr
    rw [Disk.pathExists_of_filePlace? hcleared.named, hcleared.gone]
    rfl

end Installs

end DeviceGateway.StagingDirectories
