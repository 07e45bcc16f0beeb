import DeviceGateway.Transfer.Receiver

/-!
# The grammar of transfers

A transfer is a mode octet, a length if the mode says so, and chunks (`Word`). A receiver is told
anything, and what it takes of that is at every point the beginning of such a word: where it stands
follows from the messages that it took (`ReadTo`), the ones that it refused left no trace
(`step_refused`), and it takes the next one exactly if the two go on to be the beginning of a word
(`fits_iff`). So a receiver reads the grammar through whatever comes in between
(`receiver_reads_the_grammar`).
-/

namespace DeviceGateway.Transfer

/-- **The words of the grammar.** -/
inductive Word : List Bytes → Prop
  | declared {length : Bytes} {chunks : List Bytes} (hl : length.length = 8)
      (hc : ∀ c ∈ chunks, c.length ≤ 4096) : Word ([0xAA] :: length :: chunks)
  | undeclared {chunks : List Bytes} (hc : ∀ c ∈ chunks, c.length ≤ 4096) : Word ([0xBB] :: chunks)

/-- **The beginnings of words.** -/
def IsBeginning (ms : List Bytes) : Prop := ∃ w, Word w ∧ ms <+: w

/-- The chunks in the beginning of a word: all that comes behind its header. -/
def chunksOf (ms : List Bytes) : List Bytes := ms.drop (if ms.head? = some [0xAA] then 2 else 1)

/-- **A whole transfer** of a number of octets: the header is there, and a length that it declares is
that number. -/
def IsWhole (ms : List Bytes) (n : Nat) : Prop :=
  (∃ length chunks, ms = [0xAA] :: length :: chunks ∧ chunks.flatten.length = n ∧
    Bytes.toNatBE length = n) ∨
  ∃ chunks, ms = [0xBB] :: chunks ∧ chunks.flatten.length = n

namespace Receiver

/-- The receiver after some messages, those included that it refused. -/
def after (r : Receiver) (ms : List Bytes) : Receiver := ms.foldl (fun r m => (r.step m).2) r

/-- **The messages that a receiver takes**, told some messages one after another. -/
def taken : Receiver → List Bytes → List Bytes
  | _, [] => []
  | r, m :: ms => if (r.step m).1.isOk then m :: taken (r.step m).2 ms else taken (r.step m).2 ms

/-- **What a receiver hands back** while it is told some messages. -/
def handedBack : Receiver → List Bytes → List Bytes
  | _, [] => []
  | r, m :: ms =>
    match r.step m with
    | (.ok (some chunk), r) => chunk :: handedBack r ms
    | (_, r) => handedBack r ms

/-- Whether a message is what the receiver waits for. -/
def Fits (r : Receiver) (m : Bytes) : Prop :=
  match r.awaiting with
  | .mode => m = [declaredMode] ∨ m = [undeclaredMode]
  | .length => m.length = Transfer.lengthSize
  | .chunk => m.length ≤ Transfer.chunkSize

instance (r : Receiver) (m : Bytes) : Decidable (r.Fits m) :=
  match r with
  | ⟨.mode, _, _⟩ => inferInstanceAs (Decidable (_ ∨ _))
  | ⟨.length, _, _⟩ => inferInstanceAs (Decidable (_ = _))
  | ⟨.chunk, _, _⟩ => inferInstanceAs (Decidable (_ ≤ _))

variable {r r' : Receiver} {m : Bytes} {ms front : List Bytes} {n : Nat}

/-! ## One message -/

/-- **What a receiver says to a message**, by what it waits for. -/
theorem step_cases (r : Receiver) (m : Bytes) :
    (r.awaiting = .mode ∧ m = [declaredMode] ∧
      r.step m = (.ok none, { r with awaiting := .length })) ∨
    (r.awaiting = .mode ∧ m = [undeclaredMode] ∧
      r.step m = (.ok none, { r with awaiting := .chunk })) ∨
    (r.awaiting = .length ∧ m.length = Transfer.lengthSize ∧ r.step m = (.ok none,
      { r with awaiting := .chunk, declared := some (UInt64.ofNat (Bytes.toNatBE m)) })) ∨
    (r.awaiting = .chunk ∧ m.length ≤ Transfer.chunkSize ∧
      r.step m = (.ok (some m), { r with received := r.received + m.length })) ∨
    (¬ r.Fits m ∧ ∃ fault, r.step m = (.error fault, r)) := by
  obtain ⟨awaiting, declared, received⟩ := r
  cases awaiting with
  | mode =>
      by_cases hd : m = [declaredMode]
      · subst hd
        exact Or.inl ⟨rfl, rfl, rfl⟩
      by_cases hu : m = [undeclaredMode]
      · subst hu
        exact Or.inr (Or.inl ⟨rfl, rfl, rfl⟩)
      refine Or.inr (Or.inr (Or.inr (Or.inr ⟨fun h => h.elim hd hu, ?_⟩)))
      -- One octet that is no mode, or not one octet.
      rcases m with _ | ⟨b, _ | ⟨c, m⟩⟩
      · exact ⟨_, rfl⟩
      · have hb : b ≠ declaredMode ∧ b ≠ undeclaredMode := by simpa using And.intro hd hu
        exact ⟨_, (if_neg hb.1).trans (if_neg hb.2)⟩
      · exact ⟨_, rfl⟩
  | length =>
      by_cases hl : m.length = Transfer.lengthSize
      · exact Or.inr (Or.inr (Or.inl ⟨rfl, hl, if_pos hl⟩))
      · exact Or.inr (Or.inr (Or.inr (Or.inr ⟨hl, _, if_neg hl⟩)))
  | chunk =>
      by_cases hc : m.length ≤ Transfer.chunkSize
      · exact Or.inr (Or.inr (Or.inr (Or.inl ⟨rfl, hc, if_pos hc⟩)))
      · exact Or.inr (Or.inr (Or.inr (Or.inr ⟨hc, _, if_neg hc⟩)))

/-- **A message that is refused leaves no trace.** -/
theorem step_refused {fault : Fault} (h : (r.step m).1 = .error fault) : (r.step m).2 = r := by
  rcases step_cases r m with ⟨-, -, hs⟩ | ⟨-, -, hs⟩ | ⟨-, -, hs⟩ | ⟨-, -, hs⟩ | ⟨-, _, hs⟩
  · rw [hs] at h; cases h
  · rw [hs] at h; cases h
  · rw [hs] at h; cases h
  · rw [hs] at h; cases h
  · rw [hs]

/-- **The end of the messages is right** behind the header, if the declared length is the size of the
body. -/
theorem finish_eq_ok_iff {r : Receiver} {n : Nat} :
    r.finish = .ok n ↔
      r.awaiting = .chunk ∧ n = r.received ∧ ∀ k, r.declared = some k → k.toNat = r.received := by
  obtain ⟨awaiting, declared, received⟩ := r
  unfold finish
  cases awaiting with
  | mode => simp
  | length => simp
  | chunk =>
      cases declared with
      | none => simp [eq_comm]
      | some k =>
          by_cases hk : k.toNat = received
          · simp [hk, eq_comm]
          · simp [hk]

/-! ## Where a receiver stands -/

/-- **A receiver that has taken some messages.** -/
inductive ReadTo : List Bytes → Receiver → Prop
  | start : ReadTo [] new
  | mode : ReadTo [[0xAA]] ⟨.length, none, 0⟩
  | declared {length : Bytes} {chunks : List Bytes} (hl : length.length = 8)
      (hc : ∀ c ∈ chunks, c.length ≤ 4096) :
      ReadTo ([0xAA] :: length :: chunks)
        ⟨.chunk, some (UInt64.ofNat (Bytes.toNatBE length)), chunks.flatten.length⟩
  | undeclared {chunks : List Bytes} (hc : ∀ c ∈ chunks, c.length ≤ 4096) :
      ReadTo ([0xBB] :: chunks) ⟨.chunk, none, chunks.flatten.length⟩

theorem chunksOf_declared (length : Bytes) (chunks : List Bytes) :
    chunksOf ([0xAA] :: length :: chunks) = chunks := by
  simp [chunksOf]

theorem chunksOf_undeclared (chunks : List Bytes) : chunksOf ([0xBB] :: chunks) = chunks := by
  simp [chunksOf]

theorem length_le_of_mem_snoc {chunks : List Bytes} (hc : ∀ c ∈ chunks, c.length ≤ 4096)
    (hm : m.length ≤ 4096) : ∀ c ∈ chunks ++ [m], c.length ≤ 4096 := by
  intro c h
  rcases List.mem_append.1 h with h | h
  · exact hc c h
  · rwa [List.mem_singleton.1 h]

/-- What was taken is the beginning of a word. -/
theorem ReadTo.isBeginning (h : ReadTo ms r) : IsBeginning ms := by
  cases h with
  | start => exact ⟨_, @Word.undeclared [] (by simp), List.nil_prefix⟩
  | mode =>
      exact ⟨_, @Word.declared (List.replicate 8 0) [] (by simp) (by simp), ⟨_, rfl⟩⟩
  | declared hl hc => exact ⟨_, .declared hl hc, List.prefix_refl _⟩
  | undeclared hc => exact ⟨_, .undeclared hc, List.prefix_refl _⟩

/-- **What fits is what goes on with the word.** -/
theorem ReadTo.fits_iff (h : ReadTo ms r) : r.Fits m ↔ IsBeginning (ms ++ [m]) := by
  have hmodes : ([0xAA] : Bytes) ≠ [0xBB] := by decide
  cases h with
  | start =>
      constructor
      · rintro (rfl | rfl)
        · exact ReadTo.mode.isBeginning
        · exact (@ReadTo.undeclared [] (by simp)).isBeginning
      · rintro ⟨w, hw, hp⟩
        cases hw with
        | declared => exact Or.inl (List.cons_prefix_cons.1 hp).1
        | undeclared => exact Or.inr (List.cons_prefix_cons.1 hp).1
  | mode =>
      constructor
      · intro hl
        exact ⟨_, @Word.declared m [] hl (by simp), List.prefix_refl _⟩
      · rintro ⟨w, hw, hp⟩
        cases hw with
        | declared hl =>
            have hlength := (List.cons_prefix_cons.1 hp).2
            exact (List.cons_prefix_cons.1 hlength).1 ▸ hl
        | undeclared => exact absurd (List.cons_prefix_cons.1 hp).1 hmodes
  | declared hl hc =>
      constructor
      · intro hm
        exact ⟨_, .declared hl (length_le_of_mem_snoc hc hm), List.prefix_refl _⟩
      · rintro ⟨w, hw, hp⟩
        cases hw with
        | declared _ hc' =>
            have hlength := (List.cons_prefix_cons.1 hp).2
            have hchunks := (List.cons_prefix_cons.1 hlength).2
            exact hc' m (hchunks.subset (List.mem_append_right _ List.mem_cons_self))
        | undeclared => exact absurd (List.cons_prefix_cons.1 hp).1 hmodes
  | undeclared hc =>
      constructor
      · intro hm
        exact ⟨_, .undeclared (length_le_of_mem_snoc hc hm), List.prefix_refl _⟩
      · rintro ⟨w, hw, hp⟩
        cases hw with
        | declared => exact absurd (List.cons_prefix_cons.1 hp).1.symm hmodes
        | undeclared hc' =>
            have hchunks := (List.cons_prefix_cons.1 hp).2
            exact hc' m (hchunks.subset (List.mem_append_right _ List.mem_cons_self))

/-- **What fits is taken**, and handed back if it is a chunk. -/
theorem ReadTo.step (h : ReadTo ms r) (hf : r.Fits m) :
    ∃ back r', r.step m = (.ok back, r') ∧ ReadTo (ms ++ [m]) r' ∧
      chunksOf (ms ++ [m]) = chunksOf ms ++ back.toList := by
  cases h with
  | start =>
      rcases hf with rfl | rfl
      · exact ⟨none, _, rfl, .mode, rfl⟩
      · exact ⟨none, _, rfl, @ReadTo.undeclared [] (by simp), rfl⟩
  | mode => exact ⟨none, _, if_pos hf, @ReadTo.declared m [] hf (by simp), rfl⟩
  | @declared length chunks hl hc =>
      refine ⟨some m, _, if_pos hf, ?_, ?_⟩
      · have hread := ReadTo.declared hl (length_le_of_mem_snoc hc hf)
        rwa [List.flatten_append, List.length_append, List.flatten_singleton] at hread
      · rw [List.cons_append, List.cons_append, chunksOf_declared, chunksOf_declared]
        rfl
  | @undeclared chunks hc =>
      refine ⟨some m, _, if_pos hf, ?_, ?_⟩
      · have hread := ReadTo.undeclared (length_le_of_mem_snoc hc hf)
        rwa [List.flatten_append, List.length_append, List.flatten_singleton] at hread
      · rw [List.cons_append, chunksOf_undeclared, chunksOf_undeclared]
        rfl

/-- What does not fit is refused. -/
theorem step_of_not_fits (hf : ¬ r.Fits m) : ∃ fault, r.step m = (.error fault, r) := by
  unfold Fits at hf
  rcases step_cases r m with ⟨hr, hm, -⟩ | ⟨hr, hm, -⟩ | ⟨hr, hm, -⟩ | ⟨hr, hm, -⟩ | ⟨-, h⟩
  · rw [hr] at hf
    exact absurd (Or.inl hm) hf
  · rw [hr] at hf
    exact absurd (Or.inr hm) hf
  · rw [hr] at hf
    exact absurd hm hf
  · rw [hr] at hf
    exact absurd hm hf
  · exact h

/-- **The end is right where a transfer is whole.** -/
theorem ReadTo.finish_iff (h : ReadTo ms r) : r.finish = .ok n ↔ IsWhole ms n := by
  rw [finish_eq_ok_iff]
  cases h with
  | start => simp [IsWhole, new]
  | mode => simp [IsWhole]
  | @declared length chunks hl hc =>
      have hlt : Bytes.toNatBE length < UInt64.size := by
        have hbound := Bytes.toNatBE_lt length
        rwa [hl] at hbound
      have hread : (UInt64.ofNat (Bytes.toNatBE length)).toNat = Bytes.toNatBE length :=
        UInt64.toNat_ofNat_of_lt' hlt
      constructor
      · rintro ⟨-, rfl, hdeclared⟩
        exact Or.inl ⟨length, chunks, rfl, rfl, hread ▸ hdeclared _ rfl⟩
      · rintro (⟨_, _, heq, rfl, hsize⟩ | ⟨_, heq, -⟩)
        · cases heq
          exact ⟨rfl, rfl, fun k hk => Option.some.inj hk ▸ hread.trans hsize⟩
        · exact absurd (List.cons.inj heq).1 (by decide)
  | @undeclared chunks hc =>
      constructor
      · rintro ⟨-, rfl, -⟩
        exact Or.inr ⟨chunks, rfl, rfl⟩
      · rintro (⟨_, _, heq, -, -⟩ | ⟨_, heq, rfl⟩)
        · exact absurd (List.cons.inj heq).1 (by decide)
        · cases heq
          exact ⟨rfl, rfl, fun k hk => by cases hk⟩

/-! ## Any messages -/

theorem taken_cons (r : Receiver) (m : Bytes) (ms : List Bytes) :
    r.taken (m :: ms) =
      if (r.step m).1.isOk then m :: (r.step m).2.taken ms else (r.step m).2.taken ms := rfl

theorem after_cons (r : Receiver) (m : Bytes) (ms : List Bytes) :
    r.after (m :: ms) = (r.step m).2.after ms := rfl

/-- The messages that were refused do not matter to the receiver. -/
theorem after_taken (r : Receiver) (ms : List Bytes) : r.after (r.taken ms) = r.after ms := by
  induction ms generalizing r with
  | nil => rfl
  | cons m ms ih =>
      rw [taken_cons, after_cons]
      cases hs : (r.step m).1 with
      | ok back => exact ih (r.step m).2
      | error fault =>
          rw [step_refused hs]
          exact ih r

/-- What was taken is taken again. -/
theorem taken_taken (r : Receiver) (ms : List Bytes) : r.taken (r.taken ms) = r.taken ms := by
  induction ms generalizing r with
  | nil => rfl
  | cons m ms ih =>
      rw [taken_cons]
      cases hs : (r.step m).1 with
      | ok back =>
          show r.taken (m :: (r.step m).2.taken ms) = _
          rw [taken_cons, hs]
          exact congrArg (m :: ·) (ih (r.step m).2)
      | error fault =>
          rw [step_refused hs]
          exact ih r

theorem taken_sublist (r : Receiver) (ms : List Bytes) : (r.taken ms).Sublist ms := by
  induction ms generalizing r with
  | nil => exact .slnil
  | cons m ms ih =>
      rw [taken_cons]
      split
      · exact (ih _).cons_cons m
      · exact (ih _).cons m

/-- **Told any messages, a receiver goes on from where it stands** with those that it takes, and hands
back the chunks among them. -/
theorem ReadTo.run (h : ReadTo front r) (ms : List Bytes) :
    ReadTo (front ++ r.taken ms) (r.after ms) ∧
      chunksOf (front ++ r.taken ms) = chunksOf front ++ r.handedBack ms := by
  induction ms generalizing r front with
  | nil =>
      rw [taken, handedBack, List.append_nil, List.append_nil]
      exact ⟨h, rfl⟩
  | cons m ms ih =>
      rw [taken_cons, after_cons, handedBack]
      by_cases hf : r.Fits m
      · obtain ⟨back, r', hs, hread, hchunks⟩ := h.step hf
        obtain ⟨hlater, hback⟩ := ih hread
        rw [hs]
        simp only [Except.isOk, Except.toBool, if_true]
        rw [List.append_assoc, List.singleton_append] at hlater hback
        refine ⟨hlater, ?_⟩
        rw [hback, hchunks, List.append_assoc]
        cases back <;> rfl
      · obtain ⟨fault, hs⟩ := step_of_not_fits hf
        rw [hs]
        exact ih h

end Receiver

/-- **How a receiver reads the grammar**: told some messages, it takes some of them and stands
somewhere. -/
structure ReadsGrammar (ms taken : List Bytes) (r : Receiver) : Prop where
  /-- It stands where the messages that it took lead, all of which it would take again, -/
  state : taken.Sublist ms ∧ r = Receiver.new.after taken ∧ Receiver.new.taken taken = taken
  /-- a message that it refuses leaves it as it is, -/
  refusal : ∀ m fault, (r.step m).1 = .error fault → (r.step m).2 = r
  /-- and those that it took are the beginning of a word. -/
  beginning : IsBeginning taken
  /-- It takes exactly the messages that go on with the word, -/
  accepts : ∀ m, (∃ back, (r.step m).1 = .ok back) ↔ IsBeginning (taken ++ [m])
  /-- has handed back exactly the chunks, -/
  chunks : Receiver.new.handedBack ms = chunksOf taken
  /-- and is content with the end exactly if the transfer is whole. -/
  finish : ∀ n, r.finish = .ok n ↔ IsWhole taken n

/-- **A receiver reads the grammar of transfers**, whatever it is told in between. -/
theorem receiver_reads_the_grammar (ms : List Bytes) :
    ReadsGrammar ms (Receiver.new.taken ms) (Receiver.new.after ms) := by
  obtain ⟨hread, hchunks⟩ := Receiver.ReadTo.start.run ms
  rw [List.nil_append] at hread hchunks
  refine ⟨⟨Receiver.taken_sublist _ _, (Receiver.after_taken _ _).symm, Receiver.taken_taken _ _⟩,
    fun m fault => Receiver.step_refused, hread.isBeginning, fun m => ?_, hchunks.symm,
    fun n => hread.finish_iff⟩
  rw [← hread.fits_iff]
  constructor
  · rintro ⟨back, hs⟩
    refine Decidable.byContradiction fun hf => ?_
    obtain ⟨fault, hrefused⟩ := Receiver.step_of_not_fits hf
    rw [hrefused] at hs
    cases hs
  · intro hf
    obtain ⟨back, r', hs, -⟩ := hread.step hf
    exact ⟨back, by rw [hs]⟩

/-- A mode that is none, a length of three octets, and an empty chunk. -/
example :
    Receiver.new.taken [[0x42], [0xAA], [0, 1, 2], [0, 0, 0, 0, 0, 0, 0, 2], [7], [], [8]] =
      [[0xAA], [0, 0, 0, 0, 0, 0, 0, 2], [7], [], [8]] := by
  decide

end DeviceGateway.Transfer
