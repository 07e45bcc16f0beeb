import DeviceGateway.Proofs.Transfer.Reassembly

/-!
# What a framer sends

A source is known by its reads, up to the one that finds its end or fails (`Reads`). How far a framer
over it has got after a number of steps is told by the messages of the transfer alone (`Standing`),
and one step of it gives the next of them, or the end (`Standing.step`). So the messages come out in
order, whether the framer is stepped by hand or driven into a sink, and driving it is handing the
messages to the sink one after another (`drive_of_standing`). What a sink with room for some
messages gets are the first of them (`framer_sends_the_transfer`).
-/

namespace DeviceGateway.Transfer

/-! ## Reads -/

/-- **The reads of a source**, up to the one that finds its end or fails. What stands behind that is
never read. -/
inductive Reads {σ : Type} (read : σ → Except String Bytes × σ) :
    σ → List Bytes → Option String → Prop
  | ended {s s' : σ} (h : read s = (.ok [], s')) : Reads read s [] none
  | failed {s s' : σ} {text : String} (h : read s = (.error text, s')) : Reads read s [] (some text)
  | more {s s' : σ} {bs : Bytes} {reads : List Bytes} {failure : Option String}
      (h : read s = (.ok bs, s')) (hne : bs ≠ []) (hs : Reads read s' reads failure) :
      Reads read s (bs :: reads) failure

/-- A source with a list of reads, a failure or the end behind them, and anything behind that. -/
def Source.listing (reads : List Bytes) (failure : Option String) (behind : Source) : Source :=
  reads.map .data ++ failure.elim (.data []) .fail :: behind

/-- **Any reads of one octet to a whole chunk** are the reads of a source. -/
theorem Source.reads_listing {reads : List Bytes}
    (hreads : ∀ bs ∈ reads, 1 ≤ bs.length ∧ bs.length ≤ chunkSize) (failure : Option String)
    (behind : Source) :
    Reads (Source.read chunkSize) (Source.listing reads failure behind) reads failure := by
  induction reads with
  | nil =>
      cases failure with
      | none => exact .ended rfl
      | some text => exact .failed rfl
  | cons bs reads ih =>
      obtain ⟨hpos, hsize⟩ := hreads bs List.mem_cons_self
      have hread : Source.read chunkSize (Source.listing (bs :: reads) failure behind) =
          (.ok bs, Source.listing reads failure behind) := by
        show Source.read chunkSize (.data bs :: Source.listing reads failure behind) = _
        simp only [Source.read, List.take_of_length_le hsize, List.drop_of_length_le hsize,
          List.isEmpty_nil, if_true]
      refine .more hread ?_ (ih fun c hc => hreads c (List.mem_cons_of_mem _ hc))
      rintro rfl
      simp at hpos

theorem Source.length_le_of_read {limit : Nat} {s s' : Source} {bs : Bytes}
    (h : s.read limit = (.ok bs, s')) : bs.length ≤ limit := by
  cases s with
  | nil =>
      cases h
      exact Nat.zero_le _
  | cons first rest =>
      cases first with
      | fail text => cases h
      | data data =>
          cases h
          exact List.length_take_le _ _

/-- **Every source has its reads**, none of them larger than a chunk. -/
theorem Source.exists_reads (source : Source) :
    ∃ reads failure, Reads (Source.read chunkSize) source reads failure ∧
      ∀ bs ∈ reads, 1 ≤ bs.length ∧ bs.length ≤ chunkSize := by
  induction hn : source.size using Nat.strongRecOn generalizing source with
  | ind n ih =>
      rcases hread : source.read chunkSize with ⟨result, left⟩
      cases result with
      | error text => exact ⟨[], some text, .failed hread, by simp⟩
      | ok bs =>
          by_cases hne : bs = []
          · subst hne
            exact ⟨[], none, .ended hread, by simp⟩
          · have hless : left.size < n := hn ▸ Source.size_read_lt (by decide) hread hne
            obtain ⟨reads, failure, hreads, hsizes⟩ := ih _ hless left rfl
            refine ⟨bs :: reads, failure, .more hread hne hreads, ?_⟩
            intro c hc
            rcases List.mem_cons.1 hc with rfl | hc
            · exact ⟨List.length_pos_iff.2 hne, Source.length_le_of_read hread⟩
            · exact hsizes c hc

/-! ## Steps -/

/-- What a step gives that finds the end of the source, or fails to read it. -/
def ended : Option String → Except GatewayError (Option Bytes)
  | none => .ok none
  | some text => .error (.io text)

/-- What a transfer comes to whose messages were all taken: the octets of its chunks, or the failure
of its source. -/
def total (reads : List Bytes) : Option String → Except GatewayError Nat
  | none => .ok reads.flatten.length
  | some text => .error (.io text)

/-- **What the steps of a framer give**: the messages of the transfer, one by one, then the end, and
nothing after that. -/
def told (declared : Option UInt64) (reads : List Bytes) (failure : Option String) (n : Nat) :
    Except GatewayError (Option Bytes) :=
  match (messages declared reads)[n]? with
  | some m => .ok (some m)
  | none => if n = (messages declared reads).length then ended failure else .ok none

section

variable {σ : Type} {read : σ → Except String Bytes × σ} {declared : Option UInt64}
  {reads : List Bytes} {failure : Option String} {n : Nat} {f : Framer σ}

/-- The framer after some steps, whatever they gave. -/
def Framer.steps (read : σ → Except String Bytes × σ) : Nat → Framer σ → Framer σ
  | 0, f => f
  | n + 1, f => steps read n (f.step read).2

/-- **How far a framer has got** after a number of steps. -/
inductive Standing (read : σ → Except String Bytes × σ) (declared : Option UInt64)
    (reads : List Bytes) (failure : Option String) : Nat → Framer σ → Prop
  | mode {s : σ} (hs : Reads read s reads failure) :
      Standing read declared reads failure 0 (.new declared s)
  | length {size : UInt64} {s : σ} (hd : declared = some size) (hs : Reads read s reads failure) :
      Standing read declared reads failure 1 ⟨.emitLength, declared, some s, 0⟩
  | body {n : Nat} {s : σ} {sent left : List Bytes} (hreads : reads = sent ++ left)
      (hn : n = (header declared).length + sent.length) (hs : Reads read s left failure) :
      Standing read declared reads failure n ⟨.streamBody, declared, some s, sent.flatten.length⟩
  | done {n : Nat} (hn : (messages declared reads).length < n) :
      Standing read declared reads failure n ⟨.done, declared, none, reads.flatten.length⟩

theorem length_messages (declared : Option UInt64) (chunks : List Bytes) :
    (messages declared chunks).length = (header declared).length + chunks.length :=
  List.length_append

theorem told_of_getElem? {m : Bytes} (h : (messages declared reads)[n]? = some m) :
    told declared reads failure n = .ok (some m) := by
  rw [told, h]

theorem told_length :
    told declared reads failure (messages declared reads).length = ended failure := by
  rw [told, List.getElem?_eq_none (Nat.le_refl _)]
  exact if_pos rfl

theorem told_of_lt (h : (messages declared reads).length < n) :
    told declared reads failure n = .ok none := by
  rw [told, List.getElem?_eq_none (Nat.le_of_lt h)]
  exact if_neg (by omega)

/-- The read that comes next is the next message. -/
theorem getElem?_messages {sent left : List Bytes} {bs : Bytes} (h : reads = sent ++ bs :: left) :
    (messages declared reads)[(header declared).length + sent.length]? = some bs := by
  rw [messages, List.getElem?_append_right (Nat.le_add_right _ _), Nat.add_sub_cancel_left, h,
    List.getElem?_append_right (Nat.le_refl _), Nat.sub_self]
  rfl

/-- **One step of a framer** gives what comes next, and no step is ever stuck. -/
theorem Standing.step (h : Standing read declared reads failure n f) :
    (f.step read).1 = told declared reads failure n ∧
      Standing read declared reads failure (n + 1) (f.step read).2 := by
  cases h with
  | @mode s hs =>
      cases declared with
      | none => exact ⟨rfl, .body (List.nil_append reads).symm rfl hs⟩
      | some size => exact ⟨rfl, .length rfl hs⟩
  | @length size s hd hs =>
      subst hd
      exact ⟨rfl, .body (List.nil_append reads).symm rfl hs⟩
  | @body n s sent left hreads hn hs =>
      subst hn
      cases hs with
      | @ended s s' hread =>
          rw [List.append_nil] at hreads
          subst hreads
          have hstep : (Framer.mk .streamBody declared (some s) reads.flatten.length).step read =
              (.ok none, Framer.finish ⟨.streamBody, declared, some s, reads.flatten.length⟩) := by
            simp only [Framer.step, hread]
          rw [hstep, ← length_messages, told_length]
          exact ⟨rfl, .done (Nat.lt_succ_self _)⟩
      | @failed s s' text hread =>
          rw [List.append_nil] at hreads
          subst hreads
          have hstep : (Framer.mk .streamBody declared (some s) reads.flatten.length).step read =
              (.error (.io text),
                Framer.finish ⟨.streamBody, declared, some s, reads.flatten.length⟩) := by
            simp only [Framer.step, hread]
          rw [hstep, ← length_messages, told_length]
          exact ⟨rfl, .done (Nat.lt_succ_self _)⟩
      | @more s s' bs left _ hread hne hs' =>
          have hstep : (Framer.mk .streamBody declared (some s) sent.flatten.length).step read =
              (.ok (some bs),
                ⟨.streamBody, declared, some s', (sent ++ [bs]).flatten.length⟩) := by
            simp only [Framer.step, hread, List.flatten_append, List.length_append,
              List.flatten_singleton]
          rw [hstep, told_of_getElem? (getElem?_messages hreads)]
          refine ⟨rfl, .body ?_ ?_ hs'⟩
          · rw [hreads, List.append_assoc, List.singleton_append]
          · rw [List.length_append, List.length_singleton, Nat.add_assoc]
  | done hn => exact ⟨(told_of_lt hn).symm, .done (Nat.lt_succ_of_lt hn)⟩

theorem Standing.steps (h : Standing read declared reads failure n f) (k : Nat) :
    Standing read declared reads failure (n + k) (f.steps read k) := by
  induction k generalizing n f with
  | zero => exact h
  | succ k ih =>
      have hlater := ih h.step.2
      rwa [Nat.add_assoc, Nat.add_comm 1 k] at hlater

/-- **The octets that were sent in chunks are counted**: those of all reads whose turn has come. -/
theorem Standing.bodyBytes (h : Standing read declared reads failure n f) :
    f.bodyBytes = (reads.take (n - (header declared).length)).flatten.length := by
  cases h with
  | mode hs =>
      rw [Nat.zero_sub]
      rfl
  | length hd hs =>
      subst hd
      rfl
  | body hreads hn hs =>
      rw [hn, Nat.add_sub_cancel_left, hreads, List.take_left]
  | done hn =>
      rw [length_messages] at hn
      rw [List.take_of_length_le (by omega)]

/-- A framer holds its source as long as it is not done. -/
theorem Standing.holdsSource (h : Standing read declared reads failure n f) :
    f.holdsSource = true ↔ f.phase ≠ .done := by
  cases h <;> simp [Framer.holdsSource, Framer.new]

/-- **A framer is done once the end has been told**, and not before. -/
theorem Standing.done_iff (h : Standing read declared reads failure n f) :
    f.phase = .done ↔ (messages declared reads).length < n := by
  rw [length_messages]
  cases h with
  | mode hs => simp [Framer.new]
  | length hd hs =>
      subst hd
      simp [header]
  | body hreads hn hs =>
      simp only [hn, hreads, List.length_append, reduceCtorEq, false_iff]
      omega
  | done hn =>
      rw [length_messages] at hn
      exact iff_of_true rfl hn

end

/-! ## Sinks -/

namespace Framer

variable {τ : Type} {send : τ → Bytes → Except GatewayError τ} {sink : τ} {f f' : Framer Source}
  {e : GatewayError}

theorem drive_of_failure (hstep : f.step (Source.read chunkSize) = (.error e, f')) :
    f.drive send sink = (.error e, sink) := by
  rw [drive]
  split <;> simp_all

theorem drive_of_refusal {m : Bytes}
    (hstep : f.step (Source.read chunkSize) = (.ok (some m), f')) (hsend : send sink m = .error e) :
    f.drive send sink = (.error e, sink) := by
  rw [drive]
  split <;> simp_all

end Framer

/-- **Handing messages to a sink**, one after another, up to the first that it refuses. If it takes
them all, the result is given. -/
def handAll {τ : Type} (send : τ → Bytes → Except GatewayError τ)
    (result : Except GatewayError Nat) : τ → List Bytes → Except GatewayError Nat × τ
  | sink, [] => (result, sink)
  | sink, m :: ms =>
    match send sink m with
    | .error e => (.error e, sink)
    | .ok sink => handAll send result sink ms

section

variable {τ : Type} {send : τ → Bytes → Except GatewayError τ} {declared : Option UInt64}
  {reads : List Bytes} {failure : Option String} {n : Nat} {f : Framer Source}

theorem handAll_of_taken {result : Except GatewayError Nat} {sink sink' : τ} {m : Bytes}
    (h : send sink m = .ok sink') (ms : List Bytes) :
    handAll send result sink (m :: ms) = handAll send result sink' ms := by
  rw [handAll, h]

theorem handAll_of_refused {result : Except GatewayError Nat} {sink : τ} {m : Bytes}
    {e : GatewayError} (h : send sink m = .error e) (ms : List Bytes) :
    handAll send result sink (m :: ms) = (.error e, sink) := by
  rw [handAll, h]

/-- **Driving a framer is handing over the messages** that it has not sent yet, whatever the sink. -/
theorem drive_of_standing
    (h : Standing (Source.read chunkSize) declared reads failure n f) {rest : List Bytes}
    (hrest : (messages declared reads).drop n = rest) (hn : n ≤ (messages declared reads).length)
    (sink : τ) :
    f.drive send sink = handAll send (total reads failure) sink rest := by
  induction rest generalizing n f sink with
  | nil =>
      have hlast : n = (messages declared reads).length :=
        Nat.le_antisymm hn (List.drop_eq_nil_iff.1 hrest)
      obtain ⟨htold, hdone⟩ := h.step
      have hall := hdone.bodyBytes
      rw [List.take_of_length_le (by rw [hlast, length_messages]; omega)] at hall
      rw [hlast, told_length] at htold
      cases failure with
      | none => rw [Framer.drive_of_end (Prod.ext htold rfl), hall, handAll, total]
      | some text => rw [Framer.drive_of_failure (Prod.ext htold rfl), handAll, total]
  | cons m rest ih =>
      have hm : (messages declared reads)[n]? = some m := by
        rw [← List.head?_drop, hrest, List.head?_cons]
      have hlater : (messages declared reads).drop (n + 1) = rest := by
        rw [← List.tail_drop, hrest, List.tail_cons]
      obtain ⟨htold, hnext⟩ := h.step
      rw [told_of_getElem? hm] at htold
      have hstep : f.step (Source.read chunkSize) =
          (.ok (some m), (f.step (Source.read chunkSize)).2) := Prod.ext htold rfl
      cases hsend : send sink m with
      | error e => rw [Framer.drive_of_refusal hstep hsend, handAll_of_refused hsend]
      | ok sink' =>
          rw [Framer.drive_of_message hstep hsend, handAll_of_taken hsend]
          exact ih hnext hlater (List.getElem?_eq_some_iff.1 hm).1 sink'

/-- **A sink with room** for some messages, or for any number if none is given. It keeps them in
order. -/
structure Tray where
  room : Option Nat
  kept : List Bytes
  deriving DecidableEq, Repr

/-- One message is put in, or refused with an error if there is no room left. -/
def Tray.put (e : GatewayError) : Tray → Bytes → Except GatewayError Tray
  | ⟨none, kept⟩, m => .ok ⟨none, kept ++ [m]⟩
  | ⟨some 0, _⟩, _ => .error e
  | ⟨some (k + 1), kept⟩, m => .ok ⟨some k, kept ++ [m]⟩

theorem handAll_unlimited (e : GatewayError) (result : Except GatewayError Nat)
    (kept ms : List Bytes) :
    handAll (Tray.put e) result ⟨none, kept⟩ ms = (result, ⟨none, kept ++ ms⟩) := by
  induction ms generalizing kept with
  | nil => rw [handAll, List.append_nil]
  | cons m ms ih =>
      have hput : Tray.put e ⟨none, kept⟩ m = .ok ⟨none, kept ++ [m]⟩ := rfl
      rw [handAll_of_taken hput, ih, List.append_assoc, List.singleton_append]

/-- All messages fit into the room, or the first of them do and the next one is refused. -/
theorem handAll_limited (e : GatewayError) (result : Except GatewayError Nat) (k : Nat)
    (kept ms : List Bytes) :
    handAll (Tray.put e) result ⟨some k, kept⟩ ms =
      if k < ms.length then (.error e, ⟨some 0, kept ++ ms.take k⟩)
      else (result, ⟨some (k - ms.length), kept ++ ms⟩) := by
  induction ms generalizing k kept with
  | nil => rw [handAll, List.append_nil]; rfl
  | cons m ms ih =>
      cases k with
      | zero =>
          have hput : Tray.put e ⟨some 0, kept⟩ m = .error e := rfl
          rw [handAll_of_refused hput, if_pos (by simp), List.take_zero, List.append_nil]
      | succ k =>
          have hput : Tray.put e ⟨some (k + 1), kept⟩ m = .ok ⟨some k, kept ++ [m]⟩ := rfl
          rw [handAll_of_taken hput]
          simp only [ih, List.length_cons, Nat.add_lt_add_iff_right, List.take_succ_cons,
            Nat.add_sub_add_right, List.append_assoc, List.singleton_append]

end

/-! ## The transfer -/

/-- **What can be seen of a framer** after a number of steps. -/
structure SeenAfter (declared : Option UInt64) (reads : List Bytes) (failure : Option String)
    (n : Nat) (f : Framer Source) : Prop where
  /-- The next step gives what comes next, -/
  next : (f.step (Source.read chunkSize)).1 = told declared reads failure n
  /-- the octets of the chunks that were sent have been counted, -/
  counted : f.bodyBytes = (reads.take (n - (header declared).length)).flatten.length
  /-- the source is held as long as the framer is not done, -/
  holding : f.holdsSource = true ↔ f.phase ≠ .done
  /-- and it is done once all messages were sent and the end was found. -/
  finished : f.phase = .done ↔ (messages declared reads).length < n

/-- **A framer sends the transfer.** Whatever the reads of its source, with or without a failure
behind them, and whatever length is declared: driving it hands the messages of the transfer to the
sink, whatever that is. So a sink with room for some messages gets the first of them, and its error
is the result if there are more. A sink that takes them all gets them all, and the result is the
number of octets read, or the failure. Stepped by hand, the framer gives the same messages. -/
theorem framer_sends_the_transfer (declared : Option UInt64) {source : Source}
    {reads : List Bytes} {failure : Option String}
    (hs : Reads (Source.read chunkSize) source reads failure) :
    (∀ (τ : Type) (send : τ → Bytes → Except GatewayError τ) (sink : τ),
      (Framer.new declared source).drive send sink =
        handAll send (total reads failure) sink (messages declared reads)) ∧
    (∀ (e : GatewayError) (k : Nat),
      (Framer.new declared source).drive (Tray.put e) ⟨some k, []⟩ =
        if k < (messages declared reads).length then
          (.error e, ⟨some 0, (messages declared reads).take k⟩)
        else
          (total reads failure, ⟨some (k - (messages declared reads).length),
            messages declared reads⟩)) ∧
    (∀ e : GatewayError, (Framer.new declared source).drive (Tray.put e) ⟨none, []⟩ =
      (total reads failure, ⟨none, messages declared reads⟩)) ∧
    ∀ n, SeenAfter declared reads failure n
      ((Framer.new declared source).steps (Source.read chunkSize) n) := by
  have hstart : Standing (Source.read chunkSize) declared reads failure 0 (.new declared source) :=
    .mode hs
  have hdrive (τ : Type) (send : τ → Bytes → Except GatewayError τ) (sink : τ) :
      (Framer.new declared source).drive send sink =
        handAll send (total reads failure) sink (messages declared reads) :=
    drive_of_standing hstart List.drop_zero (Nat.zero_le _) sink
  refine ⟨hdrive, fun e k => ?_, fun e => ?_, fun n => ?_⟩
  · rw [hdrive, handAll_limited]
    rfl
  · rw [hdrive, handAll_unlimited]
    rfl
  · have hn := hstart.steps n
    rw [Nat.zero_add] at hn
    exact ⟨hn.step.1, hn.bodyBytes, hn.holdsSource, hn.done_iff⟩

/-- A declared length, two reads and a failure: a sink with room for three messages refuses the
second read, and one with room for all four hears of the failure. So does who steps the framer for
the fifth time, and of nothing after that. -/
theorem four_messages_and_a_failure :
    let source := Source.listing [[1, 2], [3]] (some "disk gone") [.data [4]]
    let framer := Framer.new (some 4) source
    Reads (Source.read chunkSize) source [[1, 2], [3]] (some "disk gone") ∧
    framer.drive (Tray.put .channelClosed) ⟨some 3, []⟩ =
      (.error .channelClosed, ⟨some 0, [[0xAA], [0, 0, 0, 0, 0, 0, 0, 4], [1, 2]]⟩) ∧
    framer.drive (Tray.put .channelClosed) ⟨some 4, []⟩ =
      (.error (.io "disk gone"), ⟨some 0, [[0xAA], [0, 0, 0, 0, 0, 0, 0, 4], [1, 2], [3]]⟩) ∧
    ((framer.steps (Source.read chunkSize) 4).step (Source.read chunkSize)).1 =
      .error (.io "disk gone") ∧
    ((framer.steps (Source.read chunkSize) 5).step (Source.read chunkSize)).1 = .ok none := by
  intro source framer
  have hs : Reads (Source.read chunkSize) source [[1, 2], [3]] (some "disk gone") :=
    Source.reads_listing (by decide) _ _
  obtain ⟨-, hlimited, -, hseen⟩ := framer_sends_the_transfer (some 4) hs
  exact ⟨hs, hlimited .channelClosed 3, hlimited .channelClosed 4, (hseen 4).next, (hseen 5).next⟩

end DeviceGateway.Transfer
