import DeviceGateway.Client.Exchange

/-!
# Transfers of known data

Data that is there as a whole travels in a header that declares its length and in pieces that are as
large as they may be (`Transfer.messagesFor`). The receiver takes these messages one after the
other, spoils at none of them, and hands back the data (`Answer.transfer_of_messages`).
-/

namespace DeviceGateway

namespace Transfer

/-- **Data in pieces**, all but the last as large as they may be. -/
def pieces (data : Bytes) : List Bytes :=
  if data = [] then [] else data.take chunkSize :: pieces (data.drop chunkSize)
termination_by data.length
decreasing_by
  next h =>
  have := List.length_pos_iff.2 h
  rw [List.length_drop, chunkSize]
  omega

@[simp] theorem pieces_nil : pieces [] = [] := by
  rw [pieces, if_pos rfl]

theorem pieces_of_ne_nil {data : Bytes} (h : data ≠ []) :
    pieces data = data.take chunkSize :: pieces (data.drop chunkSize) := by
  rw [pieces, if_neg h]

theorem length_drop_lt {data : Bytes} (h : data ≠ []) :
    (data.drop chunkSize).length < data.length := by
  have := List.length_pos_iff.2 h
  rw [List.length_drop, chunkSize]
  omega

theorem flatten_pieces (data : Bytes) : (pieces data).flatten = data := by
  induction hn : data.length using Nat.strongRecOn generalizing data with
  | ind n ih =>
      by_cases h : data = []
      · rw [h, pieces_nil, List.flatten_nil]
      · rw [pieces_of_ne_nil h, List.flatten_cons, ih _ (hn ▸ length_drop_lt h) _ rfl,
          List.take_append_drop]

theorem length_le_of_mem_pieces {data m : Bytes} (hm : m ∈ pieces data) :
    m.length ≤ chunkSize := by
  induction hn : data.length using Nat.strongRecOn generalizing data with
  | ind n ih =>
      by_cases h : data = []
      · rw [h, pieces_nil] at hm
        cases hm
      · rw [pieces_of_ne_nil h] at hm
        rcases List.mem_cons.1 hm with rfl | hm
        · exact List.length_take_le _ _
        · exact ih _ (hn ▸ length_drop_lt h) hm rfl

/-- The length that is declared of some data. -/
def declaredLength (data : Bytes) : UInt64 := UInt64.ofNat data.length

/-- **The messages in which data travels.** -/
def messagesFor (data : Bytes) : List Bytes :=
  messages (some (declaredLength data)) (pieces data)

theorem messagesFor_eq (data : Bytes) :
    messagesFor data =
      [declaredMode] :: Bytes.ofNatBE lengthSize (declaredLength data).toNat :: pieces data := rfl

theorem length_le_of_mem_messagesFor {data m : Bytes} (hm : m ∈ messagesFor data) :
    m.length ≤ chunkSize := by
  rw [messagesFor_eq] at hm
  rcases List.mem_cons.1 hm with rfl | hm
  · exact Nat.le_of_ble_eq_true rfl
  rcases List.mem_cons.1 hm with rfl | hm
  · rw [Bytes.length_ofNatBE]
    exact Nat.le_of_ble_eq_true rfl
  · exact length_le_of_mem_pieces hm

theorem ne_nil_of_mem_pieces {data m : Bytes} (hm : m ∈ pieces data) : m ≠ [] := by
  induction hn : data.length using Nat.strongRecOn generalizing data with
  | ind n ih =>
      by_cases h : data = []
      · rw [h, pieces_nil] at hm
        cases hm
      · rw [pieces_of_ne_nil h] at hm
        rcases List.mem_cons.1 hm with rfl | hm
        · have hpos := List.length_pos_iff.2 h
          rw [← List.length_pos_iff, List.length_take, chunkSize]
          omega
        · exact ih _ (hn ▸ length_drop_lt h) hm rfl

/-! ### The form of a transfer -/

/-- **The messages of a transfer of data**: a mark, the length of the data, and the data in chunks. -/
def IsTransfer (data : Bytes) (ms : List Bytes) : Prop :=
  ∃ chunks, ms = [0xAA] :: Bytes.ofNatBE 8 data.length :: chunks ∧ chunks.flatten = data ∧
    ∀ c ∈ chunks, c ≠ [] ∧ c.length ≤ 4096

/-- Digits beyond those that are written do not matter. -/
theorem ofNatLE_mod_bound (k n : Nat) : Bytes.ofNatLE k (n % Bytes.bound k) = Bytes.ofNatLE k n := by
  induction k generalizing n with
  | zero => rfl
  | succ k ih =>
      have hlow : UInt8.ofNat (n % (256 * Bytes.bound k)) = UInt8.ofNat n := by
        apply UInt8.toNat_inj.1
        rw [UInt8.toNat_ofNat', UInt8.toNat_ofNat', Nat.mod_mul_right_mod]
      have hhigh : n % (256 * Bytes.bound k) / 256 = n / 256 % Bytes.bound k :=
        Nat.mod_mul_right_div_self n 256 (Bytes.bound k)
      rw [Bytes.bound, Bytes.ofNatLE, Bytes.ofNatLE, hlow, hhigh, ih]

/-- The messages in which data travels are a transfer of it. -/
theorem isTransfer_messagesFor (data : Bytes) : IsTransfer data (messagesFor data) := by
  refine ⟨pieces data, ?_, flatten_pieces data, ?_⟩
  · have hlength : (declaredLength data).toNat = data.length % Bytes.bound 8 := rfl
    rw [messagesFor_eq, hlength, Bytes.ofNatBE, lengthSize, ofNatLE_mod_bound]
    rfl
  · intro c hc
    exact ⟨ne_nil_of_mem_pieces hc, length_le_of_mem_pieces hc⟩

end Transfer

/-! ## Receiving -/

namespace Answer

open Transfer

variable {r r' : Receiver} {body body' : List Bytes} {data : Bytes}

theorem receive_append (ms ms' : List Bytes) :
    receive r body (ms ++ ms') =
      match receive r body ms with
      | .error e => .error e
      | .ok (r, body) => receive r body ms' := by
  induction ms generalizing r body with
  | nil => rfl
  | cons m ms ih =>
      rw [List.cons_append, receive, receive]
      split
      · rfl
      · exact ih
      · exact ih

/-- What is taken as a whole is taken up to every point. -/
theorem receive_of_prefix {ms all : List Bytes} (hp : ms <+: all)
    (h : receive r body all = .ok (r', body')) : ∃ taken, receive r body ms = .ok taken := by
  obtain ⟨more, rfl⟩ := hp
  rw [receive_append] at h
  split at h
  · cases h
  · next taken ht => exact ⟨_, ht⟩

theorem receive_chunks {declared : Option UInt64} {n : Nat} {chunks : List Bytes}
    (hs : ∀ c ∈ chunks, c.length ≤ chunkSize) :
    receive ⟨.chunk, declared, n⟩ body chunks =
      .ok (⟨.chunk, declared, n + chunks.flatten.length⟩, body ++ chunks) := by
  induction chunks generalizing n body with
  | nil => rw [List.append_nil, List.flatten_nil]; rfl
  | cons c chunks ih =>
      rw [receive, Receiver.accept_chunk (hs c List.mem_cons_self)]
      dsimp only
      rw [ih fun c hc => hs c (List.mem_cons_of_mem _ hc), List.flatten_cons, List.length_append,
        List.append_assoc, Nat.add_assoc]
      rfl

/-- **A declared length reads as it was written.** -/
theorem accept_length (n : UInt64) :
    Receiver.accept ⟨.length, none, 0⟩ (Bytes.ofNatBE lengthSize n.toNat) =
      .ok (none, ⟨.chunk, some n, 0⟩) := by
  have hn : n.toNat < Bytes.bound lengthSize := n.toNat_lt
  refine Receiver.accept_eq_ok_iff.2 ?_
  simp only [Receiver.step, Bytes.length_ofNatBE, if_true, Bytes.toNatBE_ofNatBE hn,
    UInt64.ofNat_toNat]

/-- **The messages of a transfer are taken**, and its chunks handed back. -/
theorem receive_messages (declared : Option UInt64) {chunks : List Bytes}
    (hs : ∀ c ∈ chunks, c.length ≤ chunkSize) :
    receive .new [] (Transfer.messages declared chunks) =
      .ok (⟨.chunk, declared, chunks.flatten.length⟩, chunks) := by
  have hchunks : ∀ declared, receive ⟨.chunk, declared, 0⟩ [] chunks =
      .ok (⟨.chunk, declared, chunks.flatten.length⟩, chunks) := by
    intro declared
    rw [receive_chunks hs, Nat.zero_add, List.nil_append]
  cases declared with
  | none => exact hchunks none
  | some n =>
      have hmode : Receiver.new.accept [declaredMode] = .ok (none, ⟨.length, none, 0⟩) := rfl
      show receive .new [] ([declaredMode] :: Bytes.ofNatBE lengthSize n.toNat :: chunks) = _
      rw [receive, hmode]
      dsimp only
      rw [receive, accept_length]
      exact hchunks (some n)

/-- **The messages in which data travels are taken**, and the pieces handed back. -/
theorem receive_messagesFor (data : Bytes) :
    receive .new [] (messagesFor data) =
      .ok (⟨.chunk, some (declaredLength data), data.length⟩, pieces data) := by
  have h : receive .new [] (Transfer.messages _ (pieces data)) = _ :=
    receive_messages (some (declaredLength data)) fun _ => length_le_of_mem_pieces
  rwa [flatten_pieces] at h

/-- **Data that has travelled is handed back**, with its length declared. -/
theorem transfer_of_messages {a : Answer} (hm : a.messages = messagesFor data)
    (hok : a.ending.result = .ok ()) (hsize : data.length < UInt64.size) :
    a.transfer = .ok ⟨some (declaredLength data), data⟩ := by
  have hcount : (declaredLength data).toNat = data.length := UInt64.toNat_ofNat_of_lt' hsize
  have hfinish : Receiver.finish ⟨.chunk, some (declaredLength data), data.length⟩ =
      .ok data.length := if_pos hcount
  simp only [transfer, hm, receive_messagesFor, hok, hfinish, flatten_pieces]

end Answer

/-- A transfer is not spoiled on the way. -/
theorem Exchange.not_isSpoiled {a : Answer} {data : Bytes}
    (hp : a.messages <+: Transfer.messagesFor data) : Exchange.isSpoiled a = false := by
  obtain ⟨taken, ht⟩ := Answer.receive_of_prefix hp (Answer.receive_messagesFor data)
  simp only [isSpoiled, ht]

end DeviceGateway
