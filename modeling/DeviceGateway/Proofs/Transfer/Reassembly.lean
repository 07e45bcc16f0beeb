import DeviceGateway.Proofs.Transfer.Pieces
import DeviceGateway.Transfer.Framer

/-!
# Transfers from end to end

A framer over a source and a receiver of its messages go side by side (`InStep`): each message of
the framer takes the receiver out of the state that belongs to one phase into the state that belongs
to the next, and hands back what has been read for it (`InStep.step`). So however a source gives its
content, the receiver gets the content back, and is content with the end of the messages if and only
if no other length was declared (`receiver_undoes_framer`).
-/

namespace DeviceGateway.Transfer

/-! ## Sources -/

/-- **A source gives some content**, read by read, and then ends. A read that offers more than is
asked for is taken in parts. -/
inductive Source.Gives : Source → Bytes → Prop
  | ended : Gives [] []
  | data {bs content : Bytes} {rest : Source} (hne : bs ≠ []) (h : Gives rest content) :
      Gives (.data bs :: rest) (bs ++ content)

/-- **A read of a source** that gives some content: the end of it if nothing is left, and otherwise
the next octets, as many as are asked for at most. -/
theorem Source.Gives.read {source : Source} {content : Bytes} (hs : source.Gives content)
    {limit : Nat} (hl : 0 < limit) :
    (content = [] ∧ source.read limit = (.ok [], [])) ∨
      ∃ bs later left, source.read limit = (.ok bs, left) ∧ bs ≠ [] ∧ bs.length ≤ limit ∧
        content = bs ++ later ∧ left.Gives later := by
  cases hs with
  | ended => exact Or.inl ⟨rfl, rfl⟩
  | @data bs content rest hne h =>
      have htake : bs.take limit ≠ [] := by
        intro hnil
        rcases List.take_eq_nil_iff.1 hnil with hz | hb
        · omega
        · exact hne hb
      refine Or.inr ⟨bs.take limit, bs.drop limit ++ content, _, rfl, htake,
        List.length_take_le _ _, ?_, ?_⟩
      · rw [← List.append_assoc, List.take_append_drop]
      · cases hmore : bs.drop limit with
        | nil => simpa using h
        | cons b more => exact .data (by simp) h

/-! ## The two sides -/

/-- A sink that keeps every message. -/
def keepAll (sent : List Bytes) (m : Bytes) : Except GatewayError (List Bytes) := .ok (sent ++ [m])

/-- **A framer and a receiver in step**, with the content that is still to come. -/
inductive InStep (declared : Option UInt64) : Framer Source → Receiver → Bytes → Prop
  | mode {source : Source} {content : Bytes} (hs : source.Gives content) :
      InStep declared (.new declared source) .new content
  | length {n : UInt64} {source : Source} {content : Bytes} (hd : declared = some n)
      (hs : source.Gives content) :
      InStep declared ⟨.emitLength, declared, some source, 0⟩ ⟨.length, none, 0⟩ content
  | body {source : Source} {content : Bytes} (sent : Nat) (hs : source.Gives content) :
      InStep declared ⟨.streamBody, declared, some source, sent⟩ ⟨.chunk, declared, sent⟩ content

variable {declared : Option UInt64} {f : Framer Source} {r : Receiver} {content : Bytes}

/-- **One step of both sides**: the receiver takes the message of the framer and hands back what was
read for it, or the content is over and so are the messages. -/
theorem InStep.step (h : InStep declared f r content) :
    (∃ m f' r' chunk later, f.step (Source.read chunkSize) = (.ok (some m), f') ∧
      r.accept m = .ok (chunk, r') ∧ content = chunk.getD [] ++ later ∧
      f'.bodyBytes = f.bodyBytes + (chunk.getD []).length ∧ InStep declared f' r' later) ∨
    (content = [] ∧ r = ⟨.chunk, declared, f.bodyBytes⟩ ∧
      ∃ f', f.step (Source.read chunkSize) = (.ok none, f') ∧ f'.bodyBytes = f.bodyBytes) := by
  cases h with
  | @mode source _ hs =>
      cases declared with
      | none =>
          exact Or.inl ⟨[undeclaredMode], ⟨.streamBody, none, some source, 0⟩, ⟨.chunk, none, 0⟩,
            none, content, rfl, rfl, rfl, rfl, .body 0 hs⟩
      | some n =>
          exact Or.inl ⟨[declaredMode], ⟨.emitLength, some n, some source, 0⟩, ⟨.length, none, 0⟩,
            none, content, rfl, rfl, rfl, rfl, .length rfl hs⟩
  | @length n source _ hd hs =>
      subst hd
      exact Or.inl ⟨Bytes.ofNatBE lengthSize n.toNat, ⟨.streamBody, some n, some source, 0⟩,
        ⟨.chunk, some n, 0⟩, none, content, rfl, Answer.accept_length n, rfl, rfl, .body 0 hs⟩
  | @body source _ sent hs =>
      rcases hs.read (show 0 < chunkSize by decide) with
        ⟨hnone, hread⟩ | ⟨bs, later, left, hread, hne, hsize, hcontent, hleft⟩
      · refine Or.inr ⟨hnone, rfl, Framer.finish ⟨.streamBody, declared, some source, sent⟩, ?_, rfl⟩
        simp only [Framer.step, hread]
      · refine Or.inl ⟨bs, ⟨.streamBody, declared, some left, sent + bs.length⟩,
          ⟨.chunk, declared, sent + bs.length⟩, some bs, later, ?_, Receiver.accept_chunk hsize, hcontent, rfl,
          .body _ hleft⟩
        simp only [Framer.step, hread]

namespace Framer

variable {τ : Type} {send : τ → Bytes → Except GatewayError τ} {sink sink' : τ}
  {f f' : Framer Source}

theorem drive_of_message {m : Bytes}
    (hstep : f.step (Source.read chunkSize) = (.ok (some m), f')) (hsend : send sink m = .ok sink') :
    f.drive send sink = f'.drive send sink' := by
  rw [drive]
  split <;> simp_all

theorem drive_of_end (hstep : f.step (Source.read chunkSize) = (.ok none, f')) :
    f.drive send sink = (.ok f'.bodyBytes, sink) := by
  rw [drive]
  split <;> simp_all

end Framer

/-- **The rest of a transfer.** From wherever the two sides are in step, the messages that the framer
goes on to send are all taken, and what they hand back is the content that was still to come. -/
theorem InStep.drive (h : InStep declared f r content) (sent body : List Bytes) :
    ∃ more chunks,
      f.drive keepAll sent = (.ok (f.bodyBytes + content.length), sent ++ more) ∧
      Answer.receive r body more =
        .ok (⟨.chunk, declared, f.bodyBytes + content.length⟩, body ++ chunks) ∧
      chunks.flatten = content := by
  induction hw : Framer.work f using Nat.strongRecOn generalizing f r content sent body with
  | ind w ih =>
      rcases h.step with
        ⟨m, f', r', chunk, later, hstep, haccept, hcontent, hbytes, hnext⟩ |
        ⟨hnone, hr, f', hstep, hbytes⟩
      · have hless : Framer.work f' < w := hw ▸ Framer.work_step_lt hstep
        obtain ⟨more, chunks, hdrive, hreceive, hflat⟩ :=
          ih _ hless hnext (sent ++ [m]) (body ++ chunk.toList) rfl
        have htotal : f'.bodyBytes + later.length = f.bodyBytes + content.length := by
          rw [hbytes, hcontent, List.length_append]
          omega
        rw [htotal] at hdrive hreceive
        refine ⟨m :: more, chunk.toList ++ chunks, ?_, ?_, ?_⟩
        · rw [Framer.drive_of_message hstep rfl, hdrive, List.append_assoc]
          rfl
        · rw [Answer.receive, haccept, ← List.append_assoc]
          cases chunk with
          | none => simpa using hreceive
          | some bs => exact hreceive
        · rw [hcontent, List.flatten_append, hflat]
          cases chunk <;> simp
      · refine ⟨[], [], ?_, ?_, ?_⟩
        · rw [Framer.drive_of_end hstep, hbytes, hnone]
          simp
        · rw [Answer.receive, hr, hnone]
          simp
        · rw [hnone]
          rfl

/-- **The receiver undoes the framer.** Whatever a source gives, in reads of whatever size, and
whatever length is declared: all messages of the transfer are taken one after the other, the chunks
that are handed back are the content, and the declared length is known. The end of the messages is
right if no length was declared, or the right one, and is refused otherwise. -/
theorem receiver_undoes_framer {source : Source} {content : Bytes} (declared : Option UInt64)
    (hs : source.Gives content) :
    ∃ sent r chunks,
      (Framer.new declared source).drive keepAll [] = (.ok content.length, sent) ∧
      Answer.receive .new [] sent = .ok (r, chunks) ∧ chunks.flatten = content ∧
      r.declared = declared ∧
      ((∀ n, declared = some n → n.toNat = content.length) → r.finish = .ok content.length) ∧
      ∀ n, declared = some n → n.toNat ≠ content.length →
        ∃ fault, r.finish = .error fault ∧ fault.toError =
          .protocol s!"declared {n.toNat} bytes, received {content.length}" := by
  have hstart : InStep declared (Framer.new declared source) .new content := .mode hs
  obtain ⟨sent, chunks, hdrive, hreceive, hflat⟩ := hstart.drive [] []
  have hnew : (Framer.new declared source).bodyBytes = 0 := rfl
  rw [hnew, Nat.zero_add, List.nil_append] at hdrive hreceive
  refine ⟨sent, _, chunks, hdrive, hreceive, hflat, rfl, ?_, ?_⟩
  · intro hright
    cases declared with
    | none => rfl
    | some n => exact if_pos (hright n rfl)
  · intro n hn hwrong
    subst hn
    exact ⟨.wrongLength n.toNat content.length, if_neg hwrong, rfl⟩

/-- Two reads, one of which looks like the beginning of a transfer, and a length that is one too
many. -/
theorem refused_for_one_octet_too_many :
    Source.Gives [.data [0xBB], .data [1, 2]] [0xBB, 1, 2] ∧
      ∃ sent r chunks fault,
        (Framer.new (some 4) [.data [0xBB], .data [1, 2]]).drive keepAll [] = (.ok 3, sent) ∧
        Answer.receive .new [] sent = .ok (r, chunks) ∧ chunks.flatten = [0xBB, 1, 2] ∧
        r.finish = .error fault ∧
        fault.toError = .protocol "declared 4 bytes, received 3" := by
  have hs : Source.Gives [.data [0xBB], .data [1, 2]] [0xBB, 1, 2] :=
    .data (by simp) (.data (by simp) .ended)
  obtain ⟨sent, r, chunks, hdrive, hreceive, hflat, -, -, hwrong⟩ :=
    receiver_undoes_framer (some 4) hs
  obtain ⟨fault, hfinish, hfault⟩ := hwrong 4 rfl (by decide)
  exact ⟨hs, sent, r, chunks, fault, hdrive, hreceive, hflat, hfinish, hfault⟩

end DeviceGateway.Transfer
