import DeviceGateway.Proofs.Client.Listening
import DeviceGateway.Proofs.Transfer.Grammar
import DeviceGateway.Proofs.Transfer.Pieces

/-!
# Downloads

A download takes the frames of its channel until it has its answer or the channel is closed
(`Exchange.Gets`). It may be over before the frames are, but only when nothing behind them can change
the answer (`Exchange.transfer?_of_gets`). The answer is a transfer if and only if the frames begin
with the messages of one and a status that says that the call went well (`Received.Travels`). So
neither a transfer that has been cut off nor one that has gone wrong is ever taken for a transfer
(`download_is_exact`).
-/

namespace DeviceGateway

/-! ## Receiving -/

namespace Answer

open Transfer

/-- Behind the header only chunks are taken. -/
theorem chunks_of_receive {declared : Option UInt64} {n : Nat} {body chunks ms : List Bytes}
    {r : Receiver} (h : receive ⟨.chunk, declared, n⟩ body ms = .ok (r, chunks)) :
    r = ⟨.chunk, declared, n + ms.flatten.length⟩ ∧ chunks = body ++ ms ∧
      ∀ c ∈ ms, c.length ≤ chunkSize := by
  induction ms generalizing n body with
  | nil =>
      cases h
      simp
  | cons m ms ih =>
      rw [receive] at h
      by_cases hsize : m.length ≤ chunkSize
      · rw [Receiver.accept_chunk hsize] at h
        obtain ⟨hr, hchunks, hsizes⟩ := ih h
        refine ⟨?_, ?_, ?_⟩
        · rw [hr, List.flatten_cons, List.length_append, Nat.add_assoc]
        · rw [hchunks, List.append_assoc]
          rfl
        · simpa using ⟨hsize, hsizes⟩
      · obtain ⟨fault, hrefused⟩ := Receiver.step_of_not_fits (r := ⟨.chunk, declared, n⟩) hsize
        rw [Receiver.accept, hrefused] at h
        cases h

/-- The first message of a transfer says whether a length comes next. -/
theorem mode_of_accept {m : Bytes} {chunk : Option Bytes} {r : Receiver}
    (h : Receiver.new.accept m = .ok (chunk, r)) :
    chunk = none ∧ (m = [declaredMode] ∧ r = ⟨.length, none, 0⟩ ∨
      m = [undeclaredMode] ∧ r = ⟨.chunk, none, 0⟩) := by
  have hstep := Receiver.accept_eq_ok_iff.1 h
  rcases Receiver.step_cases .new m with ⟨-, hm, hs⟩ | ⟨-, hm, hs⟩ | ⟨hr, -⟩ | ⟨hr, -⟩ | ⟨-, _, hs⟩
  · cases hs.symm.trans hstep
    exact ⟨rfl, Or.inl ⟨hm, rfl⟩⟩
  · cases hs.symm.trans hstep
    exact ⟨rfl, Or.inr ⟨hm, rfl⟩⟩
  · cases hr
  · cases hr
  · cases hs.symm.trans hstep

/-- The second one is the length. -/
theorem length_of_accept {m : Bytes} {chunk : Option Bytes} {r : Receiver}
    (h : Receiver.accept ⟨.length, none, 0⟩ m = .ok (chunk, r)) :
    chunk = none ∧ ∃ n : UInt64, m = Bytes.ofNatBE lengthSize n.toNat ∧ r = ⟨.chunk, some n, 0⟩ := by
  have hstep := Receiver.accept_eq_ok_iff.1 h
  rcases Receiver.step_cases ⟨.length, none, 0⟩ m with ⟨hr, -⟩ | ⟨hr, -⟩ | ⟨-, hsize, hs⟩ | ⟨hr, -⟩ |
    ⟨-, _, hs⟩
  · cases hr
  · cases hr
  · cases hs.symm.trans hstep
    refine ⟨rfl, UInt64.ofNat (Bytes.toNatBE m), ?_, rfl⟩
    have hlt : Bytes.toNatBE m < UInt64.size := by
      have hbound := Bytes.toNatBE_lt m
      rwa [hsize] at hbound
    rw [UInt64.toNat_ofNat_of_lt' hlt, ← hsize, Bytes.ofNatBE_toNatBE]
  · cases hr
  · cases hs.symm.trans hstep

/-- **What is taken up to the chunks is the beginning of a transfer.** -/
theorem messages_of_receive {chunks ms : List Bytes} {r : Receiver}
    (h : receive .new [] ms = .ok (r, chunks)) (hr : r.awaiting = .chunk) :
    ms = Transfer.messages r.declared chunks ∧ r.received = chunks.flatten.length ∧
      ∀ c ∈ chunks, c.length ≤ chunkSize := by
  have body : ∀ {declared : Option UInt64} {ms : List Bytes},
      receive ⟨.chunk, declared, 0⟩ [] ms = .ok (r, chunks) →
      r.declared = declared ∧ chunks = ms ∧ r.received = chunks.flatten.length ∧
        ∀ c ∈ chunks, c.length ≤ chunkSize := by
    intro declared ms h
    obtain ⟨rfl, rfl, hsizes⟩ := chunks_of_receive h
    exact ⟨rfl, rfl, by simp, hsizes⟩
  cases ms with
  | nil =>
      cases h
      cases hr
  | cons mode ms =>
      rw [receive] at h
      split at h
      · cases h
      · next r' hmode =>
        obtain ⟨-, ⟨rfl, rfl⟩ | ⟨rfl, rfl⟩⟩ := mode_of_accept hmode
        · cases ms with
          | nil =>
              cases h
              cases hr
          | cons field ms =>
              rw [receive] at h
              split at h
              · cases h
              · next r'' hlength =>
                obtain ⟨-, n, rfl, rfl⟩ := length_of_accept hlength
                obtain ⟨hdeclared, rfl, hreceived, hsizes⟩ := body h
                rw [hdeclared]
                exact ⟨rfl, hreceived, hsizes⟩
              · next hlength => cases (length_of_accept hlength).1
        · obtain ⟨hdeclared, rfl, hreceived, hsizes⟩ := body h
          rw [hdeclared]
          exact ⟨rfl, hreceived, hsizes⟩
      · next hmode => cases (mode_of_accept hmode).1

/-- **An answer is a transfer** if its messages are those of one, the declared length is right, and
the call went well. -/
theorem transfer_eq_ok_iff {a : Answer} {t : Received} :
    a.transfer = .ok t ↔ ∃ chunks, a.messages = Transfer.messages t.declaredLength chunks ∧
      (∀ c ∈ chunks, c.length ≤ chunkSize) ∧ t.body = chunks.flatten ∧
      (∀ n, t.declaredLength = some n → n.toNat = t.body.length) ∧ a.ending.result = .ok () := by
  constructor
  · intro h
    unfold transfer at h
    split at h
    · cases h
    · next r chunks hreceive =>
      split at h
      · cases h
      · next hresult =>
        split at h
        · cases h
        · next n hfinish =>
          cases h
          obtain ⟨hr, -, hlength⟩ := Receiver.finish_eq_ok_iff.1 hfinish
          obtain ⟨hmessages, hreceived, hsizes⟩ := messages_of_receive hreceive hr
          rw [hreceived] at hlength
          exact ⟨chunks, hmessages, hsizes, rfl, hlength, hresult⟩
  · rintro ⟨chunks, hmessages, hsizes, hbody, hlength, hresult⟩
    have hfinish : Receiver.finish ⟨.chunk, t.declaredLength, t.body.length⟩ = .ok t.body.length :=
      Receiver.finish_eq_ok_iff.2 ⟨rfl, rfl, hlength⟩
    simp only [transfer, hmessages, receive_messages _ hsizes, hresult, hfinish, ← hbody]

/-! ## Frames -/

/-- Messages come before whatever is behind them. -/
theorem ofFrames_append {front behind : List Frame} (h : ∀ f ∈ front, f.kind = .message) :
    ofFrames (front ++ behind) =
      ⟨front.map (·.payload) ++ (ofFrames behind).messages, (ofFrames behind).ending⟩ := by
  induction front with
  | nil => rfl
  | cons f front ih =>
      have hf := h f List.mem_cons_self
      rw [List.cons_append, ofFrames, hf, ih fun g hg => h g (List.mem_cons_of_mem _ hg)]
      rfl

/-- Behind the first frame that is no message nothing counts. -/
theorem ofFrames_cons_append {f : Frame} (hf : f.kind ≠ .message) (behind more : List Frame) :
    ofFrames (f :: behind ++ more) = ofFrames (f :: behind) := by
  rw [List.cons_append, ofFrames, ofFrames]
  cases hk : f.kind with
  | message => exact absurd hk hf
  | call | halfClose | cancel | status => rfl

/-- **Frames begin with messages**, and these are all of them, or there is a first frame that is
none. -/
theorem messages_or_first (frames : List Frame) :
    (∀ f ∈ frames, f.kind = .message) ∨
      ∃ front f behind, frames = front ++ f :: behind ∧ (∀ g ∈ front, g.kind = .message) ∧
        f.kind ≠ .message := by
  induction frames with
  | nil => exact Or.inl (by simp)
  | cons f frames ih =>
      by_cases hf : f.kind = .message
      · rcases ih with hall | ⟨front, g, behind, rfl, hfront, hg⟩
        · exact Or.inl (by simpa using ⟨hf, hall⟩)
        · exact Or.inr ⟨f :: front, g, behind, rfl, by simpa using ⟨hf, hfront⟩, hg⟩
      · exact Or.inr ⟨[], f, frames, rfl, by simp, hf⟩

/-- **More frames do not change an answer** that is whole, or that is spoiled as a transfer. -/
theorem transfer_append {frames : List Frame} (more : List Frame)
    (h : isWhole frames = true ∨ Exchange.isSpoiled (ofFrames frames) = true) :
    (ofFrames (frames ++ more)).transfer = (ofFrames frames).transfer := by
  rcases messages_or_first frames with hall | ⟨front, f, behind, rfl, hfront, hf⟩
  · rcases h with hwhole | hspoiled
    · obtain ⟨f, hf, hkind⟩ := List.any_eq_true.1 hwhole
      rw [hall f hf] at hkind
      cases hkind
    · -- what spoils the transfer is among the messages that are there
      have hframes : ofFrames (frames ++ []) = _ := ofFrames_append hall
      have hmore : ofFrames (frames ++ more) = _ := ofFrames_append hall
      rw [List.append_nil] at hframes
      rw [hframes] at hspoiled
      unfold Exchange.isSpoiled at hspoiled
      split at hspoiled
      · next e he =>
        have he' : receive .new [] (frames.map (·.payload) ++ (ofFrames more).messages) =
            .error e := by
          rw [receive_append, show receive .new [] (frames.map (·.payload)) = .error e by
            simpa [ofFrames] using he]
        simp only [hframes, hmore, transfer, he, he']
      · cases hspoiled
  · rw [List.append_assoc, ofFrames_append hfront, ofFrames_append hfront,
      ofFrames_cons_append hf]

end Answer

/-! ## Transfers in frames -/

/-- **A frame that says that a call went well.** -/
def Frame.EndsWell (f : Frame) : Prop :=
  f.kind = .status ∧ ∃ s : Status, Payload.ofBytes f.payload = .ok s ∧ s.code = .ok

/-- **A transfer travels in frames** that begin with its messages, the header and then chunks of no
more than the size of one, and a status that says that the call went well. A length that is declared
is that of all chunks together. -/
def Received.Travels (t : Received) (frames : List Frame) : Prop :=
  ∃ front f behind chunks, frames = front ++ f :: behind ∧ (∀ g ∈ front, g.kind = .message) ∧
    front.map (·.payload) = Transfer.messages t.declaredLength chunks ∧
    (∀ c ∈ chunks, c.length ≤ Transfer.chunkSize) ∧ t.body = chunks.flatten ∧
    (∀ n, t.declaredLength = some n → n.toNat = t.body.length) ∧ f.EndsWell

namespace Answer

theorem result_status_iff {payload : Bytes} :
    (Ending.status payload).result = .ok () ↔
      ∃ s : Status, Payload.ofBytes payload = .ok s ∧ s.code = .ok := by
  simp only [Ending.result]
  split
  · next e he => simp [he]
  · next s hs => cases hc : s.code <;> simp [hs, Status.toResult, hc]

/-- The first frame that is no message decides how the call went. -/
theorem result_ofFrames_iff {f : Frame} {behind : List Frame} (hf : f.kind ≠ .message) :
    (ofFrames (f :: behind)).ending.result = .ok () ↔ f.EndsWell := by
  unfold Frame.EndsWell
  cases hk : f.kind with
  | message => exact absurd hk hf
  | status =>
      rw [ofFrames, hk]
      simpa using result_status_iff
  | call | halfClose | cancel =>
      rw [ofFrames, hk]
      simp [Ending.result]

theorem messages_ofFrames {f : Frame} {behind : List Frame} (hf : f.kind ≠ .message) :
    (ofFrames (f :: behind)).messages = [] := by
  rw [ofFrames]
  cases hk : f.kind with
  | message => exact absurd hk hf
  | call | halfClose | cancel | status => rfl

/-- **Frames are answered with a transfer if and only if it travels in them.** -/
theorem transfer_ofFrames_iff {frames : List Frame} {t : Received} :
    (ofFrames frames).transfer = .ok t ↔ t.Travels frames := by
  rw [transfer_eq_ok_iff]
  constructor
  · rintro ⟨chunks, hmessages, hsizes, hbody, hlength, hresult⟩
    rcases messages_or_first frames with hall | ⟨front, f, behind, rfl, hfront, hf⟩
    · have hframes : ofFrames (frames ++ []) = _ := ofFrames_append hall
      rw [List.append_nil] at hframes
      rw [hframes] at hresult
      cases hresult
    · rw [ofFrames_append hfront, messages_ofFrames hf, List.append_nil] at hmessages
      rw [ofFrames_append hfront, result_ofFrames_iff hf] at hresult
      exact ⟨front, f, behind, chunks, rfl, hfront, hmessages, hsizes, hbody, hlength, hresult⟩
  · rintro ⟨front, f, behind, chunks, rfl, hfront, hmessages, hsizes, hbody, hlength, hwell⟩
    have hf : f.kind ≠ .message := by
      rw [hwell.1]
      simp
    refine ⟨chunks, ?_, hsizes, hbody, hlength, ?_⟩
    · rw [ofFrames_append hfront, messages_ofFrames hf, List.append_nil]
      exact hmessages
    · rw [ofFrames_append hfront, result_ofFrames_iff hf]
      exact hwell

end Answer

/-! ## Taking frames -/

namespace Exchange

/-- **An exchange gets frames**, one after the other, until it is over or its channel is closed
behind the last of them. Anything may happen to the client between two of its steps. -/
inductive Gets : Exchange → List Frame → Exchange → Prop
  | closed {x x' : Exchange} {c c' left : Client} (hnone : c.receive? x.id = some (none, left))
      (hstep : x.step? c = some (x', c')) : Gets x [] x'
  | enough {x x' : Exchange} {c c' left : Client} {f : Frame} {rest : List Frame}
      (hnext : c.receive? x.id = some (some f, left)) (hstep : x.step? c = some (x', c'))
      (hover : x'.isOver = true) : Gets x (f :: rest) x'
  | more {x y x' : Exchange} {c c' left : Client} {f : Frame} {rest : List Frame}
      (hnext : c.receive? x.id = some (some f, left)) (hstep : x.step? c = some (y, c'))
      (hopen : y.isOver = false) (h : Gets y rest x') : Gets x (f :: rest) x'

variable {x x' : Exchange} {c c' left : Client}

theorem step?_of_closed (hs : x.stage = .reading) (hnone : c.receive? x.id = some (none, left)) :
    x.step? c = some ({ x with stage := .finished none }, left.unlisten x.id) := by
  simp only [step?, hs, takeNext?, hnone]
  rfl

/-- A frame is taken, and the exchange is over if it has its answer then. -/
theorem step?_of_next {f : Frame} (hs : x.stage = .reading)
    (hnext : c.receive? x.id = some (some f, left)) :
    x.step? c =
      if isSatisfied { x with received := x.received ++ [f] } then
        some ({ x with received := x.received ++ [f], stage := .finished none },
          left.unlisten x.id)
      else some ({ x with received := x.received ++ [f] }, left) := by
  simp only [step?, hs, takeNext?, hnext]
  split <;> rfl

theorem isOver_of_reading (hs : x.stage = .reading) : x.isOver = false := by
  simp only [isOver, hs]

/-- **A download answers with the transfer in its frames**, also if it has not taken all of them. -/
theorem transfer?_of_gets {frames : List Frame} (h : x.Gets frames x') (hs : x.stage = .reading)
    (hk : x.kind = .transfer) :
    x'.transfer? = some (Answer.ofFrames (x.received ++ frames)).transfer := by
  induction h with
  | closed hnone hstep =>
      rw [step?_of_closed hs hnone] at hstep
      cases hstep
      rw [List.append_nil]
      rfl
  | @enough x x' c c' left f rest hnext hstep hover =>
      rw [step?_of_next hs hnext] at hstep
      split at hstep
      · next hsatisfied =>
        cases hstep
        have henough : Answer.isWhole (x.received ++ [f]) = true ∨
            isSpoiled (.ofFrames (x.received ++ [f])) = true := by
          simpa [isSatisfied, hk] using hsatisfied
        have hsame := Answer.transfer_append rest henough
        rw [List.append_assoc] at hsame
        exact congrArg some hsame.symm
      · cases hstep
        have hopen := isOver_of_reading (x := { x with received := x.received ++ [f] }) hs
        cases hover.symm.trans hopen
  | @more x y x' c c' left f rest hnext hstep hopen h ih =>
      rw [step?_of_next hs hnext] at hstep
      split at hstep
      · cases hstep
        cases hopen
      · cases hstep
        rw [ih hs hk, List.append_assoc]
        rfl

/-- **From a closed channel an exchange gets the frames that are queued there.** -/
theorem exists_gets {frames : List Frame} {ch : ReplyChannel} (hs : x.stage = .reading)
    (hc : c.channel? x.id = some ch) (hq : ch.queue = frames) (hrouted : ch.routed = false)
    (hidle : c.isDelivering x.id = false) : ∃ x', x.Gets frames x' := by
  induction frames generalizing x c ch with
  | nil =>
      have hnone : c.receive? x.id = some (none, c) := by
        simp [Client.receive?, hc, hq, hrouted, hidle]
      exact ⟨_, .closed hnone (step?_of_closed hs hnone)⟩
  | cons f rest ih =>
      have hnext : c.receive? x.id =
          some (some f, c.modify x.id fun ch => { ch with queue := rest }) := by
        simp only [Client.receive?, hc, hq]
      have hstep := step?_of_next hs hnext
      by_cases hsatisfied : isSatisfied { x with received := x.received ++ [f] } = true
      · rw [if_pos hsatisfied] at hstep
        exact ⟨_, .enough hnext hstep rfl⟩
      · rw [if_neg hsatisfied] at hstep
        have hchannel := Client.channel?_modify_self hc
          (f := fun ch => { ch with queue := rest }) fun _ => rfl
        obtain ⟨x', h⟩ := ih (x := { x with received := x.received ++ [f] })
          (c := c.modify x.id fun ch => { ch with queue := rest }) hs hchannel rfl hrouted hidle
        exact ⟨x', .more hnext hstep (isOver_of_reading hs) h⟩

/-- **A download is answered with a transfer if and only if one travels in its frames**, whatever the
frames are that come for it before its channel is closed. A transfer that the server has sent is
refused if any frame at its end is missing, and so is one whose first frame that is no message does
not say that the call went well. -/
theorem download_is_exact (hk : x.kind = .transfer) (hs : x.stage = .reading)
    (hnew : x.received = []) (frames : List Frame) :
    (∃ x', x.Gets frames x') ∧ ∀ x', x.Gets frames x' → ∃ result, x'.transfer? = some result ∧
      (∀ t, result = .ok t ↔ t.Travels frames) ∧
      (∀ declared chunks sent, (∀ c ∈ chunks, c.length ≤ Transfer.chunkSize) →
        sent.map Frame.word =
          messageWords (Transfer.messages declared chunks) ++ [Dialogue.farewell] →
        frames <+: sent → frames ≠ sent → result = .error .channelClosed) ∧
      ∀ front f behind, frames = front ++ f :: behind → (∀ g ∈ front, g.kind = .message) →
        f.kind ≠ .message → ¬ f.EndsWell → ∃ e, result = .error e := by
  refine ⟨?_, ?_⟩
  · let ch : ReplyChannel := ⟨x.id, frames, false, true⟩
    have hch : ({ Client.new with channels := [ch] } : Client).channel? x.id = some ch := by
      simp [Client.channel?, ch]
    exact exists_gets hs hch rfl rfl rfl
  · intro x' h
    have hanswer := transfer?_of_gets h hs hk
    rw [hnew, List.nil_append] at hanswer
    refine ⟨_, hanswer, fun t => Answer.transfer_ofFrames_iff, ?_, ?_⟩
    · intro declared chunks sent hsizes hsent hbegin hne
      -- without the last frame there are only messages, and they spoil nothing
      have hpart : frames.map Frame.word <+: messageWords (Transfer.messages declared chunks) := by
        have hwords := hbegin.map Frame.word
        rw [hsent] at hwords
        rcases List.prefix_concat_iff.1 hwords with hall | hpart
        · have hlength := congrArg List.length (hall.trans hsent.symm)
          rw [List.length_map, List.length_map] at hlength
          exact absurd (hbegin.eq_of_length hlength) hne
        · exact hpart
      obtain ⟨more, hmore⟩ := hpart
      obtain ⟨ms, later, hmessages, hms, -⟩ := List.map_eq_append_iff.1 hmore.symm
      obtain ⟨taken, htaken⟩ := Answer.receive_of_prefix ⟨later, hmessages.symm⟩
        (Answer.receive_messages declared hsizes)
      rw [Answer.ofFrames_messages hms.symm]
      simp only [Answer.transfer, htaken, Ending.result]
    · intro front f behind hframes hfront hf hwell
      cases hresult : (Answer.ofFrames frames).transfer with
      | error e => exact ⟨e, rfl⟩
      | ok t =>
          obtain ⟨chunks, -, -, -, -, hok⟩ := Answer.transfer_eq_ok_iff.1 hresult
          rw [hframes, Answer.ofFrames_append hfront, Answer.result_ofFrames_iff hf] at hok
          exact absurd hok hwell

/-- One octet travels, and is not there without the last of its frames. -/
theorem one_octet_downloaded_or_cut_off :
    let x : Exchange := ⟨1, .transfer, .reading, [], []⟩
    let front : List Frame := [⟨.message, 1, [0xAA], by decide⟩,
      ⟨.message, 1, [0, 0, 0, 0, 0, 0, 0, 1], by decide⟩, ⟨.message, 1, [65], by decide⟩]
    let last : Frame := ⟨.status, 1, Payload.toBytes Status.success, by decide⟩
    x.kind = .transfer ∧ x.stage = .reading ∧ x.received = [] ∧
      (∃ x', x.Gets (front ++ [last]) x' ∧ x'.transfer? = some (.ok ⟨some 1, [65]⟩)) ∧
      ∃ x', x.Gets front x' ∧ x'.transfer? = some (.error .channelClosed) := by
  intro x front last
  have hmessages : front.map (·.payload) = Transfer.messages (some 1) [[65]] := by decide
  have hwell : last.EndsWell := ⟨rfl, Status.success, by decide +kernel, rfl⟩
  refine ⟨rfl, rfl, rfl, ?_, ?_⟩
  · obtain ⟨⟨x', h⟩, hall⟩ := download_is_exact (x := x) rfl rfl rfl (front ++ [last])
    obtain ⟨result, hresult, hok, -⟩ := hall x' h
    refine ⟨x', h, ?_⟩
    have hlength : ∀ n : UInt64, some 1 = some n → n.toNat = [(65 : UInt8)].length := by
      intro n hn
      cases hn
      rfl
    rw [hresult, (hok ⟨some 1, [65]⟩).2
      ⟨front, last, [], [[65]], rfl, by decide, hmessages, by decide, rfl, hlength, hwell⟩]
  · obtain ⟨⟨x', h⟩, hall⟩ := download_is_exact (x := x) rfl rfl rfl front
    obtain ⟨result, hresult, -, hcut, -⟩ := hall x' h
    refine ⟨x', h, ?_⟩
    rw [hresult, hcut (some 1) [[65]] (front ++ [last]) (by decide) (by decide)
      (List.prefix_append _ _) (by decide)]

end Exchange

end DeviceGateway
