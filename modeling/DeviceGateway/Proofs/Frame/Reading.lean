import DeviceGateway.Frame.Codec
import DeviceGateway.Proofs.Frame.HeaderFields

/-!
# What a buffer holds at its front

`Front` says by the layout of frames alone what stands at the front of a buffer: nothing whole yet,
one of four faults, or a frame. Every buffer holds exactly one of these, and `decode` finds it
(`front_decode`, `decode_eq_of_front`). So a frame is read from its encoding and from nothing else,
the three reserved octets of the header apart, and every fault has its own rule of what is removed
(`decode_exact`).
-/

namespace DeviceGateway.Frame

/-- A buffer starts with a header, whatever stands in its reserved octets, and a body follows. -/
def StartsWith (buffer : Bytes) (h : FrameHeader) (body : Bytes) : Prop :=
  ∃ reserved : Bytes, reserved.length = 3 ∧ buffer = h.toBytesWith reserved ++ body

theorem StartsWith.size_le {buffer body : Bytes} {h : FrameHeader} (hs : StartsWith buffer h body) :
    FrameHeader.size ≤ buffer.length := by
  obtain ⟨reserved, hr, rfl⟩ := hs
  rw [List.length_append, FrameHeader.length_toBytesWith hr]
  exact Nat.le_add_right _ _

/-- **What a buffer holds at its front**, and what is left when that is taken away. -/
inductive Front (c : Checksum) (buffer : Bytes) : Decoded → Prop where
  | short (hl : buffer.length < FrameHeader.size) : Front c buffer .more
  | badMagic (hl : FrameHeader.size ≤ buffer.length) (hm : ¬ FrameHeader.magic <+: buffer) :
      Front c buffer (.fault .badMagic buffer)
  | unknownKind (hl : FrameHeader.size ≤ buffer.length) (hm : FrameHeader.magic <+: buffer)
      (hk : ∀ k : FrameKind, buffer[8]? ≠ some k.code) : Front c buffer (.fault .unknownKind buffer)
  | tooLarge {h : FrameHeader} {body : Bytes} (hs : StartsWith buffer h body)
      (hn : maxPayload < h.length.toNat) : Front c buffer (.fault (.tooLarge h.length.toNat) buffer)
  | waiting {h : FrameHeader} {body : Bytes} (hs : StartsWith buffer h body)
      (hn : h.length.toNat ≤ maxPayload) (hb : body.length < h.length.toNat) : Front c buffer .more
  | corrupt {h : FrameHeader} {payload rest : Bytes} (hs : StartsWith buffer h (payload ++ rest))
      (hn : h.length.toNat ≤ maxPayload) (hp : payload.length = h.length.toNat)
      (hc : c.sum payload ≠ h.checksum) : Front c buffer (.fault .checksumMismatch rest)
  | frame {f : Frame} {rest : Bytes} (hs : StartsWith buffer (f.header c) (f.payload ++ rest)) :
      Front c buffer (.frame f rest)

/-! ## The header of a frame -/

/-- No length is lost in the header: a payload within the limit fits its four octets. -/
theorem length_header (c : Checksum) (f : Frame) :
    (f.header c).length.toNat = f.payload.length := by
  have h := f.payload_le
  apply UInt32.toNat_ofNat_of_lt'
  exact Nat.lt_of_le_of_lt h (by decide)

theorem ofParts_header (c : Checksum) (f : Frame) : ofParts c (f.header c) f.payload = .ok f := by
  have hsum : c.sum f.payload = (f.header c).checksum := rfl
  rw [ofParts, if_neg (not_not_intro (length_header c f).symm), if_neg (not_not_intro hsum), make,
    dif_pos f.payload_le]
  rfl

theorem ofParts_corrupt {c : Checksum} {h : FrameHeader} {payload : Bytes}
    (hp : payload.length = h.length.toNat) (hc : c.sum payload ≠ h.checksum) :
    ofParts c h payload = .error .checksumMismatch := by
  rw [ofParts, if_neg (not_not_intro hp), if_pos hc]

/-- A header that fits its payload is the header of one frame. -/
theorem exists_header_eq {c : Checksum} {h : FrameHeader} {payload : Bytes}
    (hp : payload.length = h.length.toNat) (hn : h.length.toNat ≤ maxPayload)
    (hc : c.sum payload = h.checksum) : ∃ f : Frame, h = f.header c ∧ payload = f.payload := by
  refine ⟨⟨h.kind, h.callId, payload, hp ▸ hn⟩, ?_, rfl⟩
  obtain ⟨sum, kind, id, len⟩ := h
  simp only [header, FrameHeader.mk.injEq, true_and]
  refine ⟨hc.symm, ?_⟩
  rw [hp]
  exact UInt32.ofNat_toNat.symm

/-! ## Reading finds what is there -/

/-- Behind a header only its length and its checksum matter. -/
theorem decode_startsWith {c : Checksum} {buffer body : Bytes} {h : FrameHeader}
    (hs : StartsWith buffer h body) :
    decode c buffer =
      if maxPayload < h.length.toNat then .fault (.tooLarge h.length.toNat) buffer
      else match Bytes.split? h.length.toNat body with
        | none => .more
        | some (payload, rest) =>
          match ofParts c h payload with
          | .error e => .fault e rest
          | .ok f => .frame f rest := by
  obtain ⟨reserved, hr, rfl⟩ := hs
  have hsplit := Bytes.split?_append (h.toBytesWith reserved) body
  rw [FrameHeader.length_toBytesWith hr] at hsplit
  cases hbody : Bytes.split? h.length.toNat body with
  | none => simp only [decode, hsplit, FrameHeader.ofBytes_toBytesWith hr, hbody]
  | some parts =>
      cases hparts : ofParts c h parts.1 with
      | error e => simp only [decode, hsplit, FrameHeader.ofBytes_toBytesWith hr, hbody, hparts]
      | ok f => simp only [decode, hsplit, FrameHeader.ofBytes_toBytesWith hr, hbody, hparts]

/-- The magic and the kind of a buffer are those of its first 24 octets. -/
theorem head_octets {head : Bytes} (body : Bytes) (hl : head.length = FrameHeader.size) :
    (FrameHeader.magic <+: head ++ body ↔ head.take 4 = FrameHeader.magic) ∧
      ∀ k : UInt8, (head ++ body)[8]? = some k ↔ head.getD 8 0 = k := by
  have h4 : 4 ≤ head.length := by rw [hl]; decide
  have h8 : 8 < head.length := by rw [hl]; decide
  constructor
  · rw [List.prefix_iff_eq_take, show FrameHeader.magic.length = 4 from rfl,
      List.take_append_of_le_length h4]
    exact eq_comm
  · intro k
    rw [List.getElem?_append_left h8, List.getD_eq_getElem?_getD, List.getElem?_eq_getElem h8]
    simp

theorem exists_head {buffer : Bytes} (hl : FrameHeader.size ≤ buffer.length) :
    ∃ head body : Bytes, head.length = FrameHeader.size ∧ buffer = head ++ body := by
  refine ⟨buffer.take FrameHeader.size, buffer.drop FrameHeader.size, ?_, ?_⟩
  · rw [List.length_take, Nat.min_eq_left hl]
  · rw [List.take_append_drop]

/-- **Reading finds what is at the front.** -/
theorem front_decode (c : Checksum) (buffer : Bytes) : Front c buffer (decode c buffer) := by
  -- The reader takes the octets of a header away first, and looks at them only then.
  cases hsplit : Bytes.split? FrameHeader.size buffer with
  | none =>
      rw [show decode c buffer = .more by simp only [decode, hsplit]]
      exact .short (Bytes.split?_eq_none_iff.1 hsplit)
  | some parts =>
      obtain ⟨head, body⟩ := parts
      obtain ⟨rfl, hl⟩ := Bytes.append_of_split? hsplit
      have hsize : FrameHeader.size ≤ (head ++ body).length := by
        rw [List.length_append, hl]
        exact Nat.le_add_right _ _
      have ⟨hmagic, hcode⟩ := head_octets body hl
      cases hh : FrameHeader.ofBytes head with
      | error e =>
          rw [show decode c (head ++ body) = .fault e (head ++ body) by
            simp only [decode, hsplit, hh]]
          rcases FrameHeader.ofBytes_eq_error_iff.1 hh with ⟨hm, rfl⟩ | ⟨hm, hk, rfl⟩
          · exact .badMagic hsize fun h => hm (hmagic.1 h)
          · exact .unknownKind hsize (hmagic.2 hm) fun k h => hk k ((hcode _).1 h)
      | ok h =>
          obtain ⟨reserved, hr, rfl⟩ := FrameHeader.exists_reserved_of_ofBytes hl hh
          have hs : StartsWith (h.toBytesWith reserved ++ body) h body := ⟨reserved, hr, rfl⟩
          rw [decode_startsWith hs]
          by_cases hn : maxPayload < h.length.toNat
          · rw [if_pos hn]
            exact .tooLarge hs hn
          · rw [if_neg hn]
            have hn := Nat.le_of_not_lt hn
            cases hbody : Bytes.split? h.length.toNat body with
            | none => exact .waiting hs hn (Bytes.split?_eq_none_iff.1 hbody)
            | some parts =>
                obtain ⟨payload, rest⟩ := parts
                obtain ⟨rfl, hp⟩ := Bytes.append_of_split? hbody
                by_cases hc : c.sum payload = h.checksum
                · obtain ⟨f, rfl, rfl⟩ := exists_header_eq hp hn hc
                  simp only [ofParts_header]
                  exact .frame hs
                · simp only [ofParts_corrupt hp hc]
                  exact .corrupt hs hn hp hc

/-- **A buffer holds one thing at its front**, the one that is read. -/
theorem decode_eq_of_front {c : Checksum} {buffer : Bytes} {d : Decoded} (h : Front c buffer d) :
    decode c buffer = d := by
  cases h with
  | short hl =>
      simp only [decode, Bytes.split?_eq_none_iff.2 hl]
  | badMagic hl hm =>
      obtain ⟨head, body, hh, rfl⟩ := exists_head hl
      rw [(head_octets body hh).1] at hm
      have he := FrameHeader.ofBytes_eq_error_iff.2 (Or.inl ⟨hm, rfl⟩)
      simp only [decode, ← hh, Bytes.split?_append, he]
  | unknownKind hl hm hk =>
      obtain ⟨head, body, hh, rfl⟩ := exists_head hl
      rw [(head_octets body hh).1] at hm
      have hk' : ∀ k : FrameKind, head.getD 8 0 ≠ k.code :=
        fun k h => hk k (((head_octets body hh).2 _).2 h)
      have he := FrameHeader.ofBytes_eq_error_iff.2 (Or.inr ⟨hm, hk', rfl⟩)
      simp only [decode, ← hh, Bytes.split?_append, he]
  | tooLarge hs hn =>
      rw [decode_startsWith hs, if_pos hn]
  | waiting hs hn hb =>
      rw [decode_startsWith hs, if_neg (Nat.not_lt.2 hn), Bytes.split?_eq_none_iff.2 hb]
  | corrupt hs hn hp hc =>
      have he := ofParts_corrupt hp hc
      rw [decode_startsWith hs, if_neg (Nat.not_lt.2 hn), ← hp, Bytes.split?_append]
      simp only [he]
  | @frame f rest hs =>
      have hn := f.payload_le
      rw [decode_startsWith hs, length_header, if_neg (Nat.not_lt.2 hn), Bytes.split?_append]
      simp only [ofParts_header]

theorem decode_eq_iff_front {c : Checksum} {buffer : Bytes} {d : Decoded} :
    decode c buffer = d ↔ Front c buffer d := by
  constructor
  · rintro rfl
    exact front_decode c buffer
  · exact decode_eq_of_front

/-! ## Encodings up to the reserved octets -/

/-- Octets that agree, except perhaps at the three places that a header reserves. -/
def SameButReserved (a b : Bytes) : Prop :=
  a.length = b.length ∧ ∀ i : Nat, i < 9 ∨ 12 ≤ i → a[i]? = b[i]?

theorem sameButReserved_append_iff {front reserved back e : Bytes} (hf : front.length = 9)
    (hr : reserved.length = 3) :
    SameButReserved e (front ++ reserved ++ back) ↔
      ∃ r : Bytes, r.length = 3 ∧ e = front ++ r ++ back := by
  constructor
  · rintro ⟨hl, hi⟩
    have hlen : e.length = 12 + back.length := by
      simp only [hl, List.length_append, hf, hr]
    have hfront : e.take 9 = front := by
      apply List.ext_getElem?
      intro i
      by_cases h : i < 9
      · rw [List.getElem?_take_of_lt h, hi i (Or.inl h)]
        rw [List.append_assoc, List.getElem?_append_left (by omega)]
      · rw [List.getElem?_eq_none (by simp; omega), List.getElem?_eq_none (by omega)]
    have hback : e.drop 12 = back := by
      apply List.ext_getElem?
      intro i
      rw [List.getElem?_drop, hi (12 + i) (Or.inr (Nat.le_add_right 12 i)),
        List.getElem?_append_right (by simp [hf, hr])]
      congr 1
      simp [hf, hr]
    refine ⟨(e.drop 9).take 3, by simp [hlen]; omega, ?_⟩
    rw [← hfront, ← hback, List.append_assoc, ← List.drop_drop (i := 3) (j := 9),
      List.take_append_drop, List.take_append_drop]
  · rintro ⟨r, hr', rfl⟩
    refine ⟨by simp [hr, hr'], ?_⟩
    rintro i (hi | hi)
    · have h9 : i < front.length := by omega
      simp [List.getElem?_append, h9]
    · rw [List.getElem?_append_right (by simp [hf, hr']; omega),
        List.getElem?_append_right (by simp [hf, hr]; omega)]
      simp [hf, hr, hr']

theorem sameButReserved_toBytes_iff {c : Checksum} {f : Frame} {e : Bytes} :
    SameButReserved e (f.toBytes c) ↔
      ∃ r : Bytes, r.length = 3 ∧ e = (f.header c).toBytesWith r ++ f.payload := by
  let h := f.header c
  let front := FrameHeader.magic ++ Bytes.ofNatLE 4 h.checksum.toNat ++ [h.kind.code]
  let back := Bytes.ofNatLE 8 h.callId.toNat ++ (Bytes.ofNatLE 4 h.length.toNat ++ f.payload)
  have split : ∀ r : Bytes, h.toBytesWith r ++ f.payload = front ++ r ++ back := by
    intro r
    simp only [FrameHeader.toBytesWith, front, back, List.append_assoc]
  have hf : front.length = 9 := by simp [front, FrameHeader.magic]
  rw [show f.toBytes c = front ++ [0, 0, 0] ++ back from split [0, 0, 0],
    sameButReserved_append_iff hf rfl]
  simp only [← split, h]

/-- **Reading is exact.** A frame is read from its encoding and from nothing else, the reserved
octets apart. More is asked for when a header, or the payload that a header within the limit
announces, is not there as a whole. A fault leaves the buffer as it is, except that a wrong checksum
takes away the header and the payload that it is about. -/
theorem decode_exact (c : Checksum) (buffer : Bytes) :
    (∀ f rest, decode c buffer = .frame f rest ↔
      f.payload.length ≤ maxPayload ∧
        ∃ e, buffer = e ++ rest ∧ SameButReserved e (f.toBytes c)) ∧
    (decode c buffer = .more ↔
      buffer.length < FrameHeader.size ∨
        ∃ h body, StartsWith buffer h body ∧ h.length.toNat ≤ maxPayload ∧
          body.length < h.length.toNat) ∧
    (∀ e rest, decode c buffer = .fault e rest ↔
      (rest = buffer ∧ FrameHeader.size ≤ buffer.length ∧
        ((e = .badMagic ∧ ¬ FrameHeader.magic <+: buffer) ∨
          (e = .unknownKind ∧ FrameHeader.magic <+: buffer ∧
            ∀ k : FrameKind, buffer[8]? ≠ some k.code) ∨
          ∃ h body, StartsWith buffer h body ∧ maxPayload < h.length.toNat ∧
            e = .tooLarge h.length.toNat)) ∨
      (e = .checksumMismatch ∧
        ∃ h payload, StartsWith buffer h (payload ++ rest) ∧ h.length.toNat ≤ maxPayload ∧
          payload.length = h.length.toNat ∧ c.sum payload ≠ h.checksum)) := by
  refine ⟨?_, ?_, ?_⟩
  · intro f rest
    simp only [decode_eq_iff_front, sameButReserved_toBytes_iff]
    constructor
    · rintro ⟨⟩
      rename_i hs
      obtain ⟨r, hr, rfl⟩ := hs
      exact ⟨f.payload_le, _, by rw [List.append_assoc], r, hr, rfl⟩
    · rintro ⟨-, e, rfl, r, hr, rfl⟩
      exact .frame ⟨r, hr, by rw [List.append_assoc]⟩
  · rw [decode_eq_iff_front]
    constructor
    · rintro (hl | _ | _ | _ | ⟨hs, hn, hb⟩)
      · exact Or.inl hl
      · exact Or.inr ⟨_, _, hs, hn, hb⟩
    · rintro (hl | ⟨h, body, hs, hn, hb⟩)
      · exact .short hl
      · exact .waiting hs hn hb
  · intro e rest
    rw [decode_eq_iff_front]
    constructor
    · intro h
      cases h with
      | badMagic hl hm => exact Or.inl ⟨rfl, hl, Or.inl ⟨rfl, hm⟩⟩
      | unknownKind hl hm hk => exact Or.inl ⟨rfl, hl, Or.inr (Or.inl ⟨rfl, hm, hk⟩)⟩
      | tooLarge hs hn => exact Or.inl ⟨rfl, hs.size_le, Or.inr (Or.inr ⟨_, _, hs, hn, rfl⟩)⟩
      | corrupt hs hn hp hc => exact Or.inr ⟨rfl, _, _, hs, hn, hp, hc⟩
    · rintro (⟨rfl, hl, ⟨rfl, hm⟩ | ⟨rfl, hm, hk⟩ | ⟨h, body, hs, hn, rfl⟩⟩ |
        ⟨rfl, h, payload, hs, hn, hp, hc⟩)
      · exact .badMagic hl hm
      · exact .unknownKind hl hm hk
      · exact .tooLarge hs hn
      · exact .corrupt hs hn hp hc

end DeviceGateway.Frame
