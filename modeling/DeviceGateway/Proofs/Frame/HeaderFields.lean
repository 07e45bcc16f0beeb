import DeviceGateway.Frame.Header

/-!
# The fields of a header

A header is read from 24 octets by position and written as its fields one after the other. The two
directions meet here: what was written is read back whatever stands in the three reserved octets
(`ofBytes_toBytesWith`), and 24 octets that read as a header are that header written out with their
own reserved octets (`exists_reserved_of_ofBytes`). `ofBytes_eq_error_iff` says which 24 octets are
no header.
-/

namespace DeviceGateway

namespace Bytes

theorem word32_ofNatLE (w : UInt32) : UInt32.ofNat (toNatLE (ofNatLE 4 w.toNat)) = w := by
  rw [toNatLE_ofNatLE (show w.toNat < bound 4 from w.toNat_lt)]
  exact UInt32.ofNat_toNat

theorem word64_ofNatLE (w : UInt64) : UInt64.ofNat (toNatLE (ofNatLE 8 w.toNat)) = w := by
  rw [toNatLE_ofNatLE (show w.toNat < bound 8 from w.toNat_lt)]
  exact UInt64.ofNat_toNat

theorem ofNatLE_word32 {bs : Bytes} (h : bs.length = 4) :
    ofNatLE 4 (UInt32.ofNat (toNatLE bs)).toNat = bs := by
  have hlt : toNatLE bs < 2 ^ 32 := by
    have := toNatLE_lt bs
    rwa [h] at this
  rw [UInt32.toNat_ofNat_of_lt' hlt, ← h]
  exact ofNatLE_toNatLE bs

theorem ofNatLE_word64 {bs : Bytes} (h : bs.length = 8) :
    ofNatLE 8 (UInt64.ofNat (toNatLE bs)).toNat = bs := by
  have hlt : toNatLE bs < 2 ^ 64 := by
    have := toNatLE_lt bs
    rwa [h] at this
  rw [UInt64.toNat_ofNat_of_lt' hlt, ← h]
  exact ofNatLE_toNatLE bs

end Bytes

namespace FrameHeader

theorem length_toBytesWith {reserved : Bytes} (hr : reserved.length = 3) (h : FrameHeader) :
    (h.toBytesWith reserved).length = size := by
  simp [toBytesWith, magic, size, hr]

theorem field_append (front digits rest : Bytes) {start count : Nat}
    (hs : front.length = start) (hc : digits.length = count) :
    field (front ++ digits ++ rest) start count = Bytes.toNatLE digits := by
  subst hs hc
  simp [field]

/-- Any 24 octets, cut where the fields of a header meet. -/
theorem exists_fields {bs : Bytes} (hl : bs.length = size) :
    ∃ m sum reserved id len : Bytes, ∃ k : UInt8,
      (m.length = 4 ∧ sum.length = 4 ∧ reserved.length = 3 ∧ id.length = 8 ∧ len.length = 4) ∧
      bs = m ++ sum ++ [k] ++ reserved ++ id ++ len := by
  have hl' : bs.length = 24 := hl
  have h8 : 8 < bs.length := by omega
  refine ⟨bs.take 4, (bs.drop 4).take 4, (bs.drop 9).take 3, (bs.drop 12).take 8, bs.drop 20,
    bs[8], by simp [hl'], ?_⟩
  have cut : ∀ a b : Nat, (bs.drop a).take b ++ bs.drop (a + b) = bs.drop a := by
    intro a b
    rw [← List.drop_drop, List.take_append_drop]
  rw [List.append_assoc _ _ (bs.drop 20), cut 12 8, List.append_assoc _ _ (bs.drop 12), cut 9 3,
    List.append_assoc _ [bs[8]], List.singleton_append, List.getElem_cons_drop,
    List.append_assoc, cut 4 4, List.take_append_drop]

/-- **Reading a header, field by field.** The reserved octets play no part. -/
theorem ofBytes_fields {m sum reserved id len : Bytes} (k : UInt8)
    (hf : m.length = 4 ∧ sum.length = 4 ∧ reserved.length = 3 ∧ id.length = 8 ∧ len.length = 4) :
    ofBytes (m ++ sum ++ [k] ++ reserved ++ id ++ len) =
      if m ≠ magic then .error .badMagic
      else match FrameKind.ofCode? k with
        | none => .error .unknownKind
        | some kind => .ok
          { checksum := UInt32.ofNat (Bytes.toNatLE sum), kind
            callId := UInt64.ofNat (Bytes.toNatLE id)
            length := UInt32.ofNat (Bytes.toNatLE len) } := by
  obtain ⟨hm, hs, hr, hi, hl⟩ := hf
  have hmagic : (m ++ sum ++ [k] ++ reserved ++ id ++ len).take 4 = m := by
    simp [← hm]
  have hcode : (m ++ sum ++ [k] ++ reserved ++ id ++ len).getD 8 0 = k := by
    simp [List.getElem?_append, hm, hs]
  have hsum : field (m ++ sum ++ [k] ++ reserved ++ id ++ len) 4 4 = Bytes.toNatLE sum := by
    have := field_append m sum ([k] ++ reserved ++ id ++ len) hm hs
    simpa only [List.append_assoc] using this
  have hid : field (m ++ sum ++ [k] ++ reserved ++ id ++ len) 12 8 = Bytes.toNatLE id :=
    field_append _ id len (by simp [hm, hs, hr]) hi
  have hlen : field (m ++ sum ++ [k] ++ reserved ++ id ++ len) 20 4 = Bytes.toNatLE len := by
    have hfront : (m ++ sum ++ [k] ++ reserved ++ id).length = 20 := by simp [hm, hs, hr, hi]
    have := field_append _ len [] hfront hl
    rwa [List.append_nil] at this
  unfold ofBytes
  rw [hmagic]
  by_cases hmag : m = magic
  · rw [if_neg (not_not_intro hmag), if_neg (not_not_intro hmag), hcode]
    cases FrameKind.ofCode? k with
    | none => rfl
    | some kind => simp only [hsum, hid, hlen]
  · rw [if_pos hmag, if_pos hmag]

/-- **What was written is read back**, whatever stands in the reserved octets. -/
theorem ofBytes_toBytesWith {reserved : Bytes} (hr : reserved.length = 3) (h : FrameHeader) :
    ofBytes (h.toBytesWith reserved) = .ok h := by
  have hkind : FrameKind.ofCode? h.kind.code = some h.kind := FrameKind.ofCode?_eq_some_iff.2 rfl
  rw [toBytesWith, ofBytes_fields h.kind.code (by simp [magic, hr]), if_neg (not_not_intro rfl),
    hkind]
  simp only [Bytes.word32_ofNatLE, Bytes.word64_ofNatLE]

/-- **24 octets that read as a header are that header**, written with their own reserved octets. -/
theorem exists_reserved_of_ofBytes {bs : Bytes} {h : FrameHeader} (hl : bs.length = size)
    (ok : ofBytes bs = .ok h) :
    ∃ reserved : Bytes, reserved.length = 3 ∧ bs = h.toBytesWith reserved := by
  obtain ⟨m, sum, reserved, id, len, k, hf, rfl⟩ := exists_fields hl
  rw [ofBytes_fields k hf] at ok
  obtain ⟨hm, hs, hr, hi, hn⟩ := hf
  refine ⟨reserved, hr, ?_⟩
  by_cases hmagic : m = magic
  · rw [if_neg (not_not_intro hmagic)] at ok
    cases hk : FrameKind.ofCode? k with
    | none =>
        rw [hk] at ok
        cases ok
    | some kind =>
        rw [hk] at ok
        injection ok with ok
        rw [FrameKind.ofCode?_eq_some_iff] at hk
        subst ok hmagic hk
        simp only [toBytesWith, Bytes.ofNatLE_word32 hs, Bytes.ofNatLE_word32 hn,
          Bytes.ofNatLE_word64 hi]
  · rw [if_pos hmagic] at ok
    cases ok

/-- **Which 24 octets are no header**: those without the magic, and those of no known kind. -/
theorem ofBytes_eq_error_iff {bs : Bytes} {e : FrameFault} :
    ofBytes bs = .error e ↔
      (bs.take 4 ≠ magic ∧ e = .badMagic) ∨
      (bs.take 4 = magic ∧ (∀ k : FrameKind, bs.getD 8 0 ≠ k.code) ∧ e = .unknownKind) := by
  unfold ofBytes
  by_cases hmagic : bs.take 4 = magic
  · rw [if_neg (not_not_intro hmagic)]
    cases hk : FrameKind.ofCode? (bs.getD 8 0) with
    | none =>
        have hno : ∀ k : FrameKind, bs.getD 8 0 ≠ k.code := by
          intro k hcode
          rw [FrameKind.ofCode?_eq_some_iff.2 hcode] at hk
          cases hk
        simp only [Except.error.injEq, hmagic, ne_eq, not_true, false_and, true_and, false_or]
        exact ⟨fun h => ⟨hno, h.symm⟩, fun h => h.2.symm⟩
    | some kind =>
        rw [FrameKind.ofCode?_eq_some_iff] at hk
        simp only [reduceCtorEq, hmagic, ne_eq, not_true, false_and, false_or, true_and, false_iff]
        exact fun h => h.1 kind hk
  · rw [if_pos hmagic]
    simp [hmagic, eq_comm]

end FrameHeader

end DeviceGateway
