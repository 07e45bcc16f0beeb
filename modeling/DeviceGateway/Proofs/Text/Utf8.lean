import DeviceGateway.Text.Utf8

/-!
# Text in octets and back

Whatever text is written is read back (`decode_encode`), character by character: the octets of a
character are read as that character, whatever comes after them (`front_encodeChar`). No other octets
are read as that text (`eq_encode_of_decode`), for a character has no second form
(`cons_eq_of_front`). A fault that is found lies within the octets.

Reading lossily never fails. It gives back what is text (`decodeLossy_encode`), and what it makes of
other octets is at most three times as long (`length_encode_decodeLossy_le`).
-/

namespace DeviceGateway.Text.Utf8

/-! ## Lengths -/

theorem length_encodeChar_le (c : Char) : (encodeChar c).length ≤ 4 := by
  simp only [encodeChar]
  repeat' split
  all_goals simp only [List.length_cons, List.length_nil, Nat.reduceAdd, Nat.reduceLeDiff]

theorem encode_append (s t : String) : encode (s ++ t) = encode s ++ encode t := by
  rw [encode, String.toList_append, List.flatMap_append, encode, encode]

/-- No character takes more than four octets. -/
theorem length_encode_le (s : String) : (encode s).length ≤ 4 * s.length := by
  rw [encode, ← String.length_toList]
  induction s.toList with
  | nil => exact Nat.le_refl 0
  | cons c cs ih =>
      rw [List.flatMap_cons, List.length_append, List.length_cons]
      have := length_encodeChar_le c
      omega

/-- The system counts at least one octet for a character. -/
theorem length_le_utf8ByteSize (s : String) : s.length ≤ s.utf8ByteSize := by
  have of_list : ∀ cs : List Char, cs.length ≤ (String.ofList cs).utf8ByteSize := by
    intro cs
    induction cs with
    | nil => exact Nat.zero_le _
    | cons c cs ih =>
        rw [String.ofList_cons, String.utf8ByteSize_append, String.utf8ByteSize_singleton,
          List.length_cons]
        have := c.utf8Size_pos
        omega
  have := of_list s.toList
  rwa [String.ofList_toList, String.length_toList] at this

theorem length_encode_replicate (n : Nat) (c : Char) :
    (encode (String.ofList (List.replicate n c))).length = n * (encodeChar c).length := by
  rw [encode, String.toList_ofList, List.length_flatMap, List.map_replicate, List.sum_replicate_nat]

/-! ## Reading back -/

theorem tails_succ {seen n low high acc : Nat} {b : UInt8} {bs : Bytes} (hl : low ≤ b.toNat)
    (hh : b.toNat ≤ high) : tails seen (n + 1) low high acc (b :: bs) =
      tails (seen + 1) n 0x80 0xBF (acc * 64 + (b.toNat - 0x80)) bs := by
  rw [tails, if_pos ⟨hl, hh⟩]

theorem front_of_lead {b : UInt8} {bs : Bytes} {n low high : Nat} (hb : 0x80 ≤ b.toNat)
    (hl : lead b.toNat = some (n, low, high)) :
    front b bs = tails 1 n low high (leadBits b.toNat n) bs := by
  rw [front, if_neg (by omega), hl]

theorem lead_two {a : Nat} (hl : 0xC2 ≤ a) (hh : a < 0xE0) : lead a = some (1, 0x80, 0xBF) := by
  rw [lead, if_neg (by omega), if_pos hh]

theorem lead_three {a : Nat} (hl : 0xE0 ≤ a) (hh : a < 0xF0) :
    lead a = some (2, if a = 0xE0 then 0xA0 else 0x80, if a = 0xED then 0x9F else 0xBF) := by
  rw [lead, if_neg (by omega), if_neg (by omega)]
  by_cases h0 : a = 0xE0
  · rw [if_pos h0, if_pos h0, if_neg (by omega)]
  · rw [if_neg h0, if_neg h0]
    by_cases hd : a = 0xED
    · rw [if_pos hd, if_pos hd]
    · rw [if_neg hd, if_neg hd, if_pos hh]

theorem lead_four {a : Nat} (hl : 0xF0 ≤ a) (hh : a ≤ 0xF4) :
    lead a = some (3, if a = 0xF0 then 0x90 else 0x80, if a = 0xF4 then 0x8F else 0xBF) := by
  rw [lead, if_neg (by omega), if_neg (by omega), if_neg (by omega), if_neg (by omega),
    if_neg (by omega)]
  by_cases h0 : a = 0xF0
  · rw [if_pos h0, if_pos h0, if_neg (by omega)]
  · rw [if_neg h0, if_neg h0]
    by_cases h4 : a = 0xF4
    · rw [if_neg (by omega), if_pos h4, if_pos h4]
    · rw [if_pos (by omega), if_neg h4]

/-- **The octets of a character read as that character**, whatever comes after them. -/
theorem front_encodeChar (c : Char) (rest : Bytes) :
    ∃ b bs, encodeChar c ++ rest = b :: bs ∧ front b bs = .char c rest := by
  have hvalid : c.toNat < 0xD800 ∨ 0xDFFF < c.toNat ∧ c.toNat < 0x110000 := c.valid
  have hback : ∀ n, n = c.toNat → Front.char (Char.ofNat n) rest = .char c rest := by
    rintro n rfl
    rw [Char.ofNat_toNat]
  have octet : ∀ {k : Nat}, k < 256 → (UInt8.ofNat k).toNat = k := fun hk => by
    rw [UInt8.toNat_ofNat', Nat.mod_eq_of_lt hk]
  simp only [encodeChar]
  generalize c.toNat = n at hvalid hback
  -- A character takes one, two, three or four octets, and the first of them says how many.
  split
  · next h1 =>
    refine ⟨_, _, rfl, ?_⟩
    rw [front, octet (by omega), if_pos h1]
    exact hback _ rfl
  · split
    · next h1 h2 =>
      have hb : (UInt8.ofNat (0xC0 + n / 64)).toNat = 0xC0 + n / 64 := octet (by omega)
      have ht : (UInt8.ofNat (0x80 + n % 64)).toNat = 0x80 + n % 64 := octet (by omega)
      have hbits : leadBits (0xC0 + n / 64) 1 = n / 64 := Nat.add_sub_cancel_left ..
      refine ⟨_, _ :: rest, rfl, ?_⟩
      rw [front_of_lead (by omega) (lead_two (by omega) (by omega)),
        tails_succ (by omega) (by omega), hb, ht, hbits, tails]
      refine hback _ ?_
      omega
    · split
      · next h1 h2 h3 =>
        have hb : (UInt8.ofNat (0xE0 + n / 4096)).toNat = 0xE0 + n / 4096 := octet (by omega)
        have hm : (UInt8.ofNat (0x80 + n / 64 % 64)).toNat = 0x80 + n / 64 % 64 :=
          octet (by omega)
        have ht : (UInt8.ofNat (0x80 + n % 64)).toNat = 0x80 + n % 64 := octet (by omega)
        have hbits : leadBits (0xE0 + n / 4096) 2 = n / 4096 := Nat.add_sub_cancel_left ..
        refine ⟨_, _ :: _ :: rest, rfl, ?_⟩
        rw [front_of_lead (by omega) (lead_three (by omega) (by omega)),
          tails_succ (by split <;> omega) (by split <;> omega),
          tails_succ (by omega) (by omega), hb, hm, ht, hbits, tails]
        refine hback _ ?_
        omega
      · next h1 h2 h3 =>
        have hb : (UInt8.ofNat (0xF0 + n / 262144)).toNat = 0xF0 + n / 262144 := octet (by omega)
        have hm : (UInt8.ofNat (0x80 + n / 4096 % 64)).toNat = 0x80 + n / 4096 % 64 :=
          octet (by omega)
        have hm' : (UInt8.ofNat (0x80 + n / 64 % 64)).toNat = 0x80 + n / 64 % 64 :=
          octet (by omega)
        have ht : (UInt8.ofNat (0x80 + n % 64)).toNat = 0x80 + n % 64 := octet (by omega)
        have hbits : leadBits (0xF0 + n / 262144) 3 = n / 262144 := Nat.add_sub_cancel_left ..
        refine ⟨_, _ :: _ :: _ :: rest, rfl, ?_⟩
        rw [front_of_lead (by omega) (lead_four (by omega) (by omega)),
          tails_succ (by split <;> omega) (by split <;> omega), tails_succ (by omega) (by omega),
          tails_succ (by omega) (by omega), hb, hm, hm', ht, hbits, tails]
        refine hback _ ?_
        omega

theorem decodeFrom_encodeChar (index : Nat) (read : List Char) (c : Char) (rest : Bytes) :
    decodeFrom index read (encodeChar c ++ rest) =
      decodeFrom (index + c.utf8Size) (c :: read) rest := by
  obtain ⟨b, bs, hcons, hfront⟩ := front_encodeChar c rest
  rw [hcons, decodeFrom]
  split
  · next c' rest' h =>
    rw [hfront] at h
    cases h
    rfl
  · next h => rw [hfront] at h; cases h
  · next h => rw [hfront] at h; cases h

theorem decodeFrom_flatMap (index : Nat) (read cs : List Char) :
    decodeFrom index read (cs.flatMap encodeChar) = .ok (String.ofList (read.reverse ++ cs)) := by
  induction cs generalizing index read with
  | nil => rw [List.flatMap_nil, decodeFrom, List.append_nil]
  | cons c cs ih =>
      rw [List.flatMap_cons, decodeFrom_encodeChar, ih, List.reverse_cons, List.append_assoc]
      rfl

/-- **Whatever text is written is read back.** -/
theorem decode_encode (s : String) : decode (encode s) = .ok s := by
  rw [decode, encode, decodeFrom_flatMap, List.reverse_nil, List.nil_append, String.ofList_toList]

/-! ## Only what is written is read -/

/-- A number that is a code point is that of its character. -/
theorem toNat_charOfNat {n : Nat} (h : n < 0xD800 ∨ 0xDFFF < n ∧ n < 0x110000) :
    (Char.ofNat n).toNat = n := by
  have hv : n.isValidChar := h
  rw [Char.ofNat, dif_pos hv]
  rfl

/-- What follows a lead octet when a character is read: the next octet is in its range. -/
theorem tails_succ_eq_char {seen n low high acc : Nat} {bs rest : Bytes} {c : Char}
    (h : tails seen (n + 1) low high acc bs = .char c rest) :
    ∃ b bs', bs = b :: bs' ∧ low ≤ b.toNat ∧ b.toNat ≤ high ∧
      tails (seen + 1) n 0x80 0xBF (acc * 64 + (b.toNat - 0x80)) bs' = .char c rest := by
  cases bs with
  | nil => cases h
  | cons b bs =>
      rw [tails] at h
      split at h
      · next hrange => exact ⟨b, bs, rfl, hrange.1, hrange.2, h⟩
      · cases h

theorem eq_of_tails_zero {seen low high acc : Nat} {bs rest : Bytes} {c : Char}
    (h : tails seen 0 low high acc bs = .char c rest) : c = Char.ofNat acc ∧ bs = rest := by
  cases h
  exact ⟨rfl, rfl⟩

theorem ofNat_of_toNat {b : UInt8} {n : Nat} (h : n = b.toNat) : UInt8.ofNat n = b := by
  rw [h, UInt8.ofNat_toNat]

theorem encodeChar_of_one {b : UInt8} (hb : b.toNat < 0x80) :
    encodeChar (Char.ofNat b.toNat) = [b] := by
  have hn := toNat_charOfNat (n := b.toNat) (.inl (by omega))
  simp only [encodeChar, hn, if_pos hb, UInt8.ofNat_toNat]

theorem encodeChar_of_two {a b : UInt8} (ha : 0xC2 ≤ a.toNat) (ha' : a.toNat < 0xE0)
    (hb : 0x80 ≤ b.toNat) (hb' : b.toNat ≤ 0xBF) :
    encodeChar (Char.ofNat ((a.toNat - 0xC0) * 64 + (b.toNat - 0x80))) = [a, b] := by
  have hn := toNat_charOfNat (n := (a.toNat - 0xC0) * 64 + (b.toNat - 0x80)) (.inl (by omega))
  simp only [encodeChar, hn]
  rw [if_neg (by omega), if_pos (by omega), ofNat_of_toNat (b := a) (by omega),
    ofNat_of_toNat (b := b) (by omega)]

/-- The range that a lead octet announces for the octet after it. -/
theorem ranges_of_lead {a n low high : Nat} (h : lead a = some (n, low, high)) :
    (n = 1 ∧ 0xC2 ≤ a ∧ a < 0xE0 ∧ low = 0x80 ∧ high = 0xBF) ∨
    (n = 2 ∧ 0xE0 ≤ a ∧ a < 0xF0 ∧ 0x80 ≤ low ∧ high ≤ 0xBF ∧ (a = 0xE0 → 0xA0 ≤ low) ∧
      (a = 0xED → high ≤ 0x9F)) ∨
    (n = 3 ∧ 0xF0 ≤ a ∧ a ≤ 0xF4 ∧ 0x80 ≤ low ∧ high ≤ 0xBF ∧ (a = 0xF0 → 0x90 ≤ low) ∧
      (a = 0xF4 → high ≤ 0x8F)) := by
  unfold lead at h
  repeat' split at h
  all_goals cases h
  all_goals omega

theorem encodeChar_of_three {a b c : UInt8} (ha : 0xE0 ≤ a.toNat) (ha' : a.toNat < 0xF0)
    (hb : 0x80 ≤ b.toNat) (hb' : b.toNat ≤ 0xBF) (hfirst : a.toNat = 0xE0 → 0xA0 ≤ b.toNat)
    (hlast : a.toNat = 0xED → b.toNat ≤ 0x9F) (hc : 0x80 ≤ c.toNat) (hc' : c.toNat ≤ 0xBF) :
    encodeChar (Char.ofNat
      (((a.toNat - 0xE0) * 64 + (b.toNat - 0x80)) * 64 + (c.toNat - 0x80))) = [a, b, c] := by
  have hn := toNat_charOfNat
    (n := ((a.toNat - 0xE0) * 64 + (b.toNat - 0x80)) * 64 + (c.toNat - 0x80)) (by omega)
  simp only [encodeChar, hn]
  rw [if_neg (by omega), if_neg (by omega), if_pos (by omega), ofNat_of_toNat (b := a) (by omega),
    ofNat_of_toNat (b := b) (by omega), ofNat_of_toNat (b := c) (by omega)]

theorem encodeChar_of_four {a b c d : UInt8} (ha : 0xF0 ≤ a.toNat) (ha' : a.toNat ≤ 0xF4)
    (hb : 0x80 ≤ b.toNat) (hb' : b.toNat ≤ 0xBF) (hfirst : a.toNat = 0xF0 → 0x90 ≤ b.toNat)
    (hlast : a.toNat = 0xF4 → b.toNat ≤ 0x8F) (hc : 0x80 ≤ c.toNat) (hc' : c.toNat ≤ 0xBF)
    (hd : 0x80 ≤ d.toNat) (hd' : d.toNat ≤ 0xBF) :
    encodeChar (Char.ofNat ((((a.toNat - 0xF0) * 64 + (b.toNat - 0x80)) * 64 +
      (c.toNat - 0x80)) * 64 + (d.toNat - 0x80))) = [a, b, c, d] := by
  have hn := toNat_charOfNat
    (n := (((a.toNat - 0xF0) * 64 + (b.toNat - 0x80)) * 64 + (c.toNat - 0x80)) * 64 +
      (d.toNat - 0x80)) (by omega)
  simp only [encodeChar, hn]
  rw [if_neg (by omega), if_neg (by omega), if_neg (by omega), ofNat_of_toNat (b := a) (by omega),
    ofNat_of_toNat (b := b) (by omega), ofNat_of_toNat (b := c) (by omega),
    ofNat_of_toNat (b := d) (by omega)]

/-- **The octets that read as a character are the octets of that character.** -/
theorem cons_eq_of_front {b : UInt8} {bs rest : Bytes} {c : Char}
    (h : front b bs = .char c rest) : b :: bs = encodeChar c ++ rest := by
  unfold front at h
  split at h
  · next hb =>
    cases h
    rw [encodeChar_of_one hb]
    rfl
  · split at h
    · cases h
    · next n low high hl =>
      rcases ranges_of_lead hl with ⟨rfl, ha, ha', rfl, rfl⟩ | ⟨rfl, ha, ha', hlow, hhigh, hf, hlast⟩ |
        ⟨rfl, ha, ha', hlow, hhigh, hf, hlast⟩
      · obtain ⟨b₁, bs₁, rfl, h1, h1', ht⟩ := tails_succ_eq_char h
        obtain ⟨hc, rfl⟩ := eq_of_tails_zero ht
        have hbits : leadBits b.toNat 1 = b.toNat - 0xC0 := rfl
        rw [hc, hbits, encodeChar_of_two ha ha' h1 h1']
        rfl
      · obtain ⟨b₁, bs₁, rfl, h1, h1', h⟩ := tails_succ_eq_char h
        obtain ⟨b₂, bs₂, rfl, h2, h2', ht⟩ := tails_succ_eq_char h
        obtain ⟨hc, rfl⟩ := eq_of_tails_zero ht
        have hbits : leadBits b.toNat 2 = b.toNat - 0xE0 := rfl
        rw [hc, hbits, encodeChar_of_three ha ha' (by omega) (by omega) (by omega) (by omega) h2 h2']
        rfl
      · obtain ⟨b₁, bs₁, rfl, h1, h1', h⟩ := tails_succ_eq_char h
        obtain ⟨b₂, bs₂, rfl, h2, h2', h⟩ := tails_succ_eq_char h
        obtain ⟨b₃, bs₃, rfl, h3, h3', ht⟩ := tails_succ_eq_char h
        obtain ⟨hc, rfl⟩ := eq_of_tails_zero ht
        have hbits : leadBits b.toNat 3 = b.toNat - 0xF0 := rfl
        rw [hc, hbits, encodeChar_of_four ha ha' (by omega) (by omega) (by omega) (by omega) h2 h2' h3
          h3']
        rfl

/-- Octets that read as text, behind some characters, are those of the characters that follow. -/
theorem eq_flatMap_of_decodeFrom {index : Nat} {read : List Char} {bs : Bytes} {s : String}
    (h : decodeFrom index read bs = .ok s) :
    ∃ cs, bs = cs.flatMap encodeChar ∧ s = String.ofList (read.reverse ++ cs) := by
  induction index, read, bs using decodeFrom.induct with
  | case1 index read =>
      rw [decodeFrom] at h
      cases h
      exact ⟨[], rfl, by rw [List.append_nil]⟩
  | case2 index read b bs c rest hf _ ih =>
      rw [decodeFrom] at h
      split at h
      · next c' rest' hf' =>
        cases hf.symm.trans hf'
        obtain ⟨cs, rfl, rfl⟩ := ih h
        refine ⟨c :: cs, ?_, ?_⟩
        · rw [cons_eq_of_front hf, List.flatMap_cons]
        · rw [List.reverse_cons, List.append_assoc, List.singleton_append]
      · cases h
      · cases h
  | case3 index read b bs k rest hf =>
      rw [decodeFrom] at h
      split at h
      · next hf' => cases hf.symm.trans hf'
      · cases h
      · cases h
  | case4 index read b bs hf =>
      rw [decodeFrom] at h
      split at h
      · next hf' => cases hf.symm.trans hf'
      · cases h
      · cases h

/-- **Only the octets of a text read as that text.** -/
theorem eq_encode_of_decode {bs : Bytes} {s : String} (h : decode bs = .ok s) : bs = encode s := by
  obtain ⟨cs, rfl, rfl⟩ := eq_flatMap_of_decodeFrom h
  rw [encode, String.toList_ofList, List.reverse_nil, List.nil_append]


/-! ## Faults -/

/-- A fault lies within the octets. -/
def Fault.Within (n : Nat) : Fault → Prop
  | .invalid length index => length ≤ n ∧ index ≤ n
  | .incomplete index => index ≤ n

theorem tails_invalid_le {seen n low high acc k : Nat} {bs rest : Bytes}
    (h : tails seen n low high acc bs = .invalid k rest) : k ≤ seen + bs.length := by
  induction n generalizing seen low high acc bs with
  | zero => cases h
  | succ n ih =>
      cases bs with
      | nil => cases h
      | cons b bs =>
          rw [tails] at h
          split at h
          · have := ih h
            rw [List.length_cons]
            omega
          · cases h
            exact Nat.le_add_right _ _

theorem front_invalid_le {b : UInt8} {bs rest : Bytes} {k : Nat}
    (h : front b bs = .invalid k rest) : k ≤ (b :: bs).length := by
  unfold front at h
  split at h
  · cases h
  · split at h
    · cases h
      exact Nat.le_add_left _ _
    · have := tails_invalid_le h
      rw [List.length_cons]
      omega

theorem within_of_decodeFrom {index : Nat} {read : List Char} {bs : Bytes} {fault : Fault}
    (h : decodeFrom index read bs = .error fault) : fault.Within (index + 4 * bs.length) := by
  induction hn : bs.length using Nat.strongRecOn generalizing index read bs with
  | ind n ih =>
      cases bs with
      | nil =>
          rw [decodeFrom] at h
          cases h
      | cons b bs =>
          rw [decodeFrom] at h
          split at h
          · next c rest hf =>
            have hlt : rest.length < n := hn ▸ front_char_length hf
            -- Reading on takes one octet at least and counts four at most.
            have hsize := c.utf8Size_le_four
            have := ih _ hlt h rfl
            cases fault with
            | invalid length i =>
                obtain ⟨hl, hi⟩ := this
                exact ⟨by omega, by omega⟩
            | incomplete i =>
                have hi : i ≤ index + c.utf8Size + 4 * rest.length := this
                show i ≤ index + 4 * n
                omega
          · next k rest hf =>
            cases h
            have := front_invalid_le hf
            exact ⟨by omega, by omega⟩
          · cases h
            exact Nat.le_add_right _ _

/-! ## Lossy reading -/

section

variable {read : List Char} {b : UInt8} {bs rest : Bytes}

theorem decodeLossyFrom_char {c : Char} (h : front b bs = .char c rest) :
    decodeLossyFrom read (b :: bs) = decodeLossyFrom (c :: read) rest := by
  rw [decodeLossyFrom]
  split
  · next hf =>
    cases h.symm.trans hf
    rfl
  · next hf => cases h.symm.trans hf
  · next hf => cases h.symm.trans hf

theorem decodeLossyFrom_invalid {k : Nat} (h : front b bs = .invalid k rest) :
    decodeLossyFrom read (b :: bs) = decodeLossyFrom ('\uFFFD' :: read) rest := by
  rw [decodeLossyFrom]
  split
  · next hf => cases h.symm.trans hf
  · next hf =>
    cases h.symm.trans hf
    rfl
  · next hf => cases h.symm.trans hf

theorem decodeLossyFrom_incomplete (h : front b bs = .incomplete) :
    decodeLossyFrom read (b :: bs) = String.ofList ('\uFFFD' :: read).reverse := by
  rw [decodeLossyFrom]
  split
  · next hf => cases h.symm.trans hf
  · next hf => cases h.symm.trans hf
  · rfl

end

/-- What is the text of some characters, behind others, reads lossily as the same text. -/
theorem decodeLossyFrom_flatMap (read cs : List Char) :
    decodeLossyFrom read (cs.flatMap encodeChar) = String.ofList (read.reverse ++ cs) := by
  induction cs generalizing read with
  | nil => rw [List.flatMap_nil, decodeLossyFrom, List.append_nil]
  | cons c cs ih =>
      obtain ⟨b, bs, hcons, hfront⟩ := front_encodeChar c (cs.flatMap encodeChar)
      rw [List.flatMap_cons, hcons, decodeLossyFrom_char hfront, ih, List.reverse_cons,
        List.append_assoc]
      rfl

/-- **What is text reads lossily as that text.** -/
theorem decodeLossy_encode (s : String) : decodeLossy (encode s) = s := by
  rw [decodeLossy, encode, decodeLossyFrom_flatMap, List.reverse_nil, List.nil_append,
    String.ofList_toList]

theorem length_encode_reverse (cs : List Char) :
    (encode (String.ofList cs.reverse)).length = (cs.flatMap encodeChar).length := by
  rw [encode, String.toList_ofList, List.length_flatMap, List.length_flatMap, List.map_reverse,
    List.sum_reverse]

/-- What is read lossily, behind some characters, is at most three times as long as the octets: a
character takes its own octets, and a replacement takes three for at least one. -/
theorem length_encode_decodeLossyFrom_le (read : List Char) (bs : Bytes) :
    (encode (decodeLossyFrom read bs)).length ≤
      (read.flatMap encodeChar).length + 3 * bs.length := by
  have replaced : (encodeChar '\uFFFD').length = 3 := rfl
  induction read, bs using decodeLossyFrom.induct with
  | case1 read =>
      rw [decodeLossyFrom, length_encode_reverse]
      exact Nat.le_add_right _ _
  | case2 read b bs c rest hf _ ih =>
      have hlength := congrArg List.length (cons_eq_of_front hf)
      rw [List.length_append] at hlength
      rw [List.flatMap_cons, List.length_append] at ih
      rw [decodeLossyFrom_char hf]
      omega
  | case3 read b bs k rest hf _ ih =>
      have hshorter := front_invalid_length hf
      rw [List.flatMap_cons, List.length_append, replaced] at ih
      rw [decodeLossyFrom_invalid hf]
      omega
  | case4 read b bs hf =>
      rw [decodeLossyFrom_incomplete hf, length_encode_reverse, List.flatMap_cons,
        List.length_append, replaced, List.length_cons]
      omega

/-- **Lossy reading makes octets at most three times as long.** -/
theorem length_encode_decodeLossy_le (bs : Bytes) :
    (encode (decodeLossy bs)).length ≤ 3 * bs.length := by
  have hle := length_encode_decodeLossyFrom_le [] bs
  rwa [List.flatMap_nil, List.length_nil, Nat.zero_add] at hle

end DeviceGateway.Text.Utf8
