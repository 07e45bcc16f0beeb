import DeviceGateway.Proofs.Text.Utf8

/-!
# The order of texts in octets

Texts are in the same order as the octets that they are written in (`encode_lt_iff`). A smaller
character differs from a larger one in the first octets that they do not share, whatever comes after
them (`encodeChar_append_lt`).
-/

namespace DeviceGateway.Text.Utf8

variable {cs ds : List Char} {s t : String}

/-- Octets are compared by their values. -/
theorem ofNat_cons_lt_iff {m n : Nat} (hm : m < 256) (hn : n < 256) {l l' : Bytes} :
    UInt8.ofNat m :: l < UInt8.ofNat n :: l' ↔ m < n ∨ m = n ∧ l < l' := by
  rw [List.cons_lt_cons_iff, UInt8.lt_iff_toNat_lt, ← UInt8.toNat_inj, UInt8.toNat_ofNat',
    UInt8.toNat_ofNat', Nat.mod_eq_of_lt hm, Nat.mod_eq_of_lt hn]

/-- **A smaller character comes first**, whatever follows. -/
theorem encodeChar_append_lt {c c' : Char} (h : c < c') (rest rest' : Bytes) :
    encodeChar c ++ rest < encodeChar c' ++ rest' := by
  have hlt : c.toNat < c'.toNat := h
  have hvalid : c'.toNat < 0xD800 ∨ 0xDFFF < c'.toNat ∧ c'.toNat < 0x110000 := c'.valid
  simp only [encodeChar]
  generalize c.toNat = m at hlt
  generalize c'.toNat = n at hlt hvalid
  -- Fewer octets begin with a smaller one; as many are compared like the digits of the numbers.
  repeat' split
  all_goals
    simp (disch := omega) only [List.cons_append, List.nil_append, ofNat_cons_lt_iff]
    omega

theorem nil_lt_encodeChar_append (c : Char) (rest : Bytes) : [] < encodeChar c ++ rest := by
  simp only [encodeChar]
  repeat' split
  all_goals exact List.nil_lt_cons _ _

theorem flatMap_encodeChar_lt (h : cs < ds) : cs.flatMap encodeChar < ds.flatMap encodeChar := by
  induction cs generalizing ds with
  | nil =>
      cases ds with
      | nil => exact absurd h (List.not_lt_nil _)
      | cons d ds =>
          rw [List.flatMap_cons]
          exact nil_lt_encodeChar_append d _
  | cons c cs ih =>
      cases ds with
      | nil => exact absurd h (List.not_lt_nil _)
      | cons d ds =>
          rw [List.flatMap_cons, List.flatMap_cons]
          rcases List.cons_lt_cons_iff.1 h with hlt | ⟨rfl, hrest⟩
          · exact encodeChar_append_lt hlt _ _
          · exact List.append_left_lt (ih hrest)

/-- **Texts are in the order of their octets.** -/
theorem encode_lt_iff : encode s < encode t ↔ s < t := by
  constructor
  · intro h
    -- Were the text not smaller, its octets would not be.
    refine Decidable.byContradiction fun hnot => ?_
    have hle : t ≤ s := String.not_lt.1 hnot
    by_cases heq : s ≤ t
    · rw [String.le_antisymm hle heq] at h
      exact List.lt_irrefl _ h
    · exact List.lt_asymm h (flatMap_encodeChar_lt (String.lt_iff.1 (String.not_le.1 heq)))
  · exact fun h => flatMap_encodeChar_lt (String.lt_iff.1 h)

end DeviceGateway.Text.Utf8
