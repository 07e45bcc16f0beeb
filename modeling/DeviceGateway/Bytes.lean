/-!
# Bytes and words

The wire, the disk and the screen all carry finite strings of octets. Numbers travel as a fixed
count of octets, least significant first in frames and payloads, most significant first in
transfer lengths. The two directions of each order are inverse: `toNatLE_ofNatLE` reads back what
was written, `ofNatLE_toNatLE` writes back what was read.
-/

namespace DeviceGateway

abbrev Bytes := List UInt8

namespace Bytes

/-- **Little-endian digits.** The `k` low octets of `n`, least significant first. -/
def ofNatLE : Nat → Nat → Bytes
  | 0, _ => []
  | k + 1, n => UInt8.ofNat n :: ofNatLE k (n / 256)

/-- **Little-endian value.** The number whose digits, least significant first, are the octets. -/
def toNatLE : Bytes → Nat
  | [] => 0
  | b :: bs => b.toNat + 256 * toNatLE bs

/-- The `k` low octets of `n`, most significant first. -/
def ofNatBE (k n : Nat) : Bytes := (ofNatLE k n).reverse

/-- The number whose digits, most significant first, are the octets. -/
def toNatBE (bs : Bytes) : Nat := toNatLE bs.reverse

/-- The numbers that fit in `k` octets are those below. -/
def bound : Nat → Nat
  | 0 => 1
  | k + 1 => 256 * bound k

/-- The first `n` octets and the rest, when there are that many. -/
def split? (n : Nat) (bs : Bytes) : Option (Bytes × Bytes) :=
  let parts := bs.splitAt n
  if parts.1.length = n then some parts else none

/-! ## Reading back -/

@[simp] theorem length_ofNatLE (k n : Nat) : (ofNatLE k n).length = k := by
  induction k generalizing n with
  | zero => rfl
  | succ k ih => simp [ofNatLE, ih]

@[simp] theorem length_ofNatBE (k n : Nat) : (ofNatBE k n).length = k := by
  simp [ofNatBE]

theorem toNatLE_ofNatLE {k n : Nat} (h : n < bound k) : toNatLE (ofNatLE k n) = n := by
  induction k generalizing n with
  | zero => simp_all [ofNatLE, toNatLE, bound]
  | succ k ih =>
    have hq : n / 256 < bound k := by
      rw [bound] at h
      omega
    simp only [ofNatLE, toNatLE, ih hq, UInt8.toNat_ofNat']
    omega

theorem toNatLE_lt (bs : Bytes) : toNatLE bs < bound bs.length := by
  induction bs with
  | nil => simp [toNatLE, bound]
  | cons b bs ih =>
    have hb := b.toNat_lt
    simp only [toNatLE, List.length_cons, bound]
    omega

theorem ofNatLE_toNatLE (bs : Bytes) : ofNatLE bs.length (toNatLE bs) = bs := by
  induction bs with
  | nil => rfl
  | cons b bs ih =>
    have hb := b.toNat_lt
    have hq : (b.toNat + 256 * toNatLE bs) / 256 = toNatLE bs := by omega
    have hr : UInt8.ofNat (b.toNat + 256 * toNatLE bs) = b := by
      apply UInt8.toNat_inj.1
      simp only [UInt8.toNat_ofNat']
      omega
    simp only [List.length_cons, ofNatLE, toNatLE, hq, hr, ih]

theorem toNatBE_ofNatBE {k n : Nat} (h : n < bound k) : toNatBE (ofNatBE k n) = n := by
  simp [toNatBE, ofNatBE, toNatLE_ofNatLE h]

theorem toNatBE_lt (bs : Bytes) : toNatBE bs < bound bs.length := by
  simpa [toNatBE] using toNatLE_lt bs.reverse

theorem ofNatBE_toNatBE (bs : Bytes) : ofNatBE bs.length (toNatBE bs) = bs := by
  have h := ofNatLE_toNatLE bs.reverse
  rw [List.length_reverse] at h
  simp [ofNatBE, toNatBE, h]

theorem split?_append (bs rest : Bytes) : split? bs.length (bs ++ rest) = some (bs, rest) := by
  simp [split?, List.splitAt_eq]

theorem append_of_split? {n : Nat} {bs a b : Bytes} (h : split? n bs = some (a, b)) :
    bs = a ++ b ∧ a.length = n := by
  simp only [split?, List.splitAt_eq] at h
  split at h
  · simp only [Option.some.injEq, Prod.mk.injEq] at h
    obtain ⟨rfl, rfl⟩ := h
    simp_all
  · simp at h

theorem split?_eq_none_iff {n : Nat} {bs : Bytes} : split? n bs = none ↔ bs.length < n := by
  simp only [split?, List.splitAt_eq, List.length_take]
  split <;> simp <;> omega

end Bytes

end DeviceGateway
