import DeviceGateway.Bytes

/-!
# UTF-8

Text travels as UTF-8. `encode` writes it, `decode` reads it back or says where the octets stop
being text, and `decodeLossy` reads anything, putting a replacement character for each stretch
that no character begins with. The two faults are told apart because the octets may simply end
too early: `incomplete` may still become text when more arrives, `invalid` never does.
-/

namespace DeviceGateway.Text.Utf8

/-- The octets of one character: one to four, by the size of its code point. -/
def encodeChar (c : Char) : Bytes :=
  let n := c.toNat
  if n < 0x80 then [UInt8.ofNat n]
  else if n < 0x800 then [UInt8.ofNat (0xC0 + n / 64), UInt8.ofNat (0x80 + n % 64)]
  else if n < 0x10000 then
    [UInt8.ofNat (0xE0 + n / 4096), UInt8.ofNat (0x80 + n / 64 % 64), UInt8.ofNat (0x80 + n % 64)]
  else
    [UInt8.ofNat (0xF0 + n / 262144), UInt8.ofNat (0x80 + n / 4096 % 64),
      UInt8.ofNat (0x80 + n / 64 % 64), UInt8.ofNat (0x80 + n % 64)]

def encode (s : String) : Bytes := s.toList.flatMap encodeChar

/-- Why octets are not text. Both count from the first octet. -/
inductive Fault where
  /-- The `length` octets from `index` on begin no character. -/
  | invalid (length index : Nat)
  /-- The octets from `index` on begin a character that they do not finish. -/
  | incomplete (index : Nat)
  deriving DecidableEq, Repr

def Fault.message : Fault → String
  | .invalid length index => s!"invalid utf-8 sequence of {length} bytes from index {index}"
  | .incomplete index => s!"incomplete utf-8 byte sequence from index {index}"

/-- What stands at the front of a byte string. -/
inductive Front where
  | char (c : Char) (rest : Bytes)
  | invalid (length : Nat) (rest : Bytes)
  | incomplete

/-- What a lead octet announces: how many octets follow, and the range of the first of them. The
ranges leave out code points with a shorter form, surrogates, and those past the last one. -/
def lead (a : Nat) : Option (Nat × Nat × Nat) :=
  if a < 0xC2 then none
  else if a < 0xE0 then some (1, 0x80, 0xBF)
  else if a = 0xE0 then some (2, 0xA0, 0xBF)
  else if a = 0xED then some (2, 0x80, 0x9F)
  else if a < 0xF0 then some (2, 0x80, 0xBF)
  else if a = 0xF0 then some (3, 0x90, 0xBF)
  else if a < 0xF4 then some (3, 0x80, 0xBF)
  else if a = 0xF4 then some (3, 0x80, 0x8F)
  else none

/-- The bits of a lead octet that belong to the code point, by the number of octets after it. -/
def leadBits (a : Nat) : Nat → Nat
  | 1 => a - 0xC0
  | 2 => a - 0xE0
  | _ => a - 0xF0

/-- Reads the remaining octets of a character: the next in a given range, those after it in the
range of every later octet. -/
def tails (seen : Nat) : Nat → Nat → Nat → Nat → Bytes → Front
  | 0, _, _, acc, bs => .char (Char.ofNat acc) bs
  | _ + 1, _, _, _, [] => .incomplete
  | n + 1, low, high, acc, b :: bs =>
    if low ≤ b.toNat ∧ b.toNat ≤ high then
      tails (seen + 1) n 0x80 0xBF (acc * 64 + (b.toNat - 0x80)) bs
    else .invalid seen (b :: bs)

/-- The front of a non-empty byte string. -/
def front (b : UInt8) (bs : Bytes) : Front :=
  if b.toNat < 0x80 then .char (Char.ofNat b.toNat) bs
  else match lead b.toNat with
    | none => .invalid 1 bs
    | some (n, low, high) => tails 1 n low high (leadBits b.toNat n) bs

/-- No reading makes the string longer. -/
theorem tails_rest_le {seen n low high acc : Nat} {bs rest : Bytes} :
    (∀ c, tails seen n low high acc bs = .char c rest → rest.length ≤ bs.length) ∧
    (∀ k, tails seen n low high acc bs = .invalid k rest → rest.length ≤ bs.length) := by
  induction n generalizing seen low high acc bs with
  | zero => simp +contextual [tails]
  | succ n ih =>
    cases bs with
    | nil => simp [tails]
    | cons b bs =>
      simp only [tails]
      split
      · exact ⟨fun c h => Nat.le_succ_of_le (ih.1 c h), fun k h => Nat.le_succ_of_le (ih.2 k h)⟩
      · simp +contextual

theorem front_char_length {b : UInt8} {bs rest : Bytes} {c : Char}
    (h : front b bs = .char c rest) : rest.length < (b :: bs).length := by
  unfold front at h
  split at h
  · simp_all
  · split at h
    · simp at h
    · exact Nat.lt_succ_of_le (tails_rest_le.1 c h)

theorem front_invalid_length {b : UInt8} {bs rest : Bytes} {k : Nat}
    (h : front b bs = .invalid k rest) : rest.length < (b :: bs).length := by
  unfold front at h
  split at h
  · simp at h
  · split at h
    · simp only [Front.invalid.injEq] at h
      simp [← h.2]
    · exact Nat.lt_succ_of_le (tails_rest_le.2 k h)

/-- Reads the octets from a position on, after the characters read so far (last first). -/
def decodeFrom (index : Nat) (read : List Char) : Bytes → Except Fault String
  | [] => .ok (String.ofList read.reverse)
  | b :: bs =>
    match h : front b bs with
    | .char c rest =>
      have : rest.length ≤ bs.length := Nat.le_of_lt_succ (front_char_length h)
      decodeFrom (index + c.utf8Size) (c :: read) rest
    | .invalid k _ => .error (.invalid k index)
    | .incomplete => .error (.incomplete index)
termination_by bs => bs.length

/-- **Strict reading.** The text whose octets these are, or the first fault. -/
def decode (bs : Bytes) : Except Fault String := decodeFrom 0 [] bs

/-- Reads what is left after the characters read so far (last first). -/
def decodeLossyFrom (read : List Char) : Bytes → String
  | [] => String.ofList read.reverse
  | b :: bs =>
    match h : front b bs with
    | .char c rest =>
      have : rest.length ≤ bs.length := Nat.le_of_lt_succ (front_char_length h)
      decodeLossyFrom (c :: read) rest
    | .invalid _ rest =>
      have : rest.length ≤ bs.length := Nat.le_of_lt_succ (front_invalid_length h)
      decodeLossyFrom ('\uFFFD' :: read) rest
    | .incomplete => String.ofList ('\uFFFD' :: read).reverse
termination_by bs => bs.length

/-- **Lossy reading.** Each stretch of octets that begins no character reads as one replacement
character. -/
def decodeLossy (bs : Bytes) : String := decodeLossyFrom [] bs

end DeviceGateway.Text.Utf8
