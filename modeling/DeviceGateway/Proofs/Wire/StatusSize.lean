import DeviceGateway.Frame.Basic
import DeviceGateway.Proofs.Wire.Layouts

/-!
# How large a status is

A status carries the wording of an error, however long it is, and a frame takes only so much: a
status fits a frame up to a certain length of its wording (`Frame.status_eq_ok_iff`). What is wrong
with a request that does not decode is said in few words, so the status of its refusal always fits
(`Frame.status_of_malformed`).
-/

namespace DeviceGateway

/-- What a status takes besides its wording. -/
def Status.overhead : Nat := 12

/-- Whether the status fits a frame. -/
def Status.fits (s : Status) : Bool :=
  Status.overhead + (Text.Utf8.encode s.message).length ≤ Frame.maxPayload

theorem Status.length_toBytes (s : Status) :
    (Payload.toBytes s).length = Status.overhead + (Text.Utf8.encode s.message).length := by
  have hcode : (StatusCode.layout.write s.code).length = 4 := by
    cases s.code <;> exact Bytes.length_ofNatLE _ _
  show (StatusCode.layout.write s.code ++
    (Bytes.ofNatLE 8 _ ++ Text.Utf8.encode s.message)).length = _
  rw [List.length_append, List.length_append, hcode, Bytes.length_ofNatLE, ← Nat.add_assoc]
  rfl

/-- **A status in few words fits a frame.** -/
theorem Status.fits_of_message_le {s : Status}
    (h : Status.overhead + 4 * s.message.length ≤ Frame.maxPayload) : s.fits = true := by
  rw [Status.fits, decide_eq_true_iff]
  exact Nat.le_trans (Nat.add_le_add_left (Text.Utf8.length_encode_le s.message) _) h

namespace Frame

/-- **A status fits a frame** exactly up to a certain length of its wording. -/
theorem status_eq_ok_iff {id : UInt64} {s : Status} :
    (∃ f, Frame.status id s = .ok f) ↔ s.fits = true := by
  rw [Status.fits, decide_eq_true_iff, ← Status.length_toBytes, Frame.status, Frame.make]
  constructor
  · rintro ⟨f, hf⟩
    split at hf
    · next hle => exact hle
    · cases hf
  · intro hle
    rw [dif_pos hle]
    exact ⟨_, rfl⟩

/-- Whether the frame ends the call with a number. -/
def isStatusOf (id : UInt64) (f : Frame) : Bool := f.kind = .status && f.callId = id

theorem isStatusOf_of_status {id i : UInt64} {s : Status} {f : Frame}
    (h : Frame.status i s = .ok f) : f.isStatusOf id = decide (i = id) := by
  unfold Frame.status Frame.make at h
  split at h
  · cases h
    simp [isStatusOf]
  · cases h

/-- **The refusal of a request that does not decode always fits a frame.** -/
theorem status_of_malformed (f : Frame) {e : GatewayError}
    (h : (Payload.ofBytes f.payload : Except GatewayError CallRequest) = .error e) :
    ∃ g, Frame.status f.callId (.ofError e) = .ok g := by
  have reads : (Payload.layout (α := CallRequest)).ReadsOn :=
    (Wire.Layout.ReadsOn.text.pair (Wire.Layout.ReadsOn.text.pair Wire.Layout.ReadsOn.octets)).map
      _ _
  unfold Payload.ofBytes Payload.read at h
  split at h
  · cases h
  · next fault hread =>
    cases h
    split at hread
    · cases hread
    · next fault' hf =>
      cases hread
      -- The payload came in a frame, so places in it are named in few digits.
      have hsmall : 4 * f.payload.length < 10000000 := by
        have : f.payload.length ≤ 1048576 := f.payload_le
        omega
      have hwords := Wire.Layout.length_message_le hsmall (reads.within hf)
      have hlen : (Status.ofError (.encoding fault.message)).message.length =
          16 + fault.message.length := String.length_append _ _
      refine status_eq_ok_iff.2 (Status.fits_of_message_le ?_)
      show 12 + _ ≤ 1048576
      omega

end Frame

end DeviceGateway
