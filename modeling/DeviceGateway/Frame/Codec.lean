import DeviceGateway.Frame.Header

/-!
# Frames out of a stream of octets

Octets arrive in pieces of any size and wait in a buffer. `decode` looks at the buffer and either
asks for more, takes one frame from its front, or reports a fault. A frame with the wrong checksum
is removed, so that reading may go on with the next one; every other fault leaves the buffer as it
is, because nothing says where the next frame would start.
-/

namespace DeviceGateway.Frame

/-- What the buffer holds at its front, and what is left of it. -/
inductive Decoded where
  /-- No whole frame yet; the buffer stays. -/
  | more
  | frame (f : Frame) (rest : Bytes)
  | fault (e : FrameFault) (rest : Bytes)
  deriving DecidableEq, Repr

/-- **One frame from the front of a buffer.** -/
def decode (c : Checksum) (buffer : Bytes) : Decoded :=
  match Bytes.split? FrameHeader.size buffer with
  | none => .more
  | some (head, body) =>
    match FrameHeader.ofBytes head with
    | .error e => .fault e buffer
    | .ok h =>
      if maxPayload < h.length.toNat then .fault (.tooLarge h.length.toNat) buffer
      else match Bytes.split? h.length.toNat body with
        | none => .more
        | some (payload, rest) =>
          match ofParts c h payload with
          | .error e => .fault e rest
          | .ok f => .frame f rest

/-- A frame that is read is removed from the buffer. -/
theorem length_rest_of_decode {c : Checksum} {buffer rest : Bytes} {f : Frame}
    (h : decode c buffer = .frame f rest) : rest.length < buffer.length := by
  unfold decode at h
  split at h
  · simp at h
  · next head body hs =>
    obtain ⟨rfl, hl⟩ := Bytes.append_of_split? hs
    split at h
    · simp at h
    · split at h
      · simp at h
      · split at h
        · simp at h
        · next payload r hp =>
          obtain ⟨rfl, -⟩ := Bytes.append_of_split? hp
          split at h
          · simp at h
          · simp only [Decoded.frame.injEq] at h
            have : 0 < head.length := by rw [hl]; decide
            simp only [List.length_append, ← h.2]
            omega

/-- What a buffer yields until it asks for more or a fault shows. -/
structure Drained where
  frames : List Frame
  fault : Option FrameFault
  rest : Bytes
  deriving DecidableEq, Repr

/-- **All frames at the front of a buffer**, up to the first fault, after those read so far (last
first). -/
def drainFrom (c : Checksum) (seen : List Frame) (buffer : Bytes) : Drained :=
  match h : decode c buffer with
  | .more => ⟨seen.reverse, none, buffer⟩
  | .fault e rest => ⟨seen.reverse, some e, rest⟩
  | .frame f rest =>
    have := length_rest_of_decode h
    drainFrom c (f :: seen) rest
termination_by buffer.length

/-- All frames at the front of a buffer, up to the first fault. -/
def drain (c : Checksum) (buffer : Bytes) : Drained := drainFrom c [] buffer

/-- **Feeding pieces one after the other**: what each one yields, with what the pieces before it
left in the buffer. -/
def feed (c : Checksum) : Bytes → List Bytes → List Drained
  | _, [] => []
  | buffer, piece :: pieces =>
    let d := drain c (buffer ++ piece)
    d :: feed c d.rest pieces

end DeviceGateway.Frame
