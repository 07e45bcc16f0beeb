import DeviceGateway.Proofs.Frame.Reading

/-!
# Frames out of a stream, however it is cut

Octets that arrive later never change what has been read: a frame or a fault at the front of a
buffer stays there when the buffer grows (`decode_frame_append`, `decode_fault_append`). So feeding
pieces one after the other comes to the same as reading the whole stream at once, up to the first
fault (`upToFault_feed`), and the cut plays no part (`feed_any_cut`).
-/

namespace DeviceGateway.Frame

variable {c : Checksum}

/-! ## What has been read stays -/

theorem StartsWith.append {buffer body : Bytes} {h : FrameHeader} (hs : StartsWith buffer h body)
    (later : Bytes) : StartsWith (buffer ++ later) h (body ++ later) := by
  obtain ⟨reserved, hr, rfl⟩ := hs
  exact ⟨reserved, hr, List.append_assoc _ _ _⟩

theorem decode_frame_append {buffer rest : Bytes} {f : Frame} (h : decode c buffer = .frame f rest)
    (later : Bytes) : decode c (buffer ++ later) = .frame f (rest ++ later) := by
  rw [decode_eq_iff_front] at h ⊢
  cases h with
  | frame hs =>
      apply Front.frame
      rw [← List.append_assoc]
      exact hs.append later

theorem decode_fault_append {buffer rest : Bytes} {e : FrameFault}
    (h : decode c buffer = .fault e rest) (later : Bytes) :
    decode c (buffer ++ later) = .fault e (rest ++ later) := by
  have longer : buffer.length ≤ (buffer ++ later).length := by
    rw [List.length_append]
    exact Nat.le_add_right _ _
  rw [decode_eq_iff_front] at h ⊢
  cases h with
  | badMagic hl hm =>
      refine .badMagic (Nat.le_trans hl longer) fun hm' => hm ?_
      exact List.prefix_of_prefix_length_le hm' (List.prefix_append _ _)
        (Nat.le_trans (by decide) hl)
  | unknownKind hl hm hk =>
      refine .unknownKind (Nat.le_trans hl longer) (hm.trans (List.prefix_append _ _)) ?_
      intro k
      rw [List.getElem?_append_left (Nat.lt_of_lt_of_le (by decide) hl)]
      exact hk k
  | tooLarge hs hn => exact .tooLarge (hs.append later) hn
  | corrupt hs hn hp hc =>
      refine .corrupt ?_ hn hp hc
      rw [← List.append_assoc]
      exact hs.append later

/-! ## Reading all that is there -/

/-- Frames that were read before. -/
def Drained.behind (frames : List Frame) (d : Drained) : Drained :=
  { d with frames := frames ++ d.frames }

theorem Drained.behind_behind (fs gs : List Frame) (d : Drained) :
    (d.behind gs).behind fs = d.behind (fs ++ gs) := by
  rw [behind, behind, behind, List.append_assoc]

theorem drainFrom_eq (c : Checksum) (seen : List Frame) (buffer : Bytes) :
    drainFrom c seen buffer = (drain c buffer).behind seen.reverse := by
  unfold drain
  -- The frames read so far change on the way, so the induction is on what is left to read.
  induction hn : buffer.length using Nat.strongRecOn generalizing seen buffer with
  | ind n ih =>
      rw [drainFrom, drainFrom.eq_1 c [] buffer]
      split
      · simp only [Drained.behind, List.reverse_nil, List.append_nil]
      · simp only [Drained.behind, List.reverse_nil, List.append_nil]
      · next f rest h =>
        have hlt : rest.length < n := hn ▸ length_rest_of_decode h
        simp only [ih _ hlt (f :: seen) rest rfl, ih _ hlt [f] rest rfl, Drained.behind_behind,
          List.reverse_cons, List.reverse_nil, List.nil_append]

/-- **Reading all that is there**, one frame after the other. -/
theorem drain_eq (c : Checksum) (buffer : Bytes) :
    drain c buffer = match decode c buffer with
      | .more => ⟨[], none, buffer⟩
      | .fault e rest => ⟨[], some e, rest⟩
      | .frame f rest => (drain c rest).behind [f] := by
  rw [drain, drainFrom]
  split
  · next h => simp only [h, List.reverse_nil]
  · next e rest h => simp only [h, List.reverse_nil]
  · next f rest h =>
    simp only [h, drainFrom_eq, List.reverse_cons, List.reverse_nil, List.nil_append]

/-- Reading goes by the frames at the front: a way to argue about all of them. -/
theorem drain_induction {motive : Bytes → Prop}
    (more : ∀ buffer, decode c buffer = .more → motive buffer)
    (fault : ∀ buffer e rest, decode c buffer = .fault e rest → motive buffer)
    (frame : ∀ buffer f rest, decode c buffer = .frame f rest → motive rest → motive buffer)
    (buffer : Bytes) : motive buffer := by
  induction hn : buffer.length using Nat.strongRecOn generalizing buffer with
  | ind n ih =>
      cases h : decode c buffer with
      | more => exact more buffer h
      | fault e rest => exact fault buffer e rest h
      | frame f rest =>
          exact frame buffer f rest h (ih _ (hn ▸ length_rest_of_decode h) rest rfl)

theorem decode_rest_of_drain {buffer : Bytes} (h : (drain c buffer).fault = none) :
    decode c (drain c buffer).rest = .more := by
  induction buffer using drain_induction (c := c) with
  | more buffer hd => rw [drain_eq, hd]; exact hd
  | fault buffer e rest hd => rw [drain_eq, hd] at h; cases h
  | frame buffer f rest hd ih =>
      rw [drain_eq, hd] at h ⊢
      exact ih h

/-- **Without a fault, reading goes on where it stopped.** -/
theorem drain_append {buffer : Bytes} (h : (drain c buffer).fault = none) (later : Bytes) :
    drain c (buffer ++ later) =
      (drain c ((drain c buffer).rest ++ later)).behind (drain c buffer).frames := by
  induction buffer using drain_induction (c := c) with
  | more buffer hd => rw [drain_eq c buffer, hd]; rfl
  | fault buffer e rest hd => rw [drain_eq, hd] at h; cases h
  | frame buffer f rest hd ih =>
      rw [drain_eq c buffer, hd] at h ⊢
      rw [drain_eq, decode_frame_append hd]
      simp only [ih h]
      exact Drained.behind_behind _ _ _

/-- **After a fault, what comes later only lies behind it.** -/
theorem drain_append_of_fault {buffer : Bytes} {e : FrameFault}
    (h : (drain c buffer).fault = some e) (later : Bytes) :
    drain c (buffer ++ later) =
      ⟨(drain c buffer).frames, some e, (drain c buffer).rest ++ later⟩ := by
  induction buffer using drain_induction (c := c) with
  | more buffer hd => rw [drain_eq, hd] at h; cases h
  | fault buffer e' rest hd =>
      rw [drain_eq c buffer, hd] at h ⊢
      cases h
      rw [drain_eq, decode_fault_append hd]
  | frame buffer f rest hd ih =>
      rw [drain_eq c buffer, hd] at h ⊢
      rw [drain_eq, decode_frame_append hd]
      simp only [ih h]
      rfl

/-! ## Any cut of a stream -/

/-- **What pieces come to up to the first fault**, with this left in the buffer before them: all
frames, the fault if there is one, and what is left. -/
def upToFault (left : Bytes) : List Drained → Drained
  | [] => ⟨[], none, left⟩
  | d :: ds =>
    match d.fault with
    | some _ => d
    | none => (upToFault d.rest ds).behind d.frames

/-- **Pieces come to what their stream comes to.** Only what lies behind a fault may differ, for
the pieces after it are not there yet. -/
theorem upToFault_feed (pieces : List Bytes) {left : Bytes} (hleft : decode c left = .more) :
    let d := upToFault left (feed c left pieces)
    let whole := drain c (left ++ pieces.flatten)
    d.frames = whole.frames ∧ d.fault = whole.fault ∧ (d.fault = none → d.rest = whole.rest) := by
  induction pieces generalizing left with
  | nil =>
      rw [List.flatten_nil, List.append_nil, drain_eq, hleft]
      exact ⟨rfl, rfl, fun _ => rfl⟩
  | cons piece pieces ih =>
      rw [List.flatten_cons, ← List.append_assoc]
      cases hf : (drain c (left ++ piece)).fault with
      | none =>
          obtain ⟨hframes, hfault, hrest⟩ := ih (decode_rest_of_drain hf)
          simp only [feed, upToFault, hf, drain_append hf]
          refine ⟨?_, hfault, hrest⟩
          simp only [Drained.behind, hframes]
      | some e =>
          simp only [feed, upToFault, hf, drain_append_of_fault hf, reduceCtorEq, false_implies,
            and_self]

/-! ## Streams of encoded frames -/

theorem decode_toBytes_append (f : Frame) (later : Bytes) :
    decode c (f.toBytes c ++ later) = .frame f later := by
  refine decode_eq_of_front (.frame ⟨[0, 0, 0], rfl, ?_⟩)
  rw [toBytes, FrameHeader.toBytes, List.append_assoc]

/-- Of a frame that is not there as a whole nothing is read. -/
theorem decode_cut_short {f : Frame} {part : Bytes} (hp : part <+: f.toBytes c)
    (hne : part ≠ f.toBytes c) : decode c part = .more := by
  apply decode_eq_of_front
  obtain ⟨missing, hm⟩ := hp
  have hmissing : 0 < missing.length := by
    rw [List.length_pos_iff]
    rintro rfl
    exact hne (by rwa [List.append_nil] at hm)
  by_cases hl : part.length < FrameHeader.size
  · exact .short hl
  · have hhead : (f.header c).toBytes.length = FrameHeader.size :=
      FrameHeader.length_toBytesWith rfl _
    obtain ⟨body, rfl⟩ : (f.header c).toBytes <+: part := by
      refine List.prefix_of_prefix_length_le (List.prefix_append _ f.payload) ⟨missing, hm⟩ ?_
      rw [hhead]
      exact Nat.le_of_not_lt hl
    rw [toBytes, List.append_assoc, List.append_cancel_left_eq] at hm
    have hn := f.payload_le
    refine .waiting ⟨[0, 0, 0], rfl, rfl⟩ (by rwa [length_header]) ?_
    rw [length_header, ← hm, List.length_append]
    exact Nat.lt_add_of_pos_right hmissing

theorem drain_toBytes (frames : List Frame) {part : Bytes} (hp : decode c part = .more) :
    drain c (frames.flatMap (·.toBytes c) ++ part) = ⟨frames, none, part⟩ := by
  induction frames with
  | nil => rw [List.flatMap_nil, List.nil_append, drain_eq, hp]
  | cons f frames ih =>
      rw [List.flatMap_cons, List.append_assoc, drain_eq, decode_toBytes_append]
      simp only [ih]
      rfl

/-- **Reading does not depend on how the octets arrive.** Two cuts of one stream, well formed or
not, come to the same frames, the same first fault and, without one, the same octets left over. A
stream of encoded frames comes to these frames, with the beginning of a next one left over. -/
theorem feed_any_cut (c : Checksum) :
    (∀ pieces pieces' : List Bytes, pieces.flatten = pieces'.flatten →
      let d := upToFault [] (feed c [] pieces)
      let d' := upToFault [] (feed c [] pieces')
      d.frames = d'.frames ∧ d.fault = d'.fault ∧ (d.fault = none → d.rest = d'.rest)) ∧
    (∀ (frames : List Frame) (next : Frame) (part : Bytes) (pieces : List Bytes),
      part <+: next.toBytes c → part ≠ next.toBytes c →
      pieces.flatten = frames.flatMap (·.toBytes c) ++ part →
      upToFault [] (feed c [] pieces) = ⟨frames, none, part⟩) := by
  have hnil : decode c [] = .more := decode_eq_of_front (.short (by decide))
  constructor
  · intro pieces pieces' hcut
    obtain ⟨hframes, hfault, hrest⟩ := upToFault_feed pieces hnil
    obtain ⟨hframes', hfault', hrest'⟩ := upToFault_feed pieces' hnil
    rw [← hcut] at hframes' hfault' hrest'
    refine ⟨hframes.trans hframes'.symm, hfault.trans hfault'.symm, fun h => ?_⟩
    have h' := (hfault'.trans hfault.symm).trans h
    exact (hrest h).trans (hrest' h').symm
  · intro frames next part pieces hp hne hcut
    obtain ⟨hframes, hfault, hrest⟩ := upToFault_feed pieces hnil
    rw [hcut, List.nil_append, drain_toBytes frames (decode_cut_short hp hne)] at *
    have hr := hrest hfault
    generalize upToFault [] (feed c [] pieces) = d at hframes hfault hr ⊢
    obtain ⟨frames', fault', rest'⟩ := d
    exact Drained.mk.injEq .. ▸ ⟨hframes, hfault, hr⟩

/-- Two frames and the beginning of a third, in one piece and cut within the first header. -/
theorem feed_cut_within_header :
    let c := Checksum.standard
    let next : Frame := ⟨.message, 42, [1, 2, 3], by decide⟩
    let part := (next.toBytes c).take 26
    let stream := [halfClose 42, cancel 7].flatMap (·.toBytes c) ++ part
    let cut := upToFault [] (feed c [] [stream.take 10, [], stream.drop 10])
    let whole := upToFault [] (feed c [] [stream])
    (cut.frames = whole.frames ∧ cut.fault = whole.fault ∧
      (cut.fault = none → cut.rest = whole.rest)) ∧
    cut = ⟨[halfClose 42, cancel 7], none, part⟩ := by
  intro c next part stream cut whole
  have hpieces : [stream.take 10, [], stream.drop 10].flatten = stream := by
    simp only [List.flatten_cons, List.flatten_nil, List.append_nil, List.nil_append,
      List.take_append_drop]
  have hlen : (next.toBytes c).length = 27 := by
    rw [toBytes, List.length_append, FrameHeader.toBytes, FrameHeader.length_toBytesWith rfl]
    rfl
  constructor
  · exact (feed_any_cut c).1 _ _ (by rw [hpieces, List.flatten_singleton])
  · refine (feed_any_cut c).2 [halfClose 42, cancel 7] next part _ (List.take_prefix _ _) ?_ hpieces
    intro h
    have := congrArg List.length h
    rw [List.length_take, hlen] at this
    exact absurd this (by decide)

end DeviceGateway.Frame
