import DeviceGateway.Proofs.Call.Course

/-!
# Dialogues

A dialogue is a call from its request to its status: the caller makes its request, says what it has
to say and perhaps that this was all, and the server answers and says that the call went well
(`Dialogue`). What is said are the kinds and the payloads of the frames under one number
(`Frame.words`); frames under other numbers may come between them.
-/

namespace DeviceGateway

/-- What a frame says, whatever number it carries. -/
abbrev Word := FrameKind × Bytes

namespace Frame

def word (f : Frame) : Word := (f.kind, f.payload)

/-- **What frames say under a number.** -/
def words (id : UInt64) (frames : List Frame) : List Word :=
  (frames.filter (·.callId == id)).map word

variable {id : UInt64} {f : Frame} {fs gs : List Frame}

@[simp] theorem words_nil : words id [] = [] := rfl

theorem words_append : words id (fs ++ gs) = words id fs ++ words id gs := by
  rw [words, List.filter_append, List.map_append, words, words]

theorem words_cons : words id (f :: fs) = words id [f] ++ words id fs := by
  rw [← words_append, List.singleton_append]

theorem words_own (h : f.callId = id) : words id [f] = [f.word] := by
  simp [words, h]

/-- Frames under other numbers say nothing. -/
theorem words_of_ne (h : ∀ f ∈ fs, f.callId ≠ id) : words id fs = [] := by
  rw [words, List.map_eq_nil_iff, List.filter_eq_nil_iff]
  exact fun f hf heq => h f hf (beq_iff_eq.1 heq)

/-- When all frames are under one number, nothing comes between. -/
theorem words_of_forall (h : ∀ f ∈ fs, f.callId = id) : words id fs = fs.map word := by
  rw [words, List.filter_eq_self.2 fun f hf => beq_iff_eq.2 (h f hf)]

theorem words_other (h : f.callId ≠ id) : words id [f] = [] :=
  words_of_ne fun g hg => by rwa [List.mem_singleton.1 hg]

end Frame

/-- Payloads that are said in messages. -/
def messageWords (ms : List Bytes) : List Word := ms.map (.message, ·)

theorem messageWords_append (ms ns : List Bytes) :
    messageWords (ms ++ ns) = messageWords ms ++ messageWords ns := List.map_append

theorem prefix_messageWords {ms ns : List Bytes} (h : ms <+: ns) :
    messageWords ms <+: messageWords ns := h.map _

theorem kind_of_mem_messageWords {w : Word} {ms : List Bytes} (h : w ∈ messageWords ms) :
    w.1 = .message := by
  obtain ⟨m, -, rfl⟩ := List.mem_map.1 h
  rfl

/-- What a step of a call says goes behind what waits in the outbox, under the number of the call. -/
theorem Course.Says.frames {id : UInt64} {b b' : Outbox} {said : List Bytes} (h : Says id b b' said) :
    ∃ new, b'.queue = b.queue ++ new ∧ (∀ f ∈ new, f.callId = id) ∧
      new.map Frame.word = messageWords said := by
  cases h with
  | nothing hb =>
      refine ⟨[], by rw [hb, List.append_nil], ?_, rfl⟩
      intro f hf
      cases hf
  | message f hk hid hput =>
      obtain ⟨-, -, rfl⟩ := Outbox.put?_eq_ok_iff.1 hput
      refine ⟨[f], rfl, ?_, ?_⟩
      · intro g hg
        rwa [List.mem_singleton.1 hg]
      · rw [List.map_singleton, Frame.word, hk]
        rfl

theorem Course.Says.words {id : UInt64} {b b' : Outbox} {said : List Bytes} (h : Says id b b' said) :
    ∃ new, b'.queue = b.queue ++ new ∧ Frame.words id new = messageWords said := by
  obtain ⟨new, hq, hid, hwords⟩ := h.frames
  exact ⟨new, hq, (Frame.words_of_forall hid).trans hwords⟩

/-- **A call from its request to its status.** -/
structure Dialogue (σ ν : Type) where
  id : UInt64
  request : CallRequest
  /-- What the handler is to be told, and what it is to answer. -/
  course : Course σ ν
  /-- Whether the caller says when it has said everything. -/
  closes : Bool

namespace Dialogue

variable {σ ν : Type} (d : Dialogue σ ν)

/-- The end of what the caller says. -/
def ending : List Word := if d.closes then [(.halfClose, [])] else []

/-- What the caller says after its request. -/
def talk : List Word := messageWords d.course.script ++ d.ending

/-- **What the caller says.** -/
def plan : List Word := (.call, Payload.toBytes d.request) :: d.talk

/-- That a call went well. -/
def farewell : Word := (.status, Payload.toBytes (Status.ofResult (.ok () : Except GatewayError Unit)))

/-- **What the server says.** -/
def reply : List Word := messageWords d.course.answer ++ [farewell]

/-- The status of a call that went well fits a frame. -/
theorem farewell_fits (id : UInt64) :
    ∃ f, Frame.status id (Status.ofResult (.ok () : Except GatewayError Unit)) = .ok f ∧
      f.callId = id ∧ f.word = farewell := by
  have hsize : (Payload.toBytes (Status.ofResult (.ok () : Except GatewayError Unit))).length ≤
      Frame.maxPayload := by decide
  refine ⟨⟨.status, id, _, hsize⟩, ?_, rfl, rfl⟩
  rw [Frame.status, Frame.make, dif_pos hsize]

/-- **What is still to come for the handler**, when some messages have been put into its inbox and
perhaps one more waits for room there, and depending on whether the inbox expects more. -/
inductive ToHear (heard waiting : List Bytes) (coming : List Word) : Bool → Prop
  | more {rest : List Bytes} (hscript : heard ++ waiting ++ rest = d.course.script)
      (hcoming : coming = messageWords rest ++ d.ending) : ToHear heard waiting coming true
  | nothing (hscript : heard = d.course.script) (hwaiting : waiting = []) (hcoming : coming = []) :
      ToHear heard waiting coming false

variable {d} {heard waiting : List Bytes} {coming : List Word} {sending : Bool}

theorem ToHear.heard_prefix (h : d.ToHear heard waiting coming sending) :
    heard <+: d.course.script := by
  cases h with
  | @more rest hscript _ => exact ⟨waiting ++ rest, (List.append_assoc _ _ _).symm.trans hscript⟩
  | nothing hscript => exact hscript ▸ List.prefix_rfl

theorem ToHear.heard_all (h : d.ToHear heard waiting coming sending) (hs : sending = false) :
    heard = d.course.script := by
  cases h with
  | more => cases hs
  | nothing hscript => exact hscript

theorem ToHear.coming_suffix (h : d.ToHear heard waiting coming sending) : coming <:+ d.talk := by
  cases h with
  | @more rest hscript hcoming =>
      refine ⟨messageWords (heard ++ waiting), ?_⟩
      rw [hcoming, ← List.append_assoc, ← messageWords_append, hscript]
      rfl
  | nothing _ _ hcoming => exact hcoming ▸ List.nil_suffix

/-- In what the server says all but the last are messages. -/
theorem kind_of_before {before : List Word} {w : Word} {after : List Word}
    (h : before ++ w :: after <+: d.reply) {v : Word} (hv : v ∈ before) : v.1 = .message := by
  have hanswer : before <+: messageWords d.course.answer := by
    refine List.prefix_of_prefix_length_le ((List.prefix_append _ _).trans h)
      (List.prefix_append _ _) ?_
    have hle := h.length_le
    rw [reply, List.length_append, List.length_append, List.length_cons,
      List.length_singleton] at hle
    omega
  exact kind_of_mem_messageWords (hanswer.subset hv)

end Dialogue

end DeviceGateway
