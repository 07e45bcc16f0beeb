import DeviceGateway.Proofs.Call.Leading
import DeviceGateway.Proofs.Call.PoolNumbers

/-!
# Conversations

A handler and its caller talk: the handler takes the messages of the caller in order and sends
messages of its own. A course says what the caller is going to say, what the handler is going to
answer, and what can be said of the handler and of a view of the world at every point between
(`Course`). A course is kept if every state that the handler waits in leads on along it
(`Course.KeptBy`). Then a call that is on its course stays on it in each of its steps, or ends well
with the whole answer sent (`Course.Follows.poll`).
-/

namespace DeviceGateway

variable {ω σ ν : Type}

/-- **What has been said in a call**: the messages that the handler has taken, whether it has got
their end, and the messages that it has sent. -/
structure Talk where
  taken : List Bytes
  ended : Bool
  sent : List Bytes

namespace Talk

/-- Nothing has been said. -/
def begin : Talk := ⟨[], false, []⟩

def take (t : Talk) (m : Bytes) : Talk := { t with taken := t.taken ++ [m] }

def finish (t : Talk) : Talk := { t with ended := true }

def say (t : Talk) (m : Bytes) : Talk := { t with sent := t.sent ++ [m] }

end Talk

/-- **The course of a conversation.** -/
structure Course (σ ν : Type) where
  /-- What the caller is going to say. -/
  script : List Bytes
  /-- What the handler is going to answer. -/
  answer : List Bytes
  /-- What can be said while the handler waits in a state. -/
  holds : Talk → σ → ν → Prop
  /-- What can be said in the end. -/
  final : ν → Prop

namespace Course

variable (k : Course σ ν) {view : ω → ν} {t : Talk} {seen : ν}

/-- **Whether what a handler waits for leads on along the course.** -/
def Allows (view : ω → ν) (t : Talk) (seen : ν) : Await ω σ → Prop
  | .finish result => result = .ok () ∧ t.sent = k.answer ∧ k.final seen
  | .receive next =>
    t.ended = false ∧
      (∀ m, t.taken ++ [m] <+: k.script →
        (next (some m)).Leads view (k.holds (t.take m)) seen) ∧
      (t.taken = k.script → (next none).Leads view (k.holds t.finish) seen)
  | .send m next =>
    t.sent ++ [m] <+: k.answer ∧ m.length ≤ Frame.maxPayload ∧
      (next (.ok ())).Leads view (k.holds (t.say m)) seen
  | .provider .. | .withdrawal _ | .deafness _ => False

/-- **A handler keeps to a course** if it is led on along it from every state. -/
def KeptBy (h : Handler ω σ) (view : ω → ν) : Prop :=
  ∀ t state seen, k.holds t state seen → k.Allows view t seen (h.await state)

/-- **A call on its course**, with the messages that have come for it so far. -/
structure Follows (view : ω → ν) (c : Call ω σ) (t : Talk) (heard : List Bytes) (seen : ν) :
    Prop where
  supervised : c.supervised = true
  staying : c.withdrawn = false
  reading : c.inbox.reading = true
  heard : t.taken ++ c.inbox.queue = heard
  sent : t.sent <+: k.answer
  ended : t.ended = true → c.inbox.queue = [] ∧ c.inbox.sending = false
  stage : c.stage.Leads view (k.holds t) seen

/-- **A call whose handler is done** and went well, and has not told its caller. -/
structure Done (c : Call ω σ) : Prop where
  supervised : c.supervised = true
  deaf : c.inbox.reading = false
  stage : c.stage = .ended (.ok ())

/-- What a step of a call puts into the outbox: messages of the call. -/
inductive Says (id : UInt64) (b b' : Outbox) : List Bytes → Prop where
  | nothing (hb : b' = b) : Says id b b' []
  | message (f : Frame) (hk : f.kind = .message) (hid : f.callId = id)
      (hput : b.put? f = some (.ok b')) : Says id b b' [f.payload]

/-- What a step leaves: the call is on its course, or done with everything said. -/
def Goes (view : ω → ν) (c : Call ω σ) (t : Talk) (heard : List Bytes) (seen : ν) : Prop :=
  k.Follows view c t heard seen ∨ Done c ∧ t.sent = k.answer ∧ k.final seen

variable {k} {h : Handler ω σ} {c c' : Call ω σ} {s s' : Shared ω} {heard : List Bytes}

theorem done_conclude (hs : c.supervised = true) : Done (c.conclude (.ok ())) :=
  ⟨hs, rfl, Call.stage_conclude hs _⟩

/-- **A call that goes on** stays on its course, or is done. -/
theorem goes_of_resume {d : Call ω σ} {u : Shared ω} (hk : k.KeptBy h view) {j : Job ω σ} {w : ω}
    (hr : Call.resume h d u j w = (c', s')) (hs : d.supervised = true)
    (hw : d.withdrawn = false) (hread : d.inbox.reading = true)
    (hh : t.taken ++ d.inbox.queue = heard) (hsent : t.sent <+: k.answer)
    (he : t.ended = true → d.inbox.queue = [] ∧ d.inbox.sending = false)
    (hj : j.Leads view (k.holds t) (view w)) : k.Goes view c' t heard (view s'.world) := by
  rcases Call.leads_of_resume hr hj with ⟨hl, hc⟩ | ⟨state, result, hstate, hfinish, rfl⟩
  · rw [hc]
    exact .inl ⟨hs, hw, hread, hh, hsent, he, hl⟩
  · have hallow := hk t state _ hstate
    rw [hfinish] at hallow
    obtain ⟨rfl, hsent, hfinal⟩ := hallow
    exact .inr ⟨done_conclude hs, hsent, hfinal⟩

theorem outbox_of_resume {d : Call ω σ} {u : Shared ω} {j : Job ω σ} {w : ω}
    (hr : Call.resume h d u j w = (c', s')) : s'.outbox = u.outbox :=
  (Call.rests_of_resume hr).spec.2.2.1

/-- **What a step of a call on its course comes to**: it has said a little more, and goes on. -/
def Speaks (k : Course σ ν) (view : ω → ν) (c : Call ω σ) (s : Shared ω) (t : Talk)
    (heard : List Bytes) (c' : Call ω σ) (s' : Shared ω) : Prop :=
  ∃ t' said, t'.sent = t.sent ++ said ∧ Says c.id s.outbox s'.outbox said ∧
    k.Goes view c' t' heard (view s'.world)

namespace Follows

variable (hf : k.Follows view c t heard (view s.world))
include hf

/-- The state in which the handler waits leads on along the course. -/
theorem allows (hk : k.KeptBy h view) {state : σ} {await : Await ω σ}
    (hst : c.stage = .awaiting state) (hawait : h.await state = await) :
    k.Allows view t (view s.world) await := hawait ▸ hk t state _ (hf.stage.of_eq hst)

/-- The handler goes on with a job. -/
theorem resume (hk : k.KeptBy h view) {j : Job ω σ} {w : ω}
    (hr : Call.resume h c s j w = (c', s')) (hj : j.Leads view (k.holds t) (view w)) :
    k.Speaks view c s t heard c' s' :=
  ⟨t, [], (List.append_nil _).symm, .nothing (outbox_of_resume hr),
    goes_of_resume hk hr hf.supervised hf.staying hf.reading hf.heard hf.sent hf.ended hj⟩

/-- The handler takes a message, or the end of the messages. -/
theorem take (hk : k.KeptBy h view) (hscript : heard <+: k.script)
    (hend : c.inbox.sending = false → heard = k.script) {next : Option Bytes → Job ω σ}
    (hallow : k.Allows view t (view s.world) (.receive next)) {m : Option Bytes} {inbox : Inbox}
    (htake : c.inbox.take? = some (m, inbox))
    (hr : Call.resume h { c with inbox } s (next m) s.world = (c', s')) :
    k.Speaks view c s t heard c' s' := by
  obtain ⟨hopen, hmessage, hfinish⟩ := hallow
  have hheard := hf.heard
  cases Inbox.takes_of_take? htake with
  | @message m' rest hqueue =>
      rw [hqueue] at hheard
      have hnext : t.taken ++ [m'] <+: k.script := by
        refine List.IsPrefix.trans ⟨rest, ?_⟩ hscript
        rw [List.append_assoc]
        exact hheard
      refine ⟨t.take m', [], (List.append_nil _).symm, .nothing (outbox_of_resume hr),
        goes_of_resume hk hr hf.supervised hf.staying hf.reading ?_ hf.sent ?_ (hmessage m' hnext)⟩
      · show t.taken ++ [m'] ++ rest = heard
        rw [List.append_assoc]
        exact hheard
      · intro he
        rw [show (t.take m').ended = t.ended from rfl, hopen] at he
        cases he
  | ending hqueue hsending =>
      have hall : t.taken = k.script := by
        rw [hqueue, List.append_nil] at hheard
        exact hheard.trans (hend hsending)
      exact ⟨t.finish, [], (List.append_nil _).symm, .nothing (outbox_of_resume hr),
        goes_of_resume hk hr hf.supervised hf.staying hf.reading hf.heard hf.sent
          (fun _ => ⟨hqueue, hsending⟩) (hfinish hall)⟩

/-- The handler sends a message, which fits a frame, for the outbox is open. -/
theorem say (hk : k.KeptBy h view) (ho : s.outbox.isOpen = true) {m : Bytes}
    {next : Except GatewayError Unit → Job ω σ}
    (hallow : k.Allows view t (view s.world) (.send m next)) {sent : Except GatewayError Unit}
    {outbox : Outbox} (hsend : s.outbox.send? c.id m = some (sent, outbox))
    (hr : Call.resume h c { s with outbox } (next sent) s.world = (c', s')) :
    k.Speaks view c s t heard c' s' := by
  obtain ⟨hnext, hfits, hsay⟩ := hallow
  cases Outbox.sends_of_send? hsend with
  | tooLarge hlong => exact absurd hfits (Nat.not_le.2 hlong)
  | closed _ hclosed => cases hclosed.symm.trans ho
  | sent _ hput =>
      refine ⟨t.say m, [m], rfl, ?_,
        goes_of_resume hk hr hf.supervised hf.staying hf.reading hf.heard hnext hf.ended hsay⟩
      rw [outbox_of_resume hr]
      exact .message ⟨.message, c.id, m, hfits⟩ rfl rfl hput

/-- **One step of a call on its course.** -/
theorem poll (hk : k.KeptBy h view) (hscript : heard <+: k.script)
    (hend : c.inbox.sending = false → heard = k.script) (ho : s.outbox.isOpen = true)
    (hp : c.poll? h false s = some (c', s')) : k.Speaks view c s t heard c' s' := by
  cases Call.polls_of_poll? hp with
  | dropped hcancelled =>
      simp only [Call.isCancelled, hf.staying, Bool.or_self, Bool.and_false, Bool.false_and,
        Bool.false_eq_true] at hcancelled
  | refused hst | told hst => cases hf.stage.of_eq hst
  | finished _ hst hawait =>
      obtain ⟨rfl, hsent, hfinal⟩ := hf.allows hk hst hawait
      exact ⟨t, [], (List.append_nil _).symm, .nothing rfl,
        .inr ⟨done_conclude hf.supervised, hsent, hfinal⟩⟩
  | resumed _ hres hr =>
      cases hres with
      | started hst | carried hst => exact hf.resume hk hr (hf.stage.of_eq hst)
      | received hst hawait htake =>
          exact hf.take hk hscript hend (hf.allows hk hst hawait) htake hr
      | sent hst hawait hsend => exact hf.say hk ho (hf.allows hk hst hawait) hsend hr
      | answered hst hawait | withdrawn hst hawait | deafened hst hawait =>
          cases hf.allows hk hst hawait

end Follows

/-- The system carries out a step for a call on its course. -/
theorem Follows.carry (hf : k.Follows view c t heard (view s.world))
    (hc : c.carry? s = some (c', s')) : k.Follows view c' t heard (view s'.world) := by
  obtain ⟨hl, he⟩ := Call.leads_carry? hc hf.stage
  rw [he]
  exact ⟨hf.supervised, hf.staying, hf.reading, hf.heard, hf.sent, hf.ended, hl⟩

/-- A call on its course asks no provider. -/
theorem Follows.expire? (hk : k.KeptBy h view) (hf : k.Follows view c t heard (view s.world)) :
    c.expire? h s = none := by
  refine Option.eq_none_iff_forall_ne_some.2 fun _ he => ?_
  obtain ⟨state, limit, next, hst, hawait, -⟩ := Call.expire?_eq_some_iff.1 he
  cases hf.allows hk hst hawait

end Course

end DeviceGateway
