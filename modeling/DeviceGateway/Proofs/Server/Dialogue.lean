import DeviceGateway.Proofs.Call.Dialogue
import DeviceGateway.Proofs.Server.Running

/-!
# Serving a dialogue

How far a server has got with a dialogue is known from what is still to come from the caller and
from what it has said itself (`Dialogue.Served`): the request is awaited, the handler is on its
course, it is done, or the caller has been told. Reading a frame takes one word off what is to come
(`Serves.read`), and every other step adds to what has been said (`Serves.inside`), as long as
others leave alone what the handler sees of the world.
-/

namespace DeviceGateway

variable {ω σ ν : Type}

namespace Connection

variable {s : Server ω σ} {c c' : Connection ω σ}

/-- The message that waits for room in the inbox of a call. -/
def handing (c : Connection ω σ) (id : UInt64) : List Bytes :=
  match c.stage with
  | .feeding i m => if i = id then [m] else []
  | _ => []

theorem handing_of_serving (h : c.stage = .serving) (id : UInt64) : c.handing id = [] := by
  simp only [handing, h]

theorem handing_of_feeding {id : UInt64} {m : Bytes} (h : c.stage = .feeding id m) :
    c.handing id = [m] := by
  simp only [handing, h, if_true]

theorem handing_of_ne {id : UInt64} (h : ∀ m, c.stage ≠ .feeding id m) : c.handing id = [] := by
  unfold handing
  split
  · next i m hs =>
    rw [if_neg]
    rintro rfl
    exact h m hs
  · rfl

/-- Who takes a step: the call with a number, or nobody in particular. -/
def Move.caller? : Move → Option UInt64
  | .pool m => m.caller?
  | _ => none

/-- Reading a frame concerns the call with its number, and no other. -/
theorem call?_of_read {f : Frame} {rest : Bytes}
    (hd : Frame.decode s.checksum c.unread = .frame f rest) (hstep : Step s c .read c')
    {id : UInt64} (hne : f.callId ≠ id) : c'.pool.call? id = c.pool.call? id := by
  cases hstep with
  | readFault _ hd' | readEnd _ hd' =>
      rw [hd] at hd'
      cases hd'
  | accept _ hd' _ _ hl =>
      rw [hd] at hd'
      cases hd'
      rw [Pool.call?_spawn hl, if_neg (Ne.symm hne)]
  | halfClose _ hd' _ =>
      rw [hd] at hd'
      cases hd'
      rw [Pool.call?_halfClose, if_neg (Ne.symm hne)]
  | cancel _ hd' _ =>
      rw [hd] at hd'
      cases hd'
      rw [Pool.call?_cancel, if_neg (Ne.symm hne)]
  | _ => rfl

end Connection

namespace Dialogue

open Connection (handing)

variable {d : Dialogue σ ν} {s : Server ω σ} {view : ω → ν} {c c' : Connection ω σ}
  {coming said : List Word}

/-- **How far a server has got with a dialogue**, by what is still to come and what it has said. -/
inductive Served (d : Dialogue σ ν) (s : Server ω σ) (view : ω → ν) (c : Connection ω σ)
    (coming said : List Word) : Prop
  /-- The request has not come. -/
  | awaited {job : Job ω σ} (hfree : c.pool.call? d.id = none) (hwaiting : c.handing d.id = [])
      (haccept : s.accept d.request = .ok job)
      (hjob : job.Leads view (d.course.holds .begin) (view c.shared.world))
      (hcoming : coming = d.plan) (hsaid : said = [])
  /-- The handler is on its course. -/
  | talking {call : Call ω σ} {t : Talk} {heard : List Bytes}
      (hcall : c.pool.call? d.id = some call)
      (hfollows : d.course.Follows view call t heard (view c.shared.world))
      (hhears : d.ToHear heard (c.handing d.id) coming call.inbox.sending)
      (hsaid : said = messageWords t.sent)
  /-- The handler is done. -/
  | done {call : Call ω σ} (hcall : c.pool.call? d.id = some call) (hdone : Course.Done call)
      (hfinal : d.course.final (view c.shared.world)) (hcoming : coming <:+ d.talk)
      (hsaid : said = messageWords d.course.answer)
  /-- The caller has been told. -/
  | told (hover : ∀ call, c.pool.call? d.id = some call → call.stage.isOver = true)
      (hfinal : d.course.final (view c.shared.world)) (hcoming : coming <:+ d.talk)
      (hsaid : said = d.reply)

/-- **A server serves a dialogue**, and is not about to refuse it. -/
structure Serves (d : Dialogue σ ν) (s : Server ω σ) (view : ω → ν) (c : Connection ω σ)
    (coming said : List Word) : Prop where
  served : d.Served s view c coming said
  spared : ∀ g, c.stage = .rejecting g → g.callId ≠ d.id

/-- What has been said is the beginning of what is to be said. -/
theorem Served.said_prefix (h : d.Served s view c coming said) : said <+: d.reply := by
  cases h with
  | awaited _ _ _ _ _ hsaid => exact hsaid ▸ List.nil_prefix
  | talking _ hfollows _ hsaid =>
      rw [hsaid]
      exact (prefix_messageWords hfollows.sent).trans (List.prefix_append _ _)
  | done _ _ _ _ hsaid => exact hsaid ▸ List.prefix_append _ _
  | told _ _ _ hsaid => exact hsaid ▸ List.prefix_rfl

/-- When everything has been said, the caller has been told. -/
theorem Served.final_of_all (h : d.Served s view c coming d.reply) :
    d.course.final (view c.shared.world) := by
  have hne : ∀ {ms : List Bytes}, d.reply ≠ messageWords ms := by
    intro ms heq
    have hlast : farewell ∈ messageWords ms := heq ▸ List.mem_append_right _ (List.mem_singleton_self _)
    exact absurd (kind_of_mem_messageWords hlast) (by decide)
  cases h with
  | awaited _ _ _ _ _ hsaid => exact absurd hsaid (@hne [])
  | talking _ _ _ hsaid => exact absurd hsaid hne
  | done _ _ _ _ hsaid => exact absurd hsaid hne
  | told _ hfinal => exact hfinal

/-- Nothing that concerns the dialogue has changed. -/
theorem Served.of_same (h : d.Served s view c coming said)
    (hcall : c'.pool.call? d.id = c.pool.call? d.id) (hwaiting : c'.handing d.id = c.handing d.id)
    (hview : view c'.shared.world = view c.shared.world) : d.Served s view c' coming said := by
  cases h with
  | awaited hfree hw haccept hjob hcoming hsaid =>
      exact .awaited (hcall.trans hfree) (hwaiting.trans hw) haccept (hview ▸ hjob) hcoming hsaid
  | talking hc hfollows hhears hsaid =>
      exact .talking (hcall.trans hc) (hview ▸ hfollows) (hwaiting ▸ hhears) hsaid
  | done hc hdone hfinal hcoming hsaid =>
      exact .done (hcall.trans hc) hdone (hview ▸ hfinal) hcoming hsaid
  | told hover hfinal hcoming hsaid => exact .told (hcall ▸ hover) (hview ▸ hfinal) hcoming hsaid

/-! ## Reading -/

/-- What is still to come loses its first word. -/
theorem suffix_of_cons {w : Word} (h : w :: coming <:+ d.talk) :
    coming <:+ d.talk ∧ (w.1 = .message ∨ w = (.halfClose, [])) := by
  refine ⟨(List.suffix_cons w coming).trans h, ?_⟩
  have hmem : w ∈ d.talk := h.subset List.mem_cons_self
  rcases List.mem_append.1 hmem with hm | he
  · exact .inl (kind_of_mem_messageWords hm)
  · unfold ending at he
    split at he
    · exact .inr (List.mem_singleton.1 he)
    · cases he

/-- **The request comes**, and the handler begins. -/
theorem Serves.read_awaited {f : Frame} {rest : Bytes} {job : Job ω σ}
    (hrequest : (Payload.ofBytes (Payload.toBytes d.request) : Except GatewayError CallRequest) =
      .ok d.request)
    (hfree : c.pool.call? d.id = none) (hserving : c.stage = .serving)
    (haccept : s.accept d.request = .ok job)
    (hjob : job.Leads view (d.course.holds .begin) (view c.shared.world))
    (hplan : f.word :: coming = d.plan) (hid : f.callId = d.id) :
    d.Serves s view ({ c with unread := rest }.dispatch s f) coming [] := by
  rw [plan, List.cons.injEq] at hplan
  obtain ⟨hword, rfl⟩ := hplan
  obtain ⟨hk, hp⟩ := Prod.mk.inj hword
  have hnone : c.pool.contains d.id = false := by rw [Pool.contains, hfree]; rfl
  obtain ⟨pool, hspawn⟩ : ∃ pool, c.pool.spawn d.id true (.starting job) = .ok pool :=
    ⟨_, Pool.spawn_of_free true _ hnone⟩
  have hdispatch : { c with unread := rest }.dispatch s f = { c with unread := rest, pool } := by
    simp only [Connection.dispatch, hk, Connection.openCall, hp, hrequest, hid, hnone,
      Bool.false_eq_true, if_false, haccept, CallStage.opening, hspawn]
  have hcall := Pool.call?_spawn hspawn d.id
  rw [if_pos rfl] at hcall
  have hfollows : d.course.Follows view (Call.start d.id true (.starting job)) .begin []
      (view c.shared.world) := ⟨rfl, rfl, rfl, rfl, List.nil_prefix,
        fun he => absurd he Bool.false_ne_true, hjob⟩
  rw [hdispatch]
  refine ⟨.talking hcall hfollows ?_ rfl, fun g hg => ?_⟩
  · rw [Connection.handing_of_serving (by exact hserving)]
    exact .more rfl rfl
  · cases hserving.symm.trans hg

/-- A message comes: it waits for room in the inbox. -/
theorem Serves.read_message {f : Frame} {rest : Bytes} (hk : f.kind = .message)
    (hserving : c.stage = .serving) (hid : f.callId = d.id)
    (h : d.Served s view c (f.word :: coming) said) :
    d.Serves s view ({ c with unread := rest }.dispatch s f) coming said := by
  have hdispatch : { c with unread := rest }.dispatch s f =
      { c with unread := rest, stage := .feeding d.id f.payload } := by
    simp only [Connection.dispatch, hk, hid]
  rw [hdispatch]
  refine ⟨?_, fun g hg => by cases hg⟩
  cases h with
  | awaited _ _ _ _ hcoming =>
      rw [plan, List.cons.injEq] at hcoming
      rw [(Prod.mk.inj hcoming.1).1] at hk
      cases hk
  | talking hcall hfollows hhears hsaid =>
      rw [Connection.handing_of_serving hserving] at hhears
      refine .talking hcall hfollows ?_ hsaid
      rw [Connection.handing_of_feeding rfl]
      generalize Inbox.sending _ = sending at hhears ⊢
      cases hhears with
      | @more left hscript hcoming =>
          cases left with
          | nil =>
              -- The end of what the caller says is no message.
              unfold ending at hcoming
              split at hcoming
              · have := (Prod.mk.inj (List.cons.inj hcoming).1).1
                rw [hk] at this
                cases this
              · cases hcoming
          | cons m left =>
              obtain ⟨hword, hcoming⟩ := List.cons.inj hcoming
              have hm : f.payload = m := (Prod.mk.inj hword).2
              have hcoming : coming = messageWords left ++ d.ending := hcoming
              refine .more ?_ hcoming
              rw [hm, ← hscript, List.append_nil, List.append_assoc]
              rfl
      | nothing _ _ hcoming => cases hcoming
  | done hcall hdone hfinal hcoming hsaid =>
      exact .done hcall hdone hfinal (suffix_of_cons hcoming).1 hsaid
  | told hover hfinal hcoming hsaid => exact .told hover hfinal (suffix_of_cons hcoming).1 hsaid

/-- The end of what the caller says comes. -/
theorem Serves.read_halfClose {f : Frame} {rest : Bytes} (hk : f.kind = .halfClose)
    (hserving : c.stage = .serving) (hid : f.callId = d.id)
    (h : d.Served s view c (f.word :: coming) said) :
    d.Serves s view ({ c with unread := rest }.dispatch s f) coming said := by
  have hdispatch : { c with unread := rest }.dispatch s f =
      { c with unread := rest, pool := c.pool.halfClose d.id } := by
    simp only [Connection.dispatch, hk, hid]
  rw [hdispatch]
  refine ⟨?_, fun g hg => by cases hserving.symm.trans hg⟩
  have hclosed := Pool.call?_halfClose c.pool d.id d.id
  rw [if_pos rfl] at hclosed
  cases h with
  | awaited _ _ _ _ hcoming =>
      rw [plan, List.cons.injEq] at hcoming
      rw [(Prod.mk.inj hcoming.1).1] at hk
      cases hk
  | talking hcall hfollows hhears hsaid =>
      rw [hcall, Option.map_some] at hclosed
      rw [Connection.handing_of_serving hserving] at hhears
      refine .talking hclosed ⟨hfollows.supervised, hfollows.staying, hfollows.reading,
        hfollows.heard, hfollows.sent, fun he => ⟨(hfollows.ended he).1, rfl⟩, hfollows.stage⟩ ?_
        hsaid
      show d.ToHear _ (c.handing d.id) coming false
      rw [Connection.handing_of_serving hserving]
      generalize Inbox.sending _ = sending at hhears
      cases hhears with
      | @more left hscript hcoming =>
          cases left with
          | nil =>
              unfold ending at hcoming
              split at hcoming
              · refine .nothing ?_ rfl (List.cons.inj hcoming).2
                rwa [List.append_nil, List.append_nil] at hscript
              · cases hcoming
          | cons m left =>
              have := (Prod.mk.inj (List.cons.inj hcoming).1).1
              rw [hk] at this
              cases this
      | nothing _ _ hcoming => cases hcoming
  | done hcall hdone hfinal hcoming hsaid =>
      rw [hcall, Option.map_some] at hclosed
      exact .done hclosed ⟨hdone.supervised, hdone.deaf, hdone.stage⟩ hfinal
        (suffix_of_cons hcoming).1 hsaid
  | told hover hfinal hcoming hsaid =>
      refine .told (fun call hcall => ?_) hfinal (suffix_of_cons hcoming).1 hsaid
      rw [hclosed, Option.map_eq_some_iff] at hcall
      obtain ⟨before, hbefore, rfl⟩ := hcall
      exact hover before hbefore

/-- **Reading a frame takes one word off what is to come.** -/
theorem Serves.read {f : Frame} {rest : Bytes}
    (hrequest : (Payload.ofBytes (Payload.toBytes d.request) : Except GatewayError CallRequest) =
      .ok d.request)
    (h : d.Serves s view c (Frame.words d.id [f] ++ coming) said)
    (hd : Frame.decode s.checksum c.unread = .frame f rest)
    (hstep : Connection.Step s c .read c') : d.Serves s view c' coming said := by
  obtain ⟨hserving, hc'⟩ := hstep.eq_dispatch hd
  obtain ⟨hfeed, hrej⟩ := hstep.waiting_read hd
  by_cases hid : f.callId = d.id
  · have hserved := h.served
    rw [Frame.words_own hid] at hserved
    have later : f.word :: coming <:+ d.talk → d.Serves s view c' coming said := by
      intro hsuffix
      rw [hc']
      rcases (suffix_of_cons hsuffix).2 with hk | hw
      · exact .read_message hk hserving hid hserved
      · exact .read_halfClose (Prod.mk.inj hw).1 hserving hid hserved
    cases hserved with
    | awaited hfree _ haccept hjob hcoming hsaid =>
        rw [hsaid, hc']
        exact .read_awaited hrequest hfree hserving haccept hjob hcoming hid
    | talking _ _ hhears _ => exact later hhears.coming_suffix
    | done _ _ _ hcoming _ => exact later hcoming
    | told _ _ hcoming _ => exact later hcoming
  · have hsame := h.served
    rw [Frame.words_other hid, List.nil_append] at hsame
    refine ⟨hsame.of_same (Connection.call?_of_read hd hstep hid) ?_ ?_, fun g hg => ?_⟩
    · rw [Connection.handing_of_serving hserving]
      exact Connection.handing_of_ne fun m hs => hid (hfeed _ m hs)
    · rw [hstep.shared_read]
    · rw [hrej g hg]
      exact hid

/-! ## Steps of the calls -/

/-- **What a step adds**: some frames in the outbox, and what they say of the dialogue. -/
def SaysMore (d : Dialogue σ ν) (s : Server ω σ) (view : ω → ν) (c c' : Connection ω σ)
    (coming said : List Word) : Prop :=
  ∃ new, c'.shared.outbox.queue = c.shared.outbox.queue ++ new ∧
    d.Served s view c' coming (said ++ Frame.words d.id new)

theorem Served.saysNothing (h : d.Served s view c' coming said)
    (hq : c'.shared.outbox.queue = c.shared.outbox.queue) : d.SaysMore s view c c' coming said :=
  ⟨[], by rw [hq, List.append_nil], by rwa [Frame.words_nil, List.append_nil]⟩

section

variable {call call' : Call ω σ} {pool' : Pool ω σ} {shared : Shared ω} {m : Pool.Move}

/-- **The handler takes a step on its course.** -/
theorem talking_acts {t : Talk} {heard : List Bytes} (hk : d.course.KeptBy s.handler view)
    (hrun : c.Running) (hcall : c.pool.call? d.id = some call)
    (hfollows : d.course.Follows view call t heard (view c.shared.world))
    (hhears : d.ToHear heard (c.handing d.id) coming call.inbox.sending)
    (hacts : Pool.Acts s.handler c.pool c.shared d.id call m call' shared)
    (hcall' : pool'.call? d.id = some call') :
    d.SaysMore s view c { c with pool := pool', shared } coming (messageWords t.sent) := by
  have hid := Pool.id_of_call? hcall
  cases hacts with
  | poll hp =>
      rw [hrun.stays] at hp
      obtain ⟨t', more, hsent, hsays, hgoes⟩ :=
        hfollows.poll hk hhears.heard_prefix hhears.heard_all hrun.isOpen hp
      rw [hid] at hsays
      obtain ⟨new, hq, hwords⟩ := hsays.words
      refine ⟨new, hq, ?_⟩
      rw [hwords, ← messageWords_append, ← hsent]
      rcases hgoes with hfollows' | ⟨hdone, hall, hfinal⟩
      · refine .talking hcall' hfollows' ?_ rfl
        rw [(Call.sameOutside_of_poll? hp).2]
        exact hhears
      · exact .done hcall' hdone hfinal hhears.coming_suffix (congrArg messageWords hall)
  | carry hc =>
      refine Served.saysNothing (.talking hcall' (hfollows.carry hc) ?_ rfl) ?_
      · rw [(Call.sameOutside_of_carry? hc).2]
        exact hhears
      · exact congrArg Outbox.queue (Call.outbox_carry? hc)
  | expire he =>
      rw [hfollows.expire? hk] at he
      cases he
  | report hs =>
      have := hfollows.stage
      rw [hs] at this
      cases this

/-- **The caller is told.** -/
theorem done_acts (hrun : c.Running) (hcall : c.pool.call? d.id = some call)
    (hdone : Course.Done call) (hfinal : d.course.final (view c.shared.world))
    (hcoming : coming <:+ d.talk)
    (hacts : Pool.Acts s.handler c.pool c.shared d.id call m call' shared)
    (hcall' : pool'.call? d.id = some call') :
    d.SaysMore s view c { c with pool := pool', shared } coming (messageWords d.course.answer) := by
  have hid := Pool.id_of_call? hcall
  have hst := hdone.stage
  cases hacts with
  | poll hp =>
      obtain ⟨f, hf, hfid, hword⟩ := farewell_fits d.id
      rw [Call.poll?_of_ended hst] at hp
      obtain ⟨rfl, outbox, rfl, htold⟩ := Call.told_of_tell? hp
      rw [hid] at htold
      cases htold with
      | tooLarge e hlong => cases hlong.symm.trans hf
      | closed f' hf' hclosed => cases hclosed.symm.trans hrun.isOpen
      | sent f' hf' hput =>
          cases hf.symm.trans hf'
          obtain ⟨-, -, rfl⟩ := Outbox.put?_eq_ok_iff.1 hput
          refine ⟨[f], rfl, ?_⟩
          rw [Frame.words_own hfid, hword]
          refine .told (fun other hother => ?_) hfinal hcoming rfl
          cases hcall'.symm.trans hother
          rfl
  | carry hc =>
      obtain ⟨_, _, _, hat, -⟩ := Call.carry?_eq_some_iff.1 hc
      cases hst.symm.trans hat
  | expire he =>
      obtain ⟨_, _, _, hat, -⟩ := Call.expire?_eq_some_iff.1 he
      cases hst.symm.trans hat
  | report hs => cases hst.symm.trans hs

/-- A call whose caller has been told says nothing more, and reports its end. -/
theorem told_acts (hover : call.stage.isOver = true)
    (hfinal : d.course.final (view c.shared.world)) (hcoming : coming <:+ d.talk)
    (hacts : Pool.Acts s.handler c.pool c.shared d.id call m call' shared)
    (hcall' : pool'.call? d.id = some call') :
    d.SaysMore s view c { c with pool := pool', shared } coming d.reply := by
  have never : ∀ {b'}, ¬ Call.Advance call c.shared.outbox call' b' := fun ha => by
    rw [ha.not_over] at hover
    cases hover
  cases hacts with
  | poll hp => exact absurd (Call.advances_of_poll? hp).2.2 never
  | carry hc => exact absurd (Call.advances_of_carry? hc).2.2 never
  | expire he => exact absurd (Call.advances_of_expire? he).2.2 never
  | report hs =>
      refine Served.saysNothing (.told (fun other hother => ?_) hfinal hcoming rfl) rfl
      cases hcall'.symm.trans hother
      rfl

/-- **A call takes a step**: the one of the dialogue, or another, which leaves alone what the
handler sees. -/
theorem Served.pool (hk : d.course.KeptBy s.handler view) (hrun : c.Running)
    (h : d.Served s view c coming said)
    (hp : Pool.Step s.handler c.pool c.shared m pool' shared)
    (hview : m.caller? ≠ some d.id → view shared.world = view c.shared.world) :
    d.SaysMore s view c { c with pool := pool', shared } coming said := by
  by_cases hm : m.caller? = some d.id
  · obtain ⟨call, hcall⟩ := hp.call?_of_caller hm
    obtain ⟨call', hcall', hacts⟩ : ∃ call', pool'.call? d.id = some call' ∧
        Pool.Acts s.handler c.pool c.shared d.id call m call' shared := by
      rcases Pool.call?_of_step hp hcall with ⟨-, hne⟩ | hacts
      · exact absurd hm hne
      · exact hacts
    cases h with
    | awaited hfree =>
        rw [hfree] at hcall
        cases hcall
    | talking hcall₀ hfollows hhears hsaid =>
        cases hcall.symm.trans hcall₀
        exact hsaid ▸ talking_acts hk hrun hcall hfollows hhears hacts hcall'
    | done hcall₀ hdone hfinal hcoming hsaid =>
        cases hcall.symm.trans hcall₀
        exact hsaid ▸ done_acts hrun hcall hdone hfinal hcoming hacts hcall'
    | told hover hfinal hcoming hsaid =>
        exact hsaid ▸ told_acts (hover call hcall) hfinal hcoming hacts hcall'
  · obtain ⟨new, hq, hnew⟩ := hp.queue
    have hwords : Frame.words d.id new = [] := Frame.words_of_ne fun f hf heq => by
      rw [← heq] at hm
      exact hm (hnew f hf).1
    refine ⟨new, hq, ?_⟩
    rw [hwords, List.append_nil]
    refine h.of_same ?_ rfl (hview hm)
    cases hcall : c.pool.call? d.id with
    | none => exact Pool.call?_none_of_step hp hcall
    | some call =>
        rcases Pool.call?_of_step hp hcall with ⟨hsame, -⟩ | ⟨call', -, hacts⟩
        · exact hsame
        · exact absurd hacts.caller? hm

end

/-! ## Steps of the loop -/

/-- A call that is gone is forgotten. -/
theorem Served.forget {call : Call ω σ} {pool' : Pool ω σ} (h : d.Served s view c coming said)
    (hcall : c.pool.call? d.id = some call) (hst : call.stage = .gone)
    (hnone : pool'.call? d.id = none) :
    d.Served s view { c with pool := pool' } coming said := by
  cases h with
  | awaited hfree => cases hcall.symm.trans hfree
  | talking hcall₀ hfollows =>
      cases hcall.symm.trans hcall₀
      have := hfollows.stage
      rw [hst] at this
      cases this
  | done hcall₀ hdone =>
      cases hcall.symm.trans hcall₀
      cases hst.symm.trans hdone.stage
  | told _ hfinal hcoming hsaid =>
      exact .told (fun _ hother => nomatch hnone.symm.trans hother) hfinal hcoming hsaid

/-- A message is put into the inbox of its call. -/
theorem Served.feed {id : UInt64} {message : Bytes} {pool : Pool ω σ}
    (h : d.Served s view c coming said) (hs : c.stage = .feeding id message)
    (hf : c.pool.feed? id message = some pool) :
    d.Served s view { c with pool, stage := .serving } coming said := by
  obtain ⟨hother, hnone, hsome⟩ := Pool.call?_feed? hf d.id
  by_cases hid : d.id = id
  · subst hid
    have hhanding := Connection.handing_of_feeding hs
    cases h with
    | awaited _ hwaiting =>
        rw [hhanding] at hwaiting
        cases hwaiting
    | @talking call t heard hcall hfollows hhears hsaid =>
        obtain ⟨inbox, hput, hcall'⟩ := hsome call hcall
        rw [hhanding] at hhears
        -- Behind the end of its messages nothing would be handed over to the call.
        have hsending : call.inbox.sending = true := by
          generalize Inbox.sending _ = sending at hhears
          cases hhears with
          | more => rfl
          | nothing _ hwaiting => cases hwaiting
        rw [hsending] at hhears
        rw [Inbox.eq_of_put? hsending hfollows.reading hput] at hcall'
        cases hhears with
        | @more rest hscript hcoming =>
            have hfollows' : d.course.Follows view
                { call with inbox := { call.inbox with queue := call.inbox.queue ++ [message] } } t
                (heard ++ [message]) (view c.shared.world) := by
              refine ⟨hfollows.supervised, hfollows.staying, hfollows.reading, ?_, hfollows.sent,
                fun he => ?_, hfollows.stage⟩
              · rw [← hfollows.heard, List.append_assoc]
              · have := (hfollows.ended he).2
                rw [hsending] at this
                cases this
            refine .talking hcall' hfollows' ?_ hsaid
            rw [show Inbox.sending _ = true from hsending]
            refine .more ?_ hcoming
            rw [Connection.handing_of_serving rfl, List.append_nil, hscript]
    | @done call hcall hdone hfinal hcoming hsaid =>
        obtain ⟨inbox, hput, hcall'⟩ := hsome call hcall
        cases Inbox.puts_of_put? hput with
        | dropped =>
            exact .done hcall' ⟨hdone.supervised, hdone.deaf, hdone.stage⟩ hfinal hcoming hsaid
        | kept _ hreading => cases hdone.deaf.symm.trans hreading
    | told hover hfinal hcoming hsaid =>
        refine .told (fun call' hcall' => ?_) hfinal hcoming hsaid
        cases hcall : c.pool.call? d.id with
        | none => cases (hnone hcall).symm.trans hcall'
        | some call =>
            obtain ⟨inbox, -, hthis⟩ := hsome call hcall
            cases hthis.symm.trans hcall'
            exact hover call hcall
  · refine h.of_same (hother hid) ?_ rfl
    rw [Connection.handing_of_serving rfl]
    refine (Connection.handing_of_ne fun m hm => ?_).symm
    rw [hs] at hm
    cases hm
    exact hid rfl

/-- **Every step but reading and writing** adds to what has been said. -/
theorem Serves.inside (hk : d.course.KeptBy s.handler view) (hrun : c.Running)
    (h : d.Serves s view c coming said) {m : Connection.Move} (hm : m.isInside = true)
    (hstep : Connection.Step s c m c')
    (hview : m.caller? ≠ some d.id → view c'.shared.world = view c.shared.world) :
    ∃ new, c'.shared.outbox.queue = c.shared.outbox.queue ++ new ∧
      d.Serves s view c' coming (said ++ Frame.words d.id new) := by
  have hspared : ∀ g, c'.stage = .rejecting g → g.callId ≠ d.id := fun g hg =>
    h.spared g ((hstep.waiting_inside hm).2 g hg)
  suffices d.SaysMore s view c c' coming said by
    obtain ⟨new, hq, hserved⟩ := this
    exact ⟨new, hq, hserved, hspared⟩
  have going : ∀ {stage : LoopStage}, c.stage = stage →
      { c with stage := stage }.leaving? = none := by
    rintro stage rfl
    exact hrun.going
  cases hstep with
  | @notice id pool hs hn =>
      refine Served.saysNothing ?_ rfl
      obtain ⟨-, sup, hgone⟩ := hrun.sound.kept.notice hn
      have hcall' := Pool.call?_notice hn d.id
      by_cases hid : d.id = id
      · subst hid
        rw [if_pos rfl] at hcall'
        obtain ⟨call, hcall, hstands⟩ := Option.map_eq_some_iff.1 hgone
        have hst : call.stage = .gone := (Prod.mk.inj hstands).2
        exact h.served.forget hcall hst hcall'
      · rw [if_neg hid] at hcall'
        exact h.served.of_same hcall' rfl rfl
  | heed _ hw =>
      rw [hrun.stays] at hw
      cases hw
  | feed hs hf => exact (h.served.feed hs hf).saysNothing rfl
  | @answer g outbox hs hput =>
      obtain ⟨-, -, rfl⟩ := Outbox.put?_eq_ok_iff.1 hput
      refine ⟨[g], rfl, ?_⟩
      rw [Frame.words_other (h.spared g hs), List.append_nil]
      refine h.served.of_same rfl ?_ rfl
      rw [Connection.handing_of_serving rfl]
      refine (Connection.handing_of_ne fun m hm => ?_).symm
      rw [hs] at hm
      cases hm
  | unheard hs hc =>
      rw [hrun.isOpen] at hc
      cases hc
  | tear hs | torn hs | join hs | flush hs => cases going hs
  | pool hp => exact h.served.pool hk hrun hp hview
  | _ => cases hm

end Dialogue

end DeviceGateway
