import DeviceGateway.Proofs.Call.Hearing
import DeviceGateway.Proofs.Server.Dialogue
import DeviceGateway.Proofs.Server.Statuses

/-!
# What a call hears of its caller

The messages that a handler hears are those that the loop has read under the number of its call, in
order, and as far as they have been taken out of its inbox; the rest wait in the inbox, and one of
them may be in the hands of the loop (`Hearing`). Every step of the connection keeps this account
(`Hearing.step`), and so does every run (`hearing_of_run?`), as long as the call is in the pool.
-/

namespace DeviceGateway

/-! ## What the caller says -/

/-- **The messages among words**, up to the end of the messages. -/
def inbound : List Word → List Bytes
  | [] => []
  | (.message, m) :: ws => m :: inbound ws
  | (.halfClose, _) :: _ => []
  | _ :: ws => inbound ws

/-- Whether some word has a kind. -/
def hasKind (kind : FrameKind) (ws : List Word) : Bool := ws.any (·.1 = kind)

theorem hasKind_append (kind : FrameKind) (ws vs : List Word) :
    hasKind kind (ws ++ vs) = (hasKind kind ws || hasKind kind vs) := List.any_append

/-- Behind the end of the messages nothing counts. -/
theorem inbound_append (ws vs : List Word) :
    inbound (ws ++ vs) =
      if hasKind .halfClose ws then inbound ws else inbound ws ++ inbound vs := by
  induction ws with
  | nil => rfl
  | cons w ws ih =>
      obtain ⟨kind, m⟩ := w
      cases kind with
      | halfClose => rfl
      | message =>
          rw [List.cons_append, inbound, ih, inbound]
          show _ = if hasKind .halfClose ws then _ else _
          split <;> rfl
      | call => exact ih
      | cancel => exact ih
      | status => exact ih

section

variable {id : UInt64} {frames new : List Frame}

/-- Frames that bring no message leave the messages as they are. -/
theorem inbound_words_append (hnone : inbound (Frame.words id new) = []) :
    inbound (Frame.words id (frames ++ new)) = inbound (Frame.words id frames) := by
  rw [Frame.words_append, inbound_append, hnone, List.append_nil, ite_self]

/-- Frames of others, and frames that are neither messages nor their end. -/
theorem silent_frame {f : Frame} (h : f.callId = id → f.kind ≠ .message ∧ f.kind ≠ .halfClose) :
    inbound (Frame.words id [f]) = [] ∧ hasKind .halfClose (Frame.words id [f]) = false := by
  by_cases hid : f.callId = id
  · rw [Frame.words_own hid, Frame.word]
    obtain ⟨hm, hc⟩ := h hid
    cases hk : f.kind with
    | message => exact absurd hk hm
    | halfClose => exact absurd hk hc
    | call | cancel | status => exact ⟨rfl, rfl⟩
  · rw [Frame.words_other hid]
    exact ⟨rfl, rfl⟩

theorem hasKind_words_append {kind : FrameKind}
    (hnone : hasKind kind (Frame.words id new) = false) :
    hasKind kind (Frame.words id (frames ++ new)) = hasKind kind (Frame.words id frames) := by
  rw [Frame.words_append, hasKind_append, hnone, Bool.or_false]

theorem hasKind_words_of_more {kind : FrameKind} (h : hasKind kind (Frame.words id frames) = true) :
    hasKind kind (Frame.words id (frames ++ new)) = true := by
  rw [Frame.words_append, hasKind_append, h, Bool.true_or]

end

namespace Connection

variable {ω σ : Type}

/-! ## What a handler hears -/

/-- What the handler of a call hears in a step. -/
def heardBy (s : Server ω σ) (c : Connection ω σ) (id : UInt64) : Move → List (Option Bytes)
  | .pool (.poll i) =>
    if i = id then
      match c.pool.call? id with
      | some call => call.takes s.handler c.pool.allWithdrawn
      | none => []
    else []
  | _ => []

/-- **What the handler of a call hears in a run**: messages, and the end of the messages. -/
def heard (s : Server ω σ) (c : Connection ω σ) (id : UInt64) : List Move → List (Option Bytes)
  | [] => []
  | m :: ms =>
    match c.step? s m with
    | none => []
    | some c' => c.heardBy s id m ++ heard s c' id ms

variable {s : Server ω σ} {c c' d : Connection ω σ} {id : UInt64} {m : Move}

theorem heard_cons {ms : List Move} (hm : c.step? s m = some c') :
    c.heard s id (m :: ms) = c.heardBy s id m ++ c'.heard s id ms := by
  rw [heard, hm]

theorem heardBy_of_ne {i : Pool.Move} (hne : i ≠ .poll id) : c.heardBy s id (.pool i) = [] := by
  cases i with
  | poll i => exact if_neg fun hi => hne (congrArg Pool.Move.poll hi)
  | _ => rfl

theorem heardBy_poll {call : Call ω σ} (hcall : c.pool.call? id = some call) :
    c.heardBy s id (.pool (.poll id)) = call.takes s.handler c.pool.allWithdrawn := by
  rw [heardBy, if_pos rfl, hcall]

/-- **The account of one call**: what its handler has heard, by the frames that the loop has
read. -/
structure Hearing (id : UInt64) (frames : List Frame) (taken : List Bytes) (ends : Nat)
    (c : Connection ω σ) (call : Call ω σ) : Prop where
  found : c.pool.call? id = some call
  /-- The handler has heard the first messages, -/
  first : taken <+: inbound (Frame.words id frames)
  /-- and the others wait, unless nobody is going to hear them. -/
  waiting : call.inbox.reading = true →
    taken ++ call.inbox.queue ++ (if call.inbox.sending then c.handing id else []) =
      inbound (Frame.words id frames)
  /-- The messages end because the caller says so, or because the loop leaves. -/
  closed : call.inbox.sending = false →
    hasKind .halfClose (Frame.words id frames) = true ∨ c.leaving?.isSome = true
  shut : hasKind .halfClose (Frame.words id frames) = true → call.inbox.sending = false
  ended : 0 < ends → taken = inbound (Frame.words id frames) ∧ call.inbox.sending = false
  withdrawn : call.withdrawn = true →
    hasKind .cancel (Frame.words id frames) = true ∨ c.leaving?.isSome = true

/-- What has been heard, in order. -/
def account (taken : List Bytes) (ends : Nat) : List (Option Bytes) :=
  taken.map some ++ List.replicate ends none

/-- **A step keeps the account** of a call, and adds to it what the handler hears. -/
def Keeps (s : Server ω σ) (id : UInt64) (frames : List Frame) (taken : List Bytes) (ends : Nat)
    (c : Connection ω σ) (m : Move) (c' : Connection ω σ) : Prop :=
  ∃ taken' ends' call', account taken ends ++ c.heardBy s id m = account taken' ends' ∧
    Hearing id (frames ++ c.frameRead s m) taken' ends' c' call'

namespace Hearing

variable {frames : List Frame} {taken : List Bytes} {ends : Nat} {call call' : Call ω σ}

/-- A call that has just been accepted. -/
theorem start {stage : CallStage ω σ} (hfound : c.pool.call? id = some (.start id true stage))
    (hs : c.stage = .serving) : Hearing id [] [] 0 c (.start id true stage) where
  found := hfound
  first := List.prefix_rfl
  waiting _ := by
    rw [handing_of_serving hs, ite_self]
    rfl
  closed h := by cases h
  shut h := by cases h
  ended h := absurd h (Nat.lt_irrefl 0)
  withdrawn h := by cases h

section

variable (hh : Hearing id frames taken ends c call)
include hh

/-- Frames that bring no message and no end of messages. -/
theorem silent {new : List Frame} (hcall : c'.pool.call? id = some call)
    (hhanding : c'.handing id = c.handing id)
    (hleaving : c.leaving?.isSome = true → c'.leaving?.isSome = true)
    (hnone : inbound (Frame.words id new) = [])
    (hopen : hasKind .halfClose (Frame.words id new) = false) :
    Hearing id (frames ++ new) taken ends c' call := by
  have hsame : inbound (Frame.words id (frames ++ new)) = _ := inbound_words_append hnone
  have hend : hasKind .halfClose (Frame.words id (frames ++ new)) = _ := hasKind_words_append hopen
  refine ⟨hcall, hsame ▸ hh.first, fun hr => ?_, fun hs => ?_, fun he => hh.shut (hend ▸ he),
    hsame ▸ hh.ended, fun hw => (hh.withdrawn hw).imp hasKind_words_of_more hleaving⟩
  · rw [hhanding, hsame]
    exact hh.waiting hr
  · rw [hend]
    exact (hh.closed hs).imp_right hleaving

/-- As long as the loop goes on, the messages end only because the caller says so, -/
theorem closed_of_going (hg : c.leaving? = none) (hsending : call.inbox.sending = false) :
    hasKind .halfClose (Frame.words id frames) = true := by
  refine (hh.closed hsending).resolve_right ?_
  rw [hg]
  exact Bool.false_ne_true

/-- and only the caller withdraws the call. -/
theorem withdrawn_of_going (hg : c.leaving? = none) (hw : call.withdrawn = true) :
    hasKind .cancel (Frame.words id frames) = true := by
  refine (hh.withdrawn hw).resolve_right ?_
  rw [hg]
  exact Bool.false_ne_true

/-- What waits while the loop has nothing in hand for the call. -/
theorem waiting_of_nothing (hn : c.handing id = []) (hr : call.inbox.reading = true) :
    taken ++ call.inbox.queue = inbound (Frame.words id frames) := by
  have hwait := hh.waiting hr
  rwa [hn, ite_self, List.append_nil] at hwait

/-- **A message comes** for the call, and the loop has it in hand. -/
theorem message {f : Frame} (hs : c.stage = .serving) (hk : f.kind = .message)
    (hid : f.callId = id) (hcall : c'.pool.call? id = some call)
    (hstage : c'.stage = .feeding id f.payload) :
    Hearing id (frames ++ [f]) taken ends c' call := by
  have hg : c.leaving? = none := by rw [leaving?, hs]
  have hwords : Frame.words id [f] = [(.message, f.payload)] := by
    rw [Frame.words_own hid, Frame.word, hk]
  have hend : hasKind .halfClose (Frame.words id (frames ++ [f])) = _ :=
    hasKind_words_append (by rw [hwords]; rfl)
  have hin : inbound (Frame.words id (frames ++ [f])) = _ :=
    (congrArg inbound Frame.words_append).trans (inbound_append _ _)
  have hwithdrawn (hw : call.withdrawn = true) :
      hasKind .cancel (Frame.words id (frames ++ [f])) = true ∨ c'.leaving?.isSome = true :=
    .inl (hasKind_words_of_more (hh.withdrawn_of_going hg hw))
  have hwait := hh.waiting_of_nothing (handing_of_serving hs id)
  cases hsending : call.inbox.sending with
  | false =>
      -- the caller has ended its messages, so this is none of them
      have hover := hh.closed_of_going hg hsending
      rw [hover, if_pos rfl] at hin
      refine ⟨hcall, hin ▸ hh.first, fun hr => ?_, fun _ => .inl (hend.trans hover),
        fun _ => hsending, hin ▸ hh.ended, hwithdrawn⟩
      rw [hsending, if_neg Bool.false_ne_true, List.append_nil, hin]
      exact hwait hr
  | true =>
      have hopen : hasKind .halfClose (Frame.words id frames) = false :=
        eq_false_of_ne_true fun h => Bool.false_ne_true ((hh.shut h).symm.trans hsending)
      rw [hopen, if_neg Bool.false_ne_true, hwords] at hin
      refine ⟨hcall, ?_, fun hr => ?_, fun h => ?_, fun h => ?_, fun h => ?_, hwithdrawn⟩
      · rw [hin]
        exact hh.first.trans (List.prefix_append _ _)
      · rw [hsending, if_pos rfl, handing_of_feeding hstage, hin, hwait hr]
        rfl
      · cases h.symm.trans hsending
      · rw [hend, hopen] at h
        cases h
      · cases (hh.ended h).2.symm.trans hsending

/-- **The messages end**, because the caller says so or because the loop leaves. -/
theorem endMessages {new : List Frame} (hn : c.handing id = [])
    (hcall : c'.pool.call? id = some { call with inbox := call.inbox.endSending })
    (hleaving : c.leaving?.isSome = true → c'.leaving?.isSome = true)
    (hnone : inbound (Frame.words id new) = [])
    (hends : hasKind .halfClose (Frame.words id (frames ++ new)) = true ∨
      c'.leaving?.isSome = true) :
    Hearing id (frames ++ new) taken ends c' { call with inbox := call.inbox.endSending } := by
  have hsame : inbound (Frame.words id (frames ++ new)) = _ := inbound_words_append hnone
  refine ⟨hcall, hsame ▸ hh.first, fun hr => ?_, fun _ => hends, fun _ => rfl,
    fun h => ⟨hsame ▸ (hh.ended h).1, rfl⟩,
    fun hw => (hh.withdrawn hw).imp hasKind_words_of_more hleaving⟩
  exact (List.append_nil _).trans ((hh.waiting_of_nothing hn hr).trans hsame.symm)

/-- **The call is withdrawn**, because the caller says so or because the loop leaves. -/
theorem withdraw {new : List Frame} (hhanding : c'.handing id = c.handing id)
    (hcall : c'.pool.call? id = some { call with withdrawn := true })
    (hleaving : c.leaving?.isSome = true → c'.leaving?.isSome = true)
    (hnone : inbound (Frame.words id new) = [])
    (hopen : hasKind .halfClose (Frame.words id new) = false)
    (hcancel : hasKind .cancel (Frame.words id (frames ++ new)) = true ∨
      c'.leaving?.isSome = true) :
    Hearing id (frames ++ new) taken ends c' { call with withdrawn := true } := by
  have hsame : inbound (Frame.words id (frames ++ new)) = _ := inbound_words_append hnone
  have hend : hasKind .halfClose (Frame.words id (frames ++ new)) = _ := hasKind_words_append hopen
  refine ⟨hcall, hsame ▸ hh.first, fun hr => ?_, fun hs => ?_, fun he => hh.shut (hend ▸ he),
    hsame ▸ hh.ended, fun _ => hcancel⟩
  · rw [hhanding, hsame]
    exact hh.waiting hr
  · rw [hend]
    exact (hh.closed hs).imp_right hleaving

/-- **The message in hand is put into the inbox**, or dropped if it is none that the handler is
going to hear. -/
theorem feed {m : Bytes} {inbox : Inbox} (hs : c.stage = .feeding id m)
    (hput : call.inbox.put? m = some inbox) (hs' : c'.stage = .serving)
    (hcall : c'.pool.call? id = some { call with inbox }) :
    Hearing id frames taken ends c' { call with inbox } := by
  have hg : c.leaving? = none := by rw [leaving?, hs]
  have hsending := Inbox.sending_put? hput
  have hreading := Inbox.reading_put? hput
  refine ⟨hcall, hh.first, fun hr => ?_, fun h => ?_, fun h => ?_, fun h => ?_, fun hw => ?_⟩
  · have hr : call.inbox.reading = true := hreading.symm.trans hr
    have hwait := hh.waiting hr
    rw [handing_of_feeding hs] at hwait
    show taken ++ inbox.queue ++ (if inbox.sending then c'.handing id else []) = _
    rw [handing_of_serving hs', ite_self, List.append_nil, ← hwait]
    cases hopen : call.inbox.sending with
    | true =>
        rw [Inbox.eq_of_put? hopen hr hput, if_pos rfl, List.append_assoc]
    | false =>
        have hsame : inbox = call.inbox := by
          rw [Inbox.put?, hopen] at hput
          exact (Option.some.inj hput).symm
        rw [hsame, if_neg Bool.false_ne_true, List.append_nil]
  · exact .inl (hh.closed_of_going hg (hsending.symm.trans h))
  · exact hsending.trans (hh.shut h)
  · exact ⟨(hh.ended h).1, hsending.trans (hh.ended h).2⟩
  · exact .inl (hh.withdrawn_of_going hg hw)

/-! ### Steps of the call -/

section

variable (hcall : c'.pool.call? id = some call') (hhanding : c'.handing id = c.handing id)
  (hleaving : c.leaving?.isSome = true → c'.leaving?.isSome = true)
  (houtside : Call.SameOutside call call')
include hcall hhanding hleaving houtside

/-- **The call takes a step** in which its handler hears nothing. -/
theorem quiet (hinbox : call'.inbox.reading = true → call'.inbox = call.inbox) :
    Hearing id frames taken ends c' call' := by
  refine ⟨hcall, hh.first, fun hr => ?_, fun h => ?_, fun h => ?_, fun h => ?_, fun hw => ?_⟩
  · rw [hinbox hr, hhanding]
    exact hh.waiting (hinbox hr ▸ hr)
  · exact (hh.closed (houtside.2.symm.trans h)).imp_right hleaving
  · exact houtside.2.trans (hh.shut h)
  · exact ⟨(hh.ended h).1, houtside.2.trans (hh.ended h).2⟩
  · exact (hh.withdrawn (houtside.1.symm.trans hw)).imp_right hleaving

/-- **The handler hears the next message.** -/
theorem hear {m : Bytes} {rest : List Bytes} (hr : call.inbox.reading = true)
    (hqueue : call.inbox.queue = m :: rest)
    (hinbox : call'.inbox.reading = true → call'.inbox.queue = rest) :
    ends = 0 ∧ Hearing id frames (taken ++ [m]) ends c' call' := by
  have hwait := hh.waiting hr
  rw [hqueue, ← List.singleton_append, ← List.append_assoc, List.append_assoc _ rest] at hwait
  have hopen : ends = 0 := by
    refine Nat.eq_zero_of_not_pos fun hpos => ?_
    have hlength := congrArg List.length (hwait.trans (hh.ended hpos).1.symm)
    rw [List.length_append, List.length_append, List.length_singleton] at hlength
    omega
  refine ⟨hopen, hcall, ⟨_, hwait⟩, fun hr' => ?_, fun h => ?_, fun h => ?_, fun h => ?_,
    fun hw => ?_⟩
  · rw [hinbox hr', hhanding, houtside.2, List.append_assoc]
    exact hwait
  · exact (hh.closed (houtside.2.symm.trans h)).imp_right hleaving
  · exact houtside.2.trans (hh.shut h)
  · rw [hopen] at h
    cases h
  · exact (hh.withdrawn (houtside.1.symm.trans hw)).imp_right hleaving

/-- **The handler hears the end of the messages**, and has heard all of them. -/
theorem hearEnd (hr : call.inbox.reading = true) (hqueue : call.inbox.queue = [])
    (hsending : call.inbox.sending = false)
    (hinbox : call'.inbox.reading = true → call'.inbox = call.inbox) :
    Hearing id frames taken (ends + 1) c' call' := by
  have hall := hh.waiting hr
  rw [hqueue, hsending, if_neg Bool.false_ne_true, List.append_nil, List.append_nil] at hall
  have hsame := hh.quiet hcall hhanding hleaving houtside hinbox
  exact ⟨hcall, hsame.first, hsame.waiting, hsame.closed, hsame.shut,
    fun _ => ⟨hall, houtside.2.trans hsending⟩, hsame.withdrawn⟩

/-- **A step of the call adds to the account** what the handler hears. -/
theorem poll {h : Handler ω σ} {allWithdrawn : Bool} {shared shared' : Shared ω}
    (hp : call.poll? h allWithdrawn shared = some (call', shared')) :
    ∃ taken' ends', account taken ends ++ call.takes h allWithdrawn = account taken' ends' ∧
      Hearing id frames taken' ends' c' call' := by
  have hdraws (hr : call'.inbox.reading = true) := (Call.reading_of_poll? hp hr).2
  rcases Call.takes_cases h allWithdrawn call with hnone | ⟨m, inbox, htakes, hr, htake⟩
  · rw [hnone] at hdraws ⊢
    refine ⟨taken, ends, List.append_nil _, hh.quiet hcall hhanding hleaving houtside fun hr => ?_⟩
    rcases hdraws hr with ⟨-, hsame⟩ | ⟨m, hm, -⟩
    · exact hsame
    · cases hm
  · have hinbox (hr : call'.inbox.reading = true) : call'.inbox = inbox := by
      rcases hdraws hr with ⟨hnone, -⟩ | ⟨m', hm, htake'⟩
      · cases htakes.symm.trans hnone
      · cases htakes.symm.trans hm
        cases htake.symm.trans htake'
        rfl
    rw [htakes]
    cases Inbox.takes_of_take? htake with
    | @message x rest hqueue =>
        obtain ⟨hopen, hnext⟩ := hh.hear hcall hhanding hleaving houtside hr hqueue fun hr' =>
          congrArg Inbox.queue (hinbox hr')
        refine ⟨taken ++ [x], ends, ?_, hnext⟩
        rw [hopen, account, account, List.map_append, List.replicate_zero, List.append_nil,
          List.append_nil]
        rfl
    | ending hqueue hsending =>
        refine ⟨taken, ends + 1, ?_, hh.hearEnd hcall hhanding hleaving houtside hr hqueue
          hsending hinbox⟩
        rw [account, account, List.append_assoc, List.replicate_succ']

end

/-! ### Steps of the connection -/

theorem keeps_silence (hcall : c'.pool.call? id = some call)
    (hhanding : c'.handing id = c.handing id)
    (hleaving : c.leaving?.isSome = true → c'.leaving?.isSome = true)
    (hsilent : inbound (Frame.words id (c.frameRead s m)) = [] ∧
      hasKind .halfClose (Frame.words id (c.frameRead s m)) = false)
    (hheard : c.heardBy s id m = []) : Keeps s id frames taken ends c m c' :=
  ⟨taken, ends, call, by rw [hheard, List.append_nil],
    hh.silent hcall hhanding hleaving hsilent.1 hsilent.2⟩

/-- The loop reads a frame that brings no message of the call, and no end of its messages. -/
theorem keeps_frame {f : Frame} {rest : Bytes} (hs : c.stage = .serving)
    (hd : Frame.decode s.checksum c.unread = .frame f rest)
    (hcall : c'.pool.call? id = some call) (hs' : ∀ message, c'.stage ≠ .feeding id message)
    (hleaving : c.leaving?.isSome = true → c'.leaving?.isSome = true)
    (hf : f.callId = id → f.kind ≠ .message ∧ f.kind ≠ .halfClose) :
    Keeps s id frames taken ends c .read c' := by
  refine hh.keeps_silence hcall ?_ hleaving ?_ rfl
  · rw [handing_of_serving hs, handing_of_ne hs']
  · rw [frameRead_of_frame hd]
    exact silent_frame hf

/-- The loop reads a frame of another call. -/
theorem keeps_other {f : Frame} {rest : Bytes}
    (hd : Frame.decode s.checksum c.unread = .frame f rest) (hstep : Step s c .read c')
    (hid : f.callId ≠ id)
    (hleaving : c.leaving?.isSome = true → c'.leaving?.isSome = true) :
    Keeps s id frames taken ends c .read c' := by
  obtain ⟨hs, -⟩ := hstep.eq_dispatch hd
  refine hh.keeps_frame hs hd ((call?_of_read hd hstep hid).trans hh.found)
    (fun message hstage => ?_) hleaving fun h => absurd h hid
  exact hid ((hstep.waiting_read hd).1 _ _ hstage)

/-- **The loop reads a frame of the call.** -/
theorem keeps_own {f : Frame} {rest : Bytes} (hd : Frame.decode s.checksum c.unread = .frame f rest)
    (hstep : Step s c .read c') (hid : f.callId = id)
    (hleaving : c.leaving?.isSome = true → c'.leaving?.isSome = true) :
    Keeps s id frames taken ends c .read c' := by
  subst hid
  cases hstep with
  | readFault _ hd' | readEnd _ hd' =>
      rw [hd] at hd'
      cases hd'
  | refuse hs hd' hk =>
      rw [hd] at hd'
      cases hd'
      exact hh.keeps_frame hs hd hh.found (fun _ h => by cases h) hleaving fun _ => by
        rw [hk]
        decide
  | duplicate hs hd' hk =>
      rw [hd] at hd'
      cases hd'
      exact hh.keeps_frame hs hd hh.found (fun _ h => by cases h) hleaving fun _ => by
        rw [hk]
        decide
  | accept _ hd' _ _ hl =>
      rw [hd] at hd'
      cases hd'
      -- No call is accepted under a number that is in use.
      have hfree := (Pool.spawn_eq_ok_iff.1 hl).1
      rw [Pool.contains, hh.found] at hfree
      cases hfree
  | message hs hd' hk =>
      rw [hd] at hd'
      cases hd'
      refine ⟨taken, ends, call, List.append_nil _, ?_⟩
      rw [frameRead_of_frame hd]
      exact hh.message hs hk rfl hh.found rfl
  | halfClose hs hd' hk =>
      rw [hd] at hd'
      cases hd'
      have hcall := Pool.call?_halfClose c.pool f.callId f.callId
      rw [if_pos rfl, hh.found] at hcall
      refine ⟨taken, ends, { call with inbox := call.inbox.endSending }, List.append_nil _, ?_⟩
      rw [frameRead_of_frame hd]
      refine hh.endMessages (handing_of_serving hs _) hcall hleaving ?_ (.inl ?_)
      · rw [Frame.words_own rfl, Frame.word, hk]
        rfl
      · rw [Frame.words_append, hasKind_append, Frame.words_own rfl, Frame.word, hk]
        exact Bool.or_true _
  | cancel hs hd' hk =>
      rw [hd] at hd'
      cases hd'
      have hcall := Pool.call?_cancel c.pool f.callId f.callId
      rw [if_pos rfl, hh.found] at hcall
      refine ⟨taken, ends, { call with withdrawn := true }, List.append_nil _, ?_⟩
      rw [frameRead_of_frame hd]
      obtain ⟨hnone, hopen⟩ := @silent_frame f.callId f fun _ => by
        rw [hk]
        decide
      refine hh.withdraw rfl hcall hleaving hnone hopen (.inl ?_)
      rw [Frame.words_append, hasKind_append, Frame.words_own rfl, Frame.word, hk]
      exact Bool.or_true _
  | status hs hd' hk =>
      rw [hd] at hd'
      cases hd'
      refine hh.keeps_frame hs hd hh.found (fun _ h => ?_) hleaving fun _ => ?_
      · cases hs.symm.trans h
      · rw [hk]
        decide

/-- The call takes a step of its own. -/
theorem keeps_pool {call' : Call ω σ} {p : Pool.Move} {pool' : Pool ω σ} {shared : Shared ω}
    (hp : Pool.Step s.handler c.pool c.shared p pool' shared)
    (hcall : pool'.call? id = some call')
    (hacts : Pool.Acts s.handler c.pool c.shared id call p call' shared) :
    Keeps s id frames taken ends c (.pool p) { c with pool := pool', shared } := by
  have quiet (hne : p ≠ .poll id) (houtside : Call.SameOutside call call')
      (hinbox : call'.inbox.reading = true → call'.inbox = call.inbox) :
      Keeps s id frames taken ends c (.pool p) { c with pool := pool', shared } := by
    refine ⟨taken, ends, call', by rw [heardBy_of_ne hne, List.append_nil], ?_⟩
    have hquiet : Hearing id frames taken ends { c with pool := pool', shared } call' :=
      hh.quiet hcall rfl (fun h => h) houtside hinbox
    rwa [show c.frameRead s (.pool p) = [] from rfl, List.append_nil]
  cases hacts with
  | poll hp =>
      have hnow : ({ c with pool := pool', shared } : Connection ω σ).pool.call? id = some call' :=
        hcall
      obtain ⟨taken', ends', haccount, hnext⟩ :=
        hh.poll hnow rfl (fun h => h) (Call.sameOutside_of_poll? hp) hp
      refine ⟨taken', ends', call', by rw [heardBy_poll hh.found, haccount], ?_⟩
      rwa [show c.frameRead s (.pool (.poll id)) = [] from rfl, List.append_nil]
  | carry hc => exact quiet nofun (Call.sameOutside_of_carry? hc) fun _ => Call.inbox_of_carry? hc
  | expire he => exact quiet nofun (Call.sameOutside_of_expire? he) (Call.inbox_of_expire? he)
  | report hs => exact quiet nofun ⟨rfl, rfl⟩ fun _ => rfl

/-- **Every step keeps the account**, as long as the call is in the pool. -/
theorem step (hstep : Step s c m c') (hin : c'.pool.contains id = true) :
    Keeps s id frames taken ends c m c' := by
  have hleaving : c.leaving?.isSome = true → c'.leaving?.isSome = true := fun h => by
    obtain ⟨result, hr⟩ := Option.isSome_iff_exists.1 h
    rw [leaving?_of_step hr hstep]
    rfl
  have hcall := hh.found
  have read {f : Frame} {rest : Bytes} (hd : Frame.decode s.checksum c.unread = .frame f rest)
      (hstep : Step s c .read c') : Keeps s id frames taken ends c .read c' := by
    by_cases hid : f.callId = id
    · exact hh.keeps_own hd hstep hid hleaving
    · exact hh.keeps_other hd hstep hid hleaving
  have idle {stage : LoopStage} (hs : c.stage = stage) (hne : ∀ m, stage ≠ .feeding id m) :
      c.handing id = [] := handing_of_ne fun m h => hne m (hs.symm.trans h)
  cases hstep with
  | arrive | hangUp | stop | write | failWriting =>
      exact hh.keeps_silence hcall rfl hleaving ⟨rfl, rfl⟩ rfl
  | refuse hs hd hk hp hg => exact read hd (.refuse hs hd hk hp hg)
  | duplicate hs hd hk hp hl => exact read hd (.duplicate hs hd hk hp hl)
  | accept hs hd hk hp hl => exact read hd (.accept hs hd hk hp hl)
  | message hs hd hk => exact read hd (.message hs hd hk)
  | halfClose hs hd hk => exact read hd (.halfClose hs hd hk)
  | cancel hs hd hk => exact read hd (.cancel hs hd hk)
  | status hs hd hk => exact read hd (.status hs hd hk)
  | readFault hs hd =>
      refine hh.keeps_silence hcall (idle hs fun _ h => by cases h).symm hleaving ?_ rfl
      rw [frameRead, hd]
      exact ⟨rfl, rfl⟩
  | readEnd hs hd =>
      refine hh.keeps_silence hcall (idle hs fun _ h => by cases h).symm hleaving ?_ rfl
      rw [frameRead, hd]
      exact ⟨rfl, rfl⟩
  | heed hs =>
      exact hh.keeps_silence hcall (idle hs fun _ h => by cases h).symm hleaving ⟨rfl, rfl⟩ rfl
  | @notice i pool _ hn =>
      have hnotice := Pool.call?_notice hn id
      refine hh.keeps_silence ?_ rfl hleaving ⟨rfl, rfl⟩ rfl
      -- Notice takes its call out of the pool, and this one is still there.
      show pool.call? id = some call
      split at hnotice
      · change pool.contains id = true at hin
        rw [Pool.contains, hnotice] at hin
        cases hin
      · rw [hnotice, hcall]
  | @feed i message pool hs hf =>
      obtain ⟨hother, -, hsome⟩ := Pool.call?_feed? hf id
      by_cases hi : id = i
      · subst hi
        obtain ⟨inbox, hput, hcall'⟩ := hsome call hcall
        have hfed : Hearing id frames taken ends { c with pool, stage := .serving }
            { call with inbox } := hh.feed hs hput rfl hcall'
        exact ⟨taken, ends, _, List.append_nil _, (List.append_nil frames).symm ▸ hfed⟩
      · refine hh.keeps_silence ((hother hi).trans hcall) ?_ hleaving ⟨rfl, rfl⟩ rfl
        refine (idle hs fun m h => hi ?_).symm
        cases h
        rfl
  | answer hs | unheard hs | torn hs | join hs | flush hs =>
      exact hh.keeps_silence hcall (idle hs fun _ h => by cases h).symm hleaving ⟨rfl, rfl⟩ rfl
  | @tear t ts result hs =>
      have hn := idle hs fun _ h => by cases h
      refine ⟨taken, ends, ?_⟩
      cases t with
      | endMessages i =>
          have htorn := Pool.call?_halfClose c.pool i id
          rw [hcall] at htorn
          split at htorn
          · exact ⟨_, List.append_nil _, hh.endMessages hn htorn hleaving rfl (.inr rfl)⟩
          · exact ⟨call, List.append_nil _, hh.silent htorn hn.symm hleaving rfl rfl⟩
      | withdraw i =>
          have htorn := Pool.call?_cancel c.pool i id
          rw [hcall] at htorn
          split at htorn
          · exact ⟨_, List.append_nil _, hh.withdraw hn.symm htorn hleaving rfl rfl (.inr rfl)⟩
          · exact ⟨call, List.append_nil _, hh.silent htorn hn.symm hleaving rfl rfl⟩
  | @pool p pool' shared hp =>
      rcases Pool.call?_of_step hp hcall with ⟨hsame, hne⟩ | ⟨call', hcall', hacts⟩
      · refine hh.keeps_silence hsame rfl hleaving ⟨rfl, rfl⟩ (heardBy_of_ne ?_)
        rintro rfl
        exact hne rfl
      · exact hh.keeps_pool hp hcall' hacts

end

end Hearing

/-- **The account of a run.** -/
theorem hearing_of_run? {ms : List Move} {frames : List Frame} {taken : List Bytes} {ends : Nat}
    {call : Call ω σ} (hh : Hearing id frames taken ends c call) (hr : c.run? s ms = some d)
    (hin : ∀ e ∈ c.visited s ms, e.pool.contains id = true) :
    ∃ taken' ends' call', account taken ends ++ c.heard s id ms = account taken' ends' ∧
      Hearing id (frames ++ c.framesRead s ms) taken' ends' d call' := by
  induction ms generalizing c frames taken ends call with
  | nil =>
      cases hr
      refine ⟨taken, ends, call, List.append_nil _, ?_⟩
      rwa [framesRead, List.append_nil]
  | cons m ms ih =>
      obtain ⟨e, hm, hr⟩ := run?_cons.1 hr
      rw [visited_cons hm] at hin
      have hlater : ∀ k ∈ e.visited s ms, k.pool.contains id = true :=
        fun k hk => hin k (List.mem_cons_of_mem _ hk)
      obtain ⟨taken', ends', call', haccount, hh'⟩ :=
        hh.step (step_of_step? hm) (hlater e (mem_visited_self e ms))
      obtain ⟨taken'', ends'', call'', haccount', hh''⟩ := ih hh' hr hlater
      refine ⟨taken'', ends'', call'', ?_, ?_⟩
      · rw [heard_cons hm, ← List.append_assoc, haccount, haccount']
      · rwa [framesRead_cons hm, ← List.append_assoc]

end Connection

end DeviceGateway
