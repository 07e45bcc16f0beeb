import DeviceGateway.Proofs.Broadcast.Presence
import DeviceGateway.Screen.Pipeline

/-!
# Steps of the screen pipeline

Each thing that can happen to a pipeline, with what must hold before, what is seen of it and what
comes of it (`Step`). All steps that `step?` has are among them (`step_of_step?`), so what they keep
holds after every run, together with the history of the run (`log_induction`).
-/

namespace DeviceGateway

/-- **What is picked from a history** that has the latest first; the earliest comes first. -/
def pick {ε α : Type} (g : ε → Option α) (h : List ε) : List α := (h.filterMap g).reverse

@[simp] theorem pick_cons {ε α : Type} (g : ε → Option α) (e : ε) (h : List ε) :
    pick g (e :: h) = pick g h ++ (g e).toList := by
  rw [pick, List.filterMap_cons, pick]
  cases g e with
  | none => rw [Option.toList_none, List.append_nil]
  | some a => rw [List.reverse_cons, Option.toList_some]

theorem pick_append_of_none {ε α : Type} {g : ε → Option α} {es : List ε}
    (hes : ∀ e ∈ es, g e = none) (h : List ε) : pick g (es ++ h) = pick g h := by
  rw [pick, List.filterMap_append, List.filterMap_eq_nil_iff.2 hes, List.nil_append, pick]

namespace Pipeline

variable {γ φ : Type} {via : Passage γ φ} {p q : Pipeline γ φ}

/-- What becomes of a frame that is offered. -/
inductive Handing where
  /-- It is put into the slot. -/
  | placed
  /-- It is dropped, as the slot is not free. -/
  | busy
  /-- It is refused, as the pipeline is closed. -/
  | closed
  deriving DecidableEq, Repr

/-- **What is seen of a step.** -/
inductive Event (φ : Type) where
  | offered (f : φ) (handing : Handing)
  /-- A frame that was submitted is put into the slot. -/
  | submitted (f : φ)
  | received (f : φ)
  /-- The consumer stops after the shutdown, and these frames are discarded. -/
  | discarded (frames : List φ)
  /-- The consumer looks for viewers, and so many are connected. -/
  | looked (f : φ) (viewers : Nat)
  /-- The limiter is asked for a frame, and its answer. -/
  | asked (f : φ) (ok : Bool)
  /-- A frame is handed to the broadcast. -/
  | presented (f : φ) (data : Bytes)
  /-- What is seen of the viewers. -/
  | viewers (events : List Broadcast.Event)
  deriving DecidableEq, Repr

/-- What would become of a frame that is offered now. -/
def handing (p : Pipeline γ φ) : Handing :=
  if p.isClosed then .closed else if p.isFree then .placed else .busy

/-- What is seen when a frame is offered to a viewer. -/
def seenOfOffer (p : Pipeline γ φ) (id : Nat) : List (Event φ) :=
  match p.stage with
  | .publishing _ data _ => [.viewers [.offered id data (p.viewers.takes id)]]
  | _ => []

/-- What is seen of the consumer's next step. -/
def seenOfConsumer (via : Passage γ φ) (p : Pipeline γ φ) : List (Event φ) :=
  match p.stage with
  | .pulled f => if p.shutdown then [.discarded (f :: p.slot.toList)] else [.received f]
  | .received f => [.looked f p.viewers.clientCount]
  | .watched f => [.asked f (via.allow p.passage).1]
  | .encoded f data =>
    if p.viewers.connected then [] else [.viewers [.turnedAway data], .presented f data]
  | .awaiting f data => [.viewers [.turn data], .presented f data]
  | .publishing _ _ (id :: _) => p.seenOfOffer id
  | _ => []

/-- **What is seen of a step**, the latest first. -/
def seen (via : Passage γ φ) (p : Pipeline γ φ) : Move φ → List (Event φ)
  | .offer f => [.offered f p.handing]
  | .submit f => if p.handing = .placed then [.submitted f] else []
  | .enter => p.promised.toList.map .submitted
  | .consume => p.seenOfConsumer via
  | .offerTo id => p.seenOfOffer id
  | .viewer op => [.viewers (p.viewers.seen op)]
  | _ => []

/-- **The history after a run**, the latest first. -/
def log (via : Passage γ φ) (h : List (Event φ)) (p : Pipeline γ φ) : List (Move φ) → List (Event φ)
  | [] => h
  | m :: ms => log via (p.seen via m ++ h) ((p.step? via m).getD p) ms

/-- **All that can happen to a pipeline**, what is seen of it, and what comes of it. -/
inductive Step (via : Passage γ φ) (p : Pipeline γ φ) : List (Event φ) → Pipeline γ φ → Prop where
  | place (f : φ) (hopen : p.isClosed = false) (hfree : p.isFree = true) :
      Step via p [.offered f .placed] { p with slot := some f }
  | busy (f : φ) (hopen : p.isClosed = false) (hfull : p.isFree = false) :
      Step via p [.offered f .busy] { p with droppedBusy := p.droppedBusy + 1 }
  | refuse (f : φ) (hclosed : p.isClosed = true) : Step via p [.offered f .closed] p
  | submit (f : φ) (hopen : p.isClosed = false) (hfree : p.isFree = true) :
      Step via p [.submitted f] { p with slot := some f }
  | enter (f : φ) (hf : p.promised = some f) :
      Step via p [.submitted f] { p with slot := some f, promised := none }
  /-- Somebody gets in line or leaves it, the last producer goes away, or the shutdown fires. -/
  | aside (promised : Option φ) (waiting : List φ) (fed shutdown : Bool)
      (hpromised : promised.isSome = true → p.promised.isSome = true)
      (hshutdown : p.shutdown = true → shutdown = true) :
      Step via p [] { p with promised, waiting, fed, shutdown }
  | pull (f : φ) (hs : p.stage = .idle) (hf : p.slot = some f) :
      Step via p [] (grant { p with slot := none, stage := .pulled f })
  | starved (hs : p.stage = .idle) (hf : p.slot = none) : Step via p [] p.halt
  | discard (f : φ) (hs : p.stage = .pulled f) (hshutdown : p.shutdown = true) :
      Step via p [.discarded (f :: p.slot.toList)] p.halt
  | receive (f : φ) (hs : p.stage = .pulled f) (hshutdown : p.shutdown = false) :
      Step via p [.received f]
        { p with stage := .received f
                 stats := { p.stats with received := p.stats.received + 1 } }
  | watch (f : φ) (hs : p.stage = .received f) (hc : p.viewers.connected = true) :
      Step via p [.looked f p.viewers.clientCount] { p with stage := .watched f }
  | skip (f : φ) (hs : p.stage = .received f) (hc : p.viewers.connected = false) :
      Step via p [.looked f p.viewers.clientCount]
        { p with stage := .idle
                 stats := { p.stats with skippedIdle := p.stats.skippedIdle + 1 } }
  | allow (f : φ) (passage : γ) (hs : p.stage = .watched f)
      (hok : via.allow p.passage = (true, passage)) :
      Step via p [.asked f true] { p with stage := .admitted f, passage }
  | limit (f : φ) (passage : γ) (hs : p.stage = .watched f)
      (hno : via.allow p.passage = (false, passage)) :
      Step via p [.asked f false]
        { p with stage := .idle, passage
                 stats := { p.stats with rateLimited := p.stats.rateLimited + 1 } }
  | encode (f : φ) (data : Bytes) (passage : γ) (hs : p.stage = .admitted f)
      (hdata : via.encode p.passage f = (.ok data, passage)) :
      Step via p [] { p with stage := .encoded f data, passage }
  | fail (f : φ) (e : GatewayError) (passage : γ) (hs : p.stage = .admitted f)
      (he : via.encode p.passage f = (.error e, passage)) :
      Step via p []
        { p with stage := .idle, passage
                 stats := { p.stats with encodeFailed := p.stats.encodeFailed + 1 } }
  | begin (f : φ) (data : Bytes) (hs : p.stage = .encoded f data)
      (hc : p.viewers.connected = true) : Step via p [] { p with stage := .awaiting f data }
  | turn (f : φ) (data : Bytes) (hs : p.stage = .awaiting f data) :
      Step via p [.viewers [.turn data], .presented f data]
        { p with stage := .publishing f data (p.viewers.table.map (·.id)) }
  | turnAway (f : φ) (data : Bytes) (hs : p.stage = .encoded f data)
      (hc : p.viewers.connected = false) :
      Step via p [.viewers [.turnedAway data], .presented f data] (p.published p.viewers)
  | offerTo (f : φ) (data : Bytes) (pending : List Nat) (id : Nat)
      (hs : p.stage = .publishing f data pending) (hid : id ∈ pending) :
      Step via p [.viewers [.offered id data (p.viewers.takes id)]]
        { p with stage := .publishing f data (pending.erase id)
                 viewers := p.viewers.offer data id }
  | finish (f : φ) (data : Bytes) (hs : p.stage = .publishing f data []) :
      Step via p [] (p.published p.viewers.settle)
  | viewer (op : Broadcast.Op) (hlock : p.isPublishing = true → op.locks = false) :
      Step via p [.viewers (p.viewers.seen op)] { p with viewers := (p.viewers.step op).2 }

/-! ## Every step is one of them -/

theorem step_offer (via : Passage γ φ) (p : Pipeline γ φ) (f : φ) :
    Step via p [.offered f p.handing] (p.offer f).2 := by
  rw [handing, offer]
  cases hclosed : p.isClosed with
  | true => exact .refuse f hclosed
  | false =>
      cases hfree : p.isFree with
      | true => exact .place f hclosed hfree
      | false => exact .busy f hclosed hfree

theorem step_submit (via : Passage γ φ) (p : Pipeline γ φ) (f : φ) :
    Step via p (p.seen via (.submit f)) ((p.submit? f).elim (p.lineUp f) (·.2)) := by
  rw [seen, handing, submit?]
  cases hclosed : p.isClosed with
  | true => exact .aside p.promised p.waiting p.fed p.shutdown id id
  | false =>
      cases hfree : p.isFree with
      | true => exact .submit f hclosed hfree
      | false => exact .aside p.promised (p.waiting ++ [f]) p.fed p.shutdown id id

theorem step_offerTo {id : Nat} (h : p.offerTo? id = some q) : Step via p (p.seenOfOffer id) q := by
  unfold offerTo? at h
  split at h
  · next f data pending hs =>
    obtain ⟨hid, ⟨⟩⟩ := Option.ite_none_right_eq_some.1 h
    rw [seenOfOffer, hs]
    exact .offerTo f data pending id hs (List.contains_iff_mem.1 hid)
  · cases h

section Consumer

variable {f : φ}

theorem step_pull (h : p.pull? = some q) : Step via p [] q := by
  unfold pull? at h
  split at h
  · next f hs hf =>
    cases h
    exact .pull f hs hf
  · next hs hf =>
    obtain ⟨-, h⟩ := Option.ite_none_left_eq_some.1 h
    cases h
    exact .starved hs hf
  · cases h

theorem step_count (hs : p.stage = .pulled f) (h : p.count? = some q) :
    Step via p (if p.shutdown then [.discarded (f :: p.slot.toList)] else [.received f]) q := by
  rw [count?, hs] at h
  dsimp only at h
  split at h
  · next hshutdown =>
    cases h
    rw [if_pos hshutdown]
    exact .discard f hs hshutdown
  · next hshutdown =>
    cases h
    rw [if_neg hshutdown]
    exact .receive f hs (Bool.eq_false_iff.2 hshutdown)

theorem step_look (hs : p.stage = .received f) (h : p.look? = some q) :
    Step via p [.looked f p.viewers.clientCount] q := by
  rw [look?, hs] at h
  dsimp only at h
  split at h
  · next hc =>
    cases h
    exact .watch f hs hc
  · next hc =>
    cases h
    exact .skip f hs (Bool.eq_false_iff.2 hc)

theorem step_ask (hs : p.stage = .watched f) (h : p.ask? via = some q) :
    Step via p [.asked f (via.allow p.passage).1] q := by
  rw [ask?, hs] at h
  dsimp only at h
  split at h
  · next hok =>
    cases h
    rw [hok]
    exact .allow f _ hs (Prod.ext hok rfl)
  · next hno =>
    cases h
    rw [Bool.eq_false_iff.2 hno]
    exact .limit f _ hs (Prod.ext (Bool.eq_false_iff.2 hno) rfl)

theorem step_encode (hs : p.stage = .admitted f) (h : p.encode? via = some q) : Step via p [] q := by
  rw [encode?, hs] at h
  dsimp only at h
  split at h
  · next data passage hdata =>
    cases h
    exact .encode f data passage hs hdata
  · next e passage he =>
    cases h
    exact .fail f e passage hs he

theorem step_present {data : Bytes} (hs : p.stage = .encoded f data) (h : p.present? = some q) :
    Step via p
      (if p.viewers.connected then [] else [.viewers [.turnedAway data], .presented f data]) q := by
  rw [present?, hs] at h
  dsimp only at h
  split at h
  · next hc =>
    cases h
    rw [if_pos hc]
    exact .begin f data hs hc
  · next hc =>
    cases h
    rw [if_neg hc]
    exact .turnAway f data hs (Bool.eq_false_iff.2 hc)

theorem step_consume (h : p.consume? via = some q) : Step via p (p.seenOfConsumer via) q := by
  rw [consume?] at h
  rw [seenOfConsumer]
  split at h
  · next hs => simpa only [hs] using step_pull h
  · next f hs => simpa only [hs] using step_count hs h
  · next f hs => simpa only [hs] using step_look hs h
  · next f hs => simpa only [hs] using step_ask hs h
  · next f hs => simpa only [hs] using step_encode hs h
  · next f data hs => simpa only [hs] using step_present hs h
  · next f data hs =>
    rw [turn?, hs] at h
    cases h
    simpa only [hs] using .turn f data hs
  · next f data id rest hs => simpa only [hs] using step_offerTo h
  · next f data hs =>
    rw [finish?, hs] at h
    cases h
    simpa only [hs] using .finish f data hs
  · cases h

end Consumer

theorem step_of_step? {m : Move φ} (h : p.step? via m = some q) : Step via p (p.seen via m) q := by
  cases m with
  | offer f =>
      obtain ⟨-, ⟨⟩⟩ := Option.ite_none_right_eq_some.1 h
      exact step_offer via p f
  | submit f =>
      obtain ⟨-, ⟨⟩⟩ := Option.ite_none_right_eq_some.1 h
      exact step_submit via p f
  | enter =>
      obtain ⟨f, hf, rfl⟩ := Option.map_eq_some_iff.1 h
      rw [seen, hf]
      exact .enter f hf
  | renounce =>
      obtain ⟨f, hf, rfl⟩ := Option.map_eq_some_iff.1 h
      exact .aside p.waiting.head? p.waiting.tail p.fed p.shutdown (fun _ => hf ▸ rfl) id
  | leaveLine place =>
      obtain ⟨-, ⟨⟩⟩ := Option.ite_none_right_eq_some.1 h
      exact .aside p.promised (p.waiting.eraseIdx place) p.fed p.shutdown id id
  | consume => exact step_consume h
  | offerTo id => exact step_offerTo h
  | viewer op =>
      obtain ⟨hlock, h⟩ := Option.ite_none_left_eq_some.1 h
      cases h
      refine .viewer op fun hpublishing => ?_
      rw [hpublishing, Bool.true_and] at hlock
      exact Bool.eq_false_iff.2 hlock
  | starve =>
      obtain ⟨-, ⟨⟩⟩ := Option.ite_none_right_eq_some.1 h
      exact .aside p.promised p.waiting false p.shutdown id id
  | shutdown =>
      cases h
      exact .aside p.promised p.waiting p.fed true id (fun _ => rfl)

/-- **What all steps keep holds after every run**, together with its history. -/
theorem log_induction {P : Pipeline γ φ → List (Event φ) → Prop}
    (hstep : ∀ {p q es h}, P p h → Step via p es q → P q (es ++ h)) {h : List (Event φ)}
    (hstart : P p h) {moves : List (Move φ)} (hrun : p.run? via moves = some q) :
    P q (log via h p moves) := by
  induction moves generalizing p h with
  | nil =>
      cases hrun
      exact hstart
  | cons m moves ih =>
      obtain ⟨r, hm, hrun⟩ := Option.bind_eq_some_iff.1 hrun
      rw [log, hm, Option.getD_some]
      exact ih (hstep hstart (step_of_step? hm)) hrun

/-! ## What to look for in a history -/

namespace Event

/-- The frame that is put into the slot. -/
@[simp] def placed? : Event φ → Option φ
  | .offered f .placed => some f
  | .submitted f => some f
  | _ => none

/-- The frame that was submitted and is put into the slot. -/
@[simp] def submitted? : Event φ → Option φ
  | .submitted f => some f
  | _ => none

/-- What becomes of a frame that is offered. -/
@[simp] def handing? : Event φ → Option Handing
  | .offered _ handing => some handing
  | _ => none

@[simp] def received? : Event φ → Option φ
  | .received f => some f
  | _ => none

@[simp] def discarded? : Event φ → Option (List φ)
  | .discarded frames => some frames
  | _ => none

/-- The frame that the consumer looks for viewers for, and how many are connected. -/
@[simp] def looked? : Event φ → Option (φ × Nat)
  | .looked f n => some (f, n)
  | _ => none

/-- The frame that the limiter is asked for, and its answer. -/
@[simp] def asked? : Event φ → Option (φ × Bool)
  | .asked f ok => some (f, ok)
  | _ => none

/-- The frame that is handed to the broadcast, and what it is encoded to. -/
@[simp] def presented? : Event φ → Option (φ × Bytes)
  | .presented f data => some (f, data)
  | _ => none

end Event

end Pipeline

end DeviceGateway
