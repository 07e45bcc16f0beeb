import DeviceGateway.Call.Pool
import Mathlib.Data.List.Forall2
import Mathlib.Data.Option.Basic

/-!
# Calls on worlds that are alike

Two calls are twins if nobody can tell them apart from outside: they are known by the same number,
have the same inbox and stand at the same point, though each works on a world of its own
(`Call.Twin`). What the worlds have in common is a relation that the jobs of both keep, and what the
handlers know of their worlds is another (`Handler.Respects`). Then whatever step one of them can
take, the other can take as well, and they are twins again.
-/

namespace DeviceGateway

variable {ω σ α β γ δ : Type} {R : ω → ω → Prop} {A : σ → σ → Prop}

/-- Two changes keep what two worlds have in common. -/
def Keeps (R : ω → ω → Prop) (f f' : ω → ω) : Prop := ∀ w w', R w w' → R (f w) (f' w')

/-! ## Jobs -/

namespace Job

/-- **Twin jobs**: on worlds that are alike they take the same steps, and have like answers. -/
inductive Twin (R : ω → ω → Prop) (same : α → β → Prop) : Job ω α → Job ω β → Prop
  | done {a : α} {b : β} (h : same a b) : Twin R same (.done a) (.done b)
  | now {e e' : ω → ω} {n : ω → Job ω α} {n' : ω → Job ω β} (he : Keeps R e e')
      (hn : ∀ w w', R w w' → Twin R same (n w) (n' w')) : Twin R same (.now e n) (.now e' n')
  | blocking {e e' r r' : ω → ω} {n : ω → Job ω α} {n' : ω → Job ω β} (he : Keeps R e e')
      (hr : Keeps R r r') (hn : ∀ w w', R w w' → Twin R same (n w) (n' w')) :
      Twin R same (.blocking e r n) (.blocking e' r' n')

theorem Twin.bind {same : α → β → Prop} {same' : γ → δ → Prop} {j : Job ω α} {j' : Job ω β}
    {f : α → Job ω γ} {f' : β → Job ω δ} (h : Twin R same j j')
    (hf : ∀ a b, same a b → Twin R same' (f a) (f' b)) :
    Twin R same' (j.bind f) (j'.bind f') := by
  induction h with
  | done h => exact hf _ _ h
  | now he _ ih => exact .now he ih
  | blocking he hr _ ih => exact .blocking he hr ih

/-- A step that is handed over. -/
theorem Twin.ask {same : α → β → Prop} {step : ω → α × ω} {step' : ω → β × ω}
    (h : ∀ w w', R w w' → same (step w).1 (step' w').1 ∧ R (step w).2 (step' w').2) :
    Twin R same (.ask step) (.ask step') :=
  .blocking (fun w w' hw => (h w w' hw).2) (fun _ _ hw => hw) fun w w' hw => .done (h w w' hw).1

end Job

/-! ## Handlers -/

/-- Handlers that wait for the same thing, and go on alike. -/
inductive Await.Twin (R : ω → ω → Prop) (A : σ → σ → Prop) : Await ω σ → Await ω σ → Prop
  | finish (result : Except GatewayError Unit) : Twin R A (.finish result) (.finish result)
  | receive {n n' : Option Bytes → Job ω σ} (hn : ∀ m, Job.Twin R A (n m) (n' m)) :
      Twin R A (.receive n) (.receive n')
  | send (payload : Bytes) {n n' : Except GatewayError Unit → Job ω σ}
      (hn : ∀ r, Job.Twin R A (n r) (n' r)) : Twin R A (.send payload n) (.send payload n')
  | provider (answer : Option (Except GatewayError Json)) (limit : Duration)
      {n n' : Except GatewayError Json → Job ω σ} (hn : ∀ r, Job.Twin R A (n r) (n' r)) :
      Twin R A (.provider answer limit n) (.provider answer limit n')
  | withdrawal {j j' : Job ω σ} (hj : Job.Twin R A j j') : Twin R A (.withdrawal j) (.withdrawal j')
  | deafness {j j' : Job ω σ} (hj : Job.Twin R A j j') : Twin R A (.deafness j) (.deafness j')

/-- **A handler that cannot tell like worlds apart.** -/
structure Handler.Respects (h : Handler ω σ) (R : ω → ω → Prop) (A : σ → σ → Prop) : Prop where
  await : ∀ s s', A s s' → Await.Twin R A (h.await s) (h.await s')
  release : ∀ s s', A s s' → Keeps R (h.release s) (h.release s')

/-! ## Calls -/

inductive CallStage.Twin (R : ω → ω → Prop) (A : σ → σ → Prop) :
    CallStage ω σ → CallStage ω σ → Prop
  | starting {j j' : Job ω σ} (hj : Job.Twin R A j j') : Twin R A (.starting j) (.starting j')
  | refused (e : GatewayError) : Twin R A (.refused e) (.refused e)
  | awaiting {s s' : σ} (h : A s s') : Twin R A (.awaiting s) (.awaiting s')
  | handed {e e' r r' : ω → ω} {n n' : ω → Job ω σ} (he : Keeps R e e') (hr : Keeps R r r')
      (hn : ∀ w w', R w w' → Job.Twin R A (n w) (n' w')) : Twin R A (.handed e r n) (.handed e' r' n')
  | carried {r r' : ω → ω} {j j' : Job ω σ} (hr : Keeps R r r') (hj : Job.Twin R A j j') :
      Twin R A (.carried r j) (.carried r' j')
  | ended (result : Except GatewayError Unit) : Twin R A (.ended result) (.ended result)
  | reporting : Twin R A .reporting .reporting
  | gone : Twin R A .gone .gone

/-- How twin calls begin. -/
theorem CallStage.Twin.opening {j : Except GatewayError (Job ω σ)}
    (h : ∀ job, j = .ok job → Job.Twin R A job job) :
    CallStage.Twin R A (.opening j) (.opening j) := by
  cases j with
  | error e => exact .refused e
  | ok job => exact .starting (h job rfl)

theorem CallStage.Twin.sameKind {t t' : CallStage ω σ} (h : CallStage.Twin R A t t') :
    t'.isLive = t.isLive ∧ t'.isGone = t.isGone := by
  cases h <;> exact ⟨rfl, rfl⟩

/-- **Twin calls**: nobody can tell them apart from outside. -/
inductive Call.Twin (R : ω → ω → Prop) (A : σ → σ → Prop) : Call ω σ → Call ω σ → Prop
  | mk (id : UInt64) (supervised : Bool) (inbox : Inbox) (withdrawn : Bool) {t t' : CallStage ω σ}
      (stage : CallStage.Twin R A t t') :
      Twin R A ⟨id, supervised, inbox, withdrawn, t⟩ ⟨id, supervised, inbox, withdrawn, t'⟩

/-- What the calls of two connections share, if the worlds are alike. -/
inductive Shared.Twin (R : ω → ω → Prop) : Shared ω → Shared ω → Prop
  | mk (outbox : Outbox) {w w' : ω} {o o' : List (ω → ω)} (world : R w w')
      (orphans : List.Forall₂ (Keeps R) o o') : Twin R ⟨w, outbox, o⟩ ⟨w', outbox, o'⟩

theorem Shared.Twin.world {s s' : Shared ω} (hs : Shared.Twin R s s') : R s.world s'.world := by
  cases hs with
  | mk outbox hw ho => exact hw

namespace Call

/-- A call and what is shared, and its twin. -/
def Twins (R : ω → ω → Prop) (A : σ → σ → Prop) (x x' : Call ω σ × Shared ω) : Prop :=
  Call.Twin R A x.1 x'.1 ∧ Shared.Twin R x.2 x'.2

variable {h : Handler ω σ} {c c' : Call ω σ} {s s' : Shared ω} {w w' : ω} {j j' : Job ω σ}

theorem Twin.conclude (hc : Call.Twin R A c c') (result : Except GatewayError Unit) :
    Call.Twin R A (c.conclude result) (c'.conclude result) := by
  cases hc with
  | mk id supervised =>
      refine .mk _ _ _ _ ?_
      cases supervised
      · exact .reporting
      · exact .ended result

theorem Twin.resume (hh : h.Respects R A) (hc : Call.Twin R A c c') (hs : Shared.Twin R s s')
    (hj : Job.Twin R A j j') (hw : R w w') :
    Twins R A (resume h c s j w) (resume h c' s' j' w') := by
  -- What a job does at once changes the worlds, so they vary along the job.
  induction hj generalizing w w' with
  | @done a a' ha =>
      have hawait := hh.await a a' ha
      cases hs with
      | mk outbox _ horphans =>
          refine ⟨?_, .mk outbox hw horphans⟩
          unfold Call.resume
          generalize h.await a = x at hawait ⊢
          generalize h.await a' = x' at hawait ⊢
          cases hawait with
          | finish result => exact hc.conclude result
          | _ =>
            cases hc with
            | mk => exact .mk _ _ _ _ (.awaiting ha)
  | now he _ ih => exact ih _ _ hw (he _ _ hw)
  | blocking he hr hn =>
      cases hs with
      | mk outbox _ horphans =>
          cases hc with
          | mk => exact ⟨.mk _ _ _ _ (.handed he hr hn), .mk outbox hw horphans⟩

theorem Twin.abandon (hh : h.Respects R A) (hc : Call.Twin R A c c') (hs : Shared.Twin R s s') :
    Twins R A (c.abandon h s) (c'.abandon h s') := by
  have hgone := hc.conclude (.error .cancelled)
  cases hc with
  | mk id supervised inbox withdrawn stage =>
      cases hs with
      | mk outbox hw ho =>
          cases stage with
          | awaiting ha => exact ⟨hgone, .mk outbox (hh.release _ _ ha _ _ hw) ho⟩
          | handed he hr =>
              exact ⟨hgone, .mk outbox (hr _ _ hw) (List.rel_append ho (.cons he .nil))⟩
          | carried hr => exact ⟨hgone, .mk outbox (hr _ _ hw) ho⟩
          | _ => exact ⟨hgone, .mk outbox hw ho⟩

/-- **The thing that both handlers wait for happens**, or happens for neither. -/
theorem Twin.proceed? (hh : h.Respects R A) (hc : Call.Twin R A c c') (hs : Shared.Twin R s s')
    {a a' : σ} (ha : A a a') (withdrawn : Bool) :
    Option.Rel (Twins R A) (c.proceed? h withdrawn s a) (c'.proceed? h withdrawn s' a') := by
  have hawait := hh.await a a' ha
  have hon := hc
  cases hc with
  | mk id supervised inbox withdrawn' stage =>
  cases hs with
  | mk outbox hw ho =>
  have hs := Shared.Twin.mk outbox hw ho
  unfold Call.proceed?
  -- From here on only what the handlers wait for matters, not how they came to it.
  generalize h.await a = x at hawait ⊢
  generalize h.await a' = x' at hawait ⊢
  cases hawait with
  | finish result => exact .some ⟨hon.conclude result, hs⟩
  | receive hn =>
      dsimp only
      cases inbox.take? with
      | none => exact .none
      | some e => exact .some (Twin.resume hh (.mk id supervised e.2 withdrawn' stage) hs (hn e.1) hw)
  | send payload hn =>
      dsimp only
      cases outbox.send? id payload with
      | none => exact .none
      | some e => exact .some (Twin.resume hh hon (.mk e.2 hw ho) (hn e.1) hw)
  | provider answer limit hn =>
      cases answer with
      | none => exact .none
      | some r => exact .some (Twin.resume hh hon hs (hn r) hw)
  | withdrawal hj =>
      dsimp only
      split
      · exact .some (Twin.resume hh hon hs hj hw)
      · exact .none
  | deafness hj =>
      exact .some (Twin.resume hh (.mk id supervised inbox.endReading withdrawn' stage) hs hj hw)

theorem Twin.tell? (hc : Call.Twin R A c c') (hs : Shared.Twin R s s')
    (result : Except GatewayError Unit) :
    Option.Rel (Twins R A) (c.tell? s result) (c'.tell? s' result) := by
  cases hc with
  | mk id supervised inbox withdrawn stage =>
  cases hs with
  | mk outbox hw ho =>
  have htold : Call.Twin R A ⟨id, supervised, inbox, withdrawn, .reporting⟩ _ :=
    .mk id supervised inbox withdrawn .reporting
  unfold Call.tell?
  dsimp only
  split
  · exact .some ⟨htold, .mk outbox hw ho⟩
  · next f _ =>
    cases outbox.put? f with
    | none => exact .none
    | some e =>
        cases e with
        | error e => exact .some ⟨htold, .mk outbox hw ho⟩
        | ok outbox' => exact .some ⟨htold, .mk outbox' hw ho⟩

/-- **Twin calls take the same step**, or none. -/
theorem Twin.poll? (hh : h.Respects R A) (hc : Call.Twin R A c c') (hs : Shared.Twin R s s')
    (allWithdrawn : Bool) :
    Option.Rel (Twins R A) (c.poll? h allWithdrawn s) (c'.poll? h allWithdrawn s') := by
  have hon := hc
  cases hc with
  | mk id supervised inbox withdrawn stage =>
  unfold Call.poll?
  dsimp only
  rw [stage.sameKind.1]
  split
  · exact .some (hon.abandon hh hs)
  · cases stage with
    | starting hj | carried _ hj =>
        exact .some (hon.resume hh hs hj hs.world)
    | refused e => exact .some ⟨hon.conclude (.error e), hs⟩
    | awaiting ha => exact hon.proceed? hh hs ha _
    | ended result => exact hon.tell? hs result
    | _ => exact .none

theorem Twin.carry? (hc : Call.Twin R A c c') (hs : Shared.Twin R s s') :
    Option.Rel (Twins R A) (c.carry? s) (c'.carry? s') := by
  cases hc with
  | mk id supervised inbox withdrawn stage =>
  cases hs with
  | mk outbox hw ho =>
  cases stage with
  | handed he hr hn =>
      exact .some ⟨.mk id supervised inbox withdrawn (.carried hr (hn _ _ hw)),
        .mk outbox (he _ _ hw) ho⟩
  | _ => exact .none

theorem Twin.expire? (hh : h.Respects R A) (hc : Call.Twin R A c c') (hs : Shared.Twin R s s') :
    Option.Rel (Twins R A) (c.expire? h s) (c'.expire? h s') := by
  have hon := hc
  cases hc with
  | mk id supervised inbox withdrawn stage =>
  cases stage with
  | @awaiting a a' ha =>
      have hawait := hh.await a a' ha
      unfold Call.expire?
      dsimp only
      generalize h.await a = x at hawait ⊢
      generalize h.await a' = x' at hawait ⊢
      cases hawait with
      | provider answer limit hn =>
          cases answer with
          | none => exact .some (hon.resume hh hs (hn _) hs.world)
          | some r => exact .none
      | _ => exact .none
  | _ => exact .none

theorem Twin.lapse? (hh : h.Respects R A) (hc : Call.Twin R A c c') (hs : Shared.Twin R s s')
    (allWithdrawn : Bool) :
    Option.Rel (Twins R A) (c.lapse? h allWithdrawn s) (c'.lapse? h allWithdrawn s') := by
  have hstep := hc.expire? hh hs
  cases hc with
  | mk id supervised inbox withdrawn stage =>
  unfold Call.lapse?
  dsimp only
  split
  · exact .none
  · exact hstep

end Call

/-! ## Pools -/

theorem Call.Twin.same {c c' : Call ω σ} (h : Call.Twin R A c c') :
    c'.id = c.id ∧ c'.stage.isGone = c.stage.isGone := by
  cases h with
  | mk id supervised inbox withdrawn stage => exact ⟨rfl, stage.sameKind.2⟩

/-- **Twin pools** hold twin calls, in the same order. -/
inductive Pool.Twin (R : ω → ω → Prop) (A : σ → σ → Prop) : Pool ω σ → Pool ω σ → Prop
  | mk (allWithdrawn : Bool) (events : List UInt64) {cs cs' : List (Call ω σ)}
      (calls : List.Forall₂ (Call.Twin R A) cs cs') :
      Twin R A ⟨cs, allWithdrawn, events⟩ ⟨cs', allWithdrawn, events⟩

namespace Pool

/-- A pool and what its calls share, and its twin. -/
def Twins (R : ω → ω → Prop) (A : σ → σ → Prop) (x x' : Pool ω σ × Shared ω) : Prop :=
  Pool.Twin R A x.1 x'.1 ∧ Shared.Twin R x.2 x'.2

variable {h : Handler ω σ} {p p' : Pool ω σ} {s s' : Shared ω} {c c' : Call ω σ} {id : UInt64}

namespace Twin

theorem calls (hp : Pool.Twin R A p p') : List.Forall₂ (Call.Twin R A) p.calls p'.calls := by
  cases hp with
  | mk allWithdrawn events hcalls => exact hcalls

theorem allWithdrawn (hp : Pool.Twin R A p p') : p'.allWithdrawn = p.allWithdrawn := by
  cases hp
  rfl

theorem call? (hp : Pool.Twin R A p p') (id : UInt64) :
    Option.Rel (Call.Twin R A) (p.call? id) (p'.call? id) := by
  cases hp with
  | mk _ _ hcalls =>
  unfold Pool.call?
  dsimp only
  induction hcalls with
  | nil => exact .none
  | cons hc _ ih =>
      rw [List.find?_cons, List.find?_cons, hc.same.1]
      split
      · exact .some hc
      · exact ih

theorem contains (hp : Pool.Twin R A p p') (id : UInt64) : p'.contains id = p.contains id := by
  have hcall := hp.call? id
  unfold Pool.contains
  generalize p.call? id = x at hcall ⊢
  generalize p'.call? id = x' at hcall ⊢
  cases hcall <;> rfl

/-- A change of the calls. -/
theorem map (hp : Pool.Twin R A p p') {f f' : Call ω σ → Call ω σ}
    (hf : ∀ c c', Call.Twin R A c c' → Call.Twin R A (f c) (f' c')) :
    Pool.Twin R A { p with calls := p.calls.map f } { p' with calls := p'.calls.map f' } := by
  cases hp with
  | mk allWithdrawn events hcalls => exact .mk _ _ (List.rel_map (fun c c' hc => hf c c' hc) hcalls)

theorem replace (hp : Pool.Twin R A p p') (hc : Call.Twin R A c c') :
    Pool.Twin R A (p.replace c) (p'.replace c') := by
  refine hp.map fun d d' hd => ?_
  rw [hd.same.1, hc.same.1]
  split
  · exact hc
  · exact hd

theorem modify (hp : Pool.Twin R A p p') (id : UInt64) {f : Call ω σ → Call ω σ}
    (hf : ∀ c c', Call.Twin R A c c' → Call.Twin R A (f c) (f c')) :
    Pool.Twin R A (p.modify id f) (p'.modify id f) := by
  refine hp.map fun d d' hd => ?_
  rw [hd.same.1]
  split
  · exact hf d d' hd
  · exact hd

theorem halfClose (hp : Pool.Twin R A p p') (id : UInt64) :
    Pool.Twin R A (p.halfClose id) (p'.halfClose id) := by
  refine hp.modify id fun c c' hc => ?_
  cases hc with
  | mk _ _ _ _ stage => exact .mk _ _ _ _ stage

theorem cancel (hp : Pool.Twin R A p p') (id : UInt64) :
    Pool.Twin R A (p.cancel id) (p'.cancel id) := by
  refine hp.modify id fun c c' hc => ?_
  cases hc with
  | mk _ _ _ _ stage => exact .mk _ _ _ _ stage

theorem cancelParent (hp : Pool.Twin R A p p') :
    Pool.Twin R A p.cancelParent p'.cancelParent := by
  cases hp with
  | mk _ _ hcalls => exact .mk _ _ hcalls

theorem tear (hp : Pool.Twin R A p p') (step : TeardownStep) :
    Pool.Twin R A (p.tear step) (p'.tear step) := by
  cases step with
  | endMessages id => exact hp.halfClose id
  | withdraw id => exact hp.cancel id

theorem teardown (hp : Pool.Twin R A p p') : p'.teardown = p.teardown := by
  cases hp with
  | mk _ _ hcalls =>
  unfold Pool.teardown
  dsimp only
  induction hcalls with
  | nil => rfl
  | cons hc _ ih => rw [List.flatMap_cons, List.flatMap_cons, hc.same.1, ih]

theorem allGone (hp : Pool.Twin R A p p') :
    p'.calls.all (·.stage.isGone) = p.calls.all (·.stage.isGone) := by
  cases hp with
  | mk _ _ hcalls =>
  dsimp only
  induction hcalls with
  | nil => rfl
  | cons hc _ ih => rw [List.all_cons, List.all_cons, hc.same.2, ih]

/-- **Accepting a call** with the same number. -/
theorem spawn (hp : Pool.Twin R A p p') (id : UInt64) (supervised : Bool) {t t' : CallStage ω σ}
    (ht : CallStage.Twin R A t t') :
    (∃ e, p.spawn id supervised t = .error e ∧ p'.spawn id supervised t' = .error e) ∨
      ∃ q q', p.spawn id supervised t = .ok q ∧ p'.spawn id supervised t' = .ok q' ∧
        Pool.Twin R A q q' := by
  unfold Pool.spawn
  rw [hp.contains]
  split
  · exact .inl ⟨_, rfl, rfl⟩
  · refine .inr ⟨_, _, rfl, rfl, ?_⟩
    cases hp with
    | mk _ _ hcalls =>
        exact .mk _ _ (List.rel_append hcalls (.cons (.mk id supervised .empty false ht) .nil))

theorem feed? (hp : Pool.Twin R A p p') (id : UInt64) (m : Bytes) :
    Option.Rel (Pool.Twin R A) (p.feed? id m) (p'.feed? id m) := by
  have hcall := hp.call? id
  unfold Pool.feed?
  generalize p.call? id = x at hcall ⊢
  generalize p'.call? id = x' at hcall ⊢
  cases hcall with
  | none => exact .some hp
  | some hc =>
      cases hc with
      | mk i supervised inbox withdrawn stage =>
          dsimp only
          cases inbox.put? m with
          | none => exact .none
          | some inbox' => exact .some (hp.replace (.mk i supervised inbox' withdrawn stage))

theorem notice? (hp : Pool.Twin R A p p') :
    Option.Rel (fun x x' => x.1 = x'.1 ∧ Pool.Twin R A x.2 x'.2) p.notice? p'.notice? := by
  cases hp with
  | mk allWithdrawn events hcalls =>
  cases events with
  | nil => exact .none
  | cons id rest =>
      refine .some ⟨rfl, .mk allWithdrawn rest ?_⟩
      refine List.rel_filter (fun c c' hc => ?_) hcalls
      show (c.id != id) = true ↔ (c'.id != id) = true
      rw [hc.same.1]

/-! ### Steps of the calls -/

theorem act? (hp : Pool.Twin R A p p') (id : UInt64)
    {step step' : Call ω σ → Shared ω → Option (Call ω σ × Shared ω)}
    (hstep : ∀ c c', Call.Twin R A c c' → Option.Rel (Call.Twins R A) (step c s) (step' c' s')) :
    Option.Rel (Twins R A) (p.act? s id step) (p'.act? s' id step') := by
  have hcall := hp.call? id
  unfold Pool.act?
  generalize p.call? id = x at hcall ⊢
  generalize p'.call? id = x' at hcall ⊢
  cases hcall with
  | none => exact .none
  | @some c c' hc =>
      have hone := hstep c c' hc
      dsimp only
      generalize step c s = y at hone ⊢
      generalize step' c' s' = y' at hone ⊢
      cases hone with
      | none => exact .none
      | some hone => exact .some ⟨hp.replace hone.1, hone.2⟩

theorem report? (hp : Pool.Twin R A p p') (id : UInt64) :
    Option.Rel (Pool.Twin R A) (p.report? id) (p'.report? id) := by
  have hcall := hp.call? id
  have hon := hp
  cases hp with
  | mk allWithdrawn events hcalls =>
  unfold Pool.report?
  generalize Pool.call? _ id = x at hcall ⊢
  generalize Pool.call? _ id = x' at hcall ⊢
  cases hcall with
  | none => exact .none
  | some hc =>
      cases hc with
      | mk i supervised inbox withdrawn stage =>
          cases stage with
          | reporting =>
              dsimp only
              split
              · exact .some (.mk _ _ (hon.replace (.mk i supervised inbox withdrawn .gone)).calls)
              · exact .none
          | _ => exact .none

/-- **Twin pools take the same step**, or none. -/
theorem step? (hh : h.Respects R A) (hp : Pool.Twin R A p p') (hs : Shared.Twin R s s')
    (m : Move) : Option.Rel (Twins R A) (p.step? h s m) (p'.step? h s' m) := by
  cases m with
  | poll id =>
      refine hp.act? id fun c c' hc => ?_
      rw [hp.allWithdrawn]
      exact hc.poll? hh hs _
  | carry id => exact hp.act? id fun c c' hc => hc.carry? hs
  | expire id =>
      refine hp.act? id fun c c' hc => ?_
      rw [hp.allWithdrawn]
      exact hc.lapse? hh hs _
  | report id =>
      have hreport := hp.report? id
      unfold Pool.step?
      dsimp only
      generalize p.report? id = x at hreport ⊢
      generalize p'.report? id = x' at hreport ⊢
      cases hreport with
      | none => exact .none
      | some hq => exact .some ⟨hq, hs⟩
  | orphan =>
      cases hs with
      | mk outbox hw ho =>
          cases ho with
          | nil => exact .none
          | cons he ho => exact .some ⟨hp, .mk outbox (he _ _ hw) ho⟩

end Twin

end Pool

end DeviceGateway
