import DeviceGateway.Install.Memory
import DeviceGateway.Proofs.Upload.Saving

/-!
# Rival uploads

Any number of sessions save their uploads on one disk, and their operations come in any order. A
session that is let go takes away what stands under the path that it opened, whoever has put it
there. So a finished upload keeps its file if and only if no session gives up that place
(`file_after_finish`). The data itself is never in danger: an open file is written by its
number, and every session has a number of its own (`Receives`).
-/

namespace DeviceGateway.Upload

variable {ι τ : Type}

namespace Session

/-- The path that a session has opened. -/
def path? (s : Session τ) : Option String :=
  match s.sink with
  | some (.file path _ _) => some path
  | _ => none

/-- The number of the file that a session has opened. -/
def number? (s : Session τ) : Option Nat :=
  match s.sink with
  | some (.file _ number _) => some number
  | _ => none

end Session

/-- **Sessions on one disk**, each known by a key. -/
structure Rivals (ι τ : Type) where
  world : Workspace ι
  sessions : Nat → Option (Session τ)

/-- **What can happen to a session.** -/
inductive Operation where
  | begin (key : Nat)
  | accept (key : Nat) (chunk : UploadChunk)
  /-- The session fails of itself, as it does when the system refuses to write. -/
  | fail (key : Nat) (e : GatewayError)
  | finish (key : Nat)
  /-- The session is let go. -/
  | drop (key : Nat)
  deriving DecidableEq, Repr

namespace Operation

def key : Operation → Nat
  | begin k | accept k _ | fail k _ | finish k | drop k => k

/-- Whether the session gives up what it has opened. -/
def discards : Operation → Bool
  | fail _ _ | drop _ => true
  | begin _ | accept _ _ | finish _ => false

/-- Whether the session takes no more chunks. -/
def ends : Operation → Bool
  | fail _ _ | drop _ | finish _ => true
  | begin _ | accept _ _ => false

/-- What becomes of a session, and of the world. -/
def act (i : Installer ι τ) (s : Session τ) (w : Workspace ι) :
    Operation → Option (Session τ) × Workspace ι
  | begin _ => (some s, w)
  | accept _ c => let done := (s.accept i c).run w; (some done.1.2, done.2)
  | fail _ e => let done := (s.fail i e).run w; (some done.1.2, done.2)
  | finish _ => (none, ((s.finish i).run w).2)
  | drop _ => (none, s.release i w)

/-- The data that an operation brings to a session. -/
def dataFor (k : Nat) : Operation → Bytes
  | accept j c => if j = k then c.data else []
  | _ => []

/-- Whether an operation brings a chunk to a session. -/
def isChunkFor (k : Nat) : Operation → Bool
  | accept j _ => j == k
  | _ => false

end Operation

/-- The data that operations bring to a session. -/
def dataFor (k : Nat) (ops : List Operation) : Bytes := ops.flatMap (·.dataFor k)

/-- How many chunks operations bring to a session. -/
def chunksFor (k : Nat) (ops : List Operation) : Nat := ops.countP (·.isChunkFor k)

namespace Rivals

/-- No session yet. -/
def start (w : Workspace ι) : Rivals ι τ := ⟨w, fun _ => none⟩

def disk (r : Rivals ι τ) : Disk := r.world.disk

/-- One session is replaced, and the world. -/
def update (r : Rivals ι τ) (k : Nat) (s : Option (Session τ)) (w : Workspace ι) : Rivals ι τ :=
  ⟨w, fun j => if j = k then s else r.sessions j⟩

/-- **One operation.** A key without a session takes nothing but a new session. -/
def step (i : Installer ι τ) (r : Rivals ι τ) (op : Operation) : Rivals ι τ :=
  match r.sessions op.key, op with
  | none, .begin k => r.update k (some (.new .save)) r.world
  | none, _ => r
  | some s, op => r.update op.key (op.act i s r.world).1 (op.act i s r.world).2

def run (i : Installer ι τ) (r : Rivals ι τ) (ops : List Operation) : Rivals ι τ :=
  ops.foldl (step i) r

/-- What a session answers if it is finished now. -/
def finish? (i : Installer ι τ) (r : Rivals ι τ) (k : Nat) :
    Option (Except GatewayError Outcome) :=
  (r.sessions k).map fun s => ((s.finish i).run r.world).1

/-- The place that a session has opened. -/
def place? (r : Rivals ι τ) (k : Nat) : Option Place :=
  ((r.sessions k).bind Session.path?).bind r.disk.filePlace?

def number? (r : Rivals ι τ) (k : Nat) : Option Nat := (r.sessions k).bind Session.number?

/-- An operation by which a session opens a place. -/
def Opens (i : Installer ι τ) (place : Place) (r : Rivals ι τ) (op : Operation) : Prop :=
  r.place? op.key ≠ some place ∧ (r.step i op).place? op.key = some place

/-- An operation by which a session gives up a place. -/
def GivesUp (place : Place) (r : Rivals ι τ) (op : Operation) : Prop :=
  op.discards = true ∧ r.place? op.key = some place

/-- **No operation of a run is of some kind.** -/
def Free (i : Installer ι τ) (bad : Rivals ι τ → Operation → Prop) :
    Rivals ι τ → List Operation → Prop
  | _, [] => True
  | r, op :: ops => ¬ bad r op ∧ Free i bad (r.step i op) ops

instance decidableOpens (i : Installer ι τ) (place : Place) (r : Rivals ι τ) (op : Operation) :
    Decidable (Opens i place r op) := inferInstanceAs (Decidable (_ ∧ _))

instance decidableGivesUp (place : Place) (r : Rivals ι τ) (op : Operation) :
    Decidable (GivesUp place r op) := inferInstanceAs (Decidable (_ ∧ _))

instance decidableFree (i : Installer ι τ) (bad : Rivals ι τ → Operation → Prop)
    [∀ r op, Decidable (bad r op)] : ∀ r ops, Decidable (Free i bad r ops)
  | _, [] => .isTrue trivial
  | r, op :: ops =>
    have := decidableFree i bad (r.step i op) ops
    inferInstanceAs (Decidable (_ ∧ _))

variable {i : Installer ι τ} {r r' : Rivals ι τ} {op : Operation} {ops : List Operation}
  {k n : Nat} {place : Place}

theorem step_of_session (op : Operation) {s : Session τ} (hs : r.sessions op.key = some s) :
    r.step i op = r.update op.key (op.act i s r.world).1 (op.act i s r.world).2 := by
  simp only [step, hs]

theorem run_append (r : Rivals ι τ) (ops ops' : List Operation) :
    r.run i (ops ++ ops') = (r.run i ops).run i ops' := List.foldl_append

@[simp] theorem disk_update (s : Option (Session τ)) (w : Workspace ι) :
    (r.update k s w).disk = w.disk := rfl

@[simp] theorem sessions_update_self (s : Option (Session τ)) (w : Workspace ι) :
    (r.update k s w).sessions k = s := if_pos rfl

theorem sessions_update_of_ne (s : Option (Session τ)) (w : Workspace ι) {j : Nat} (hj : j ≠ k) :
    (r.update k s w).sessions j = r.sessions j := if_neg hj

@[simp] theorem place?_update_self (s : Option (Session τ)) (w : Workspace ι) :
    (r.update k s w).place? k = (s.bind Session.path?).bind w.disk.filePlace? := by
  rw [place?, sessions_update_self, disk_update]

@[simp] theorem number?_update_self (s : Option (Session τ)) (w : Workspace ι) :
    (r.update k s w).number? k = s.bind Session.number? := by
  rw [number?, sessions_update_self]

theorem place?_of_sessions {s : Option (Session τ)} (hs : r.sessions k = s) :
    r.place? k = (s.bind Session.path?).bind r.disk.filePlace? := by
  rw [place?, hs]

theorem number?_of_sessions {s : Option (Session τ)} (hs : r.sessions k = s) :
    r.number? k = s.bind Session.number? := by
  rw [number?, hs]

/-! ## One operation -/

/-- **What keeps the sessions apart**: all of them save, and their files are on the disk. -/
structure Orderly (r : Rivals ι τ) : Prop where
  rooted : r.disk.Rooted
  saves : ∀ k s, r.sessions k = some s → s.Saves
  made : ∀ k n, r.number? k = some n → n < r.disk.bodies.length

/-- No session, or one that has nothing open. -/
def HasNothing (s : Option (Session τ)) : Prop := ∀ t, s = some t → t.Saves ∧ t.sink = none

theorem HasNothing.none : HasNothing (none : Option (Session τ)) := nofun

theorem HasNothing.some {s : Session τ} (hs : s.Saves) (hn : s.sink = .none) :
    HasNothing (some s) := by
  rintro t ⟨⟩
  exact ⟨hs, hn⟩

theorem HasNothing.path? {s : Option (Session τ)} (h : HasNothing s) :
    s.bind Session.path? = .none := by
  cases s with
  | none => rfl
  | some t => rw [Option.bind_some, Session.path?, (h t rfl).2]

theorem HasNothing.number? {s : Option (Session τ)} (h : HasNothing s) :
    s.bind Session.number? = .none := by
  cases s with
  | none => rfl
  | some t => rw [Option.bind_some, Session.number?, (h t rfl).2]

/-- **What one operation does.** -/
inductive Effect (r : Rivals ι τ) : Operation → Rivals ι τ → Prop where
  /-- The session opens nothing, writes nothing and gives up nothing. -/
  | quiet (op : Operation) {s : Option (Session τ)}
      (hs : s = r.sessions op.key ∨ HasNothing s)
      (hd : op.discards = true → r.place? op.key = none) :
      Effect r op (r.update op.key s r.world)
  | opened {k : Nat} {c : UploadChunk} {path : String} {place : Place}
      (hs : r.sessions k = some (.new .save)) (hc : c.path = some path)
      (hp : r.disk.filePlace? path = some place)
      (hn : ∀ m, r.disk.node? place ≠ some (.directory m)) :
      Effect r (.accept k c)
        (r.update k (some (.saving path r.disk.bodies.length c.data.length 1))
          { r.world with
            disk := writeSome (r.disk.makeFile place).2 r.disk.bodies.length 0 c.data })
  | wrote {k : Nat} {c : UploadChunk} {path : String} {number written chunks : Nat}
      (hs : r.sessions k = some (.saving path number written chunks)) :
      Effect r (.accept k c)
        (r.update k (some (.saving path number (written + c.data.length) (chunks + 1)))
          { r.world with disk := writeSome r.disk number written c.data })
  | gaveUp (op : Operation) {s : Option (Session τ)} {path : String} {number written chunks : Nat}
      (hd : op.discards = true) (hs : r.sessions op.key = some (.saving path number written chunks))
      (hs' : HasNothing s) :
      Effect r op (r.update op.key s (r.world.discard path))

theorem update_self (r : Rivals ι τ) (k : Nat) : r.update k (r.sessions k) r.world = r := by
  unfold update
  congr
  funext j
  split
  · next h => rw [h]
  · rfl

/-- **Every operation has one of these effects.** -/
theorem effect_of_step (ho : r.Orderly) (op : Operation) : Effect r op (r.step i op) := by
  unfold step
  cases hs : r.sessions op.key with
  | none =>
      -- Without a session, only its beginning changes anything.
      have hsame : Effect r op (r.update op.key (r.sessions op.key) r.world) :=
        .quiet _ (.inl rfl) fun _ => by simp only [place?, hs, Option.bind_none]
      rw [update_self] at hsame
      cases op with
      | begin k =>
          exact .quiet (.begin k) (.inr (.some .idle rfl)) nofun
      | accept _ _ | fail _ _ | finish _ | drop _ => exact hsame
  | some s =>
      have hsaves := ho.saves _ _ hs
      have hnone (hn : HasNothing (some s)) : r.place? op.key = none := by
        rw [place?_of_sessions hs, hn.path?, Option.bind_none]
      cases op with
      | begin k => exact .quiet (.begin k) (.inl hs.symm) nofun
      | accept k c =>
          cases hsaves with
          | idle =>
              rcases run_accept_idle i r.world ho.rooted c with
                ⟨e, he⟩ | ⟨path, place, hc, hp, hn, hrun⟩
              · simp only [Operation.act, he]
                exact .quiet (.accept k c) (.inr (.some (.failed _ _ _ _) rfl)) nofun
              · simp only [Operation.act, hrun]
                exact .opened hs hc hp hn
          | saving path number written chunks =>
              simp only [Operation.act, run_accept_saving]
              exact .wrote hs
          | failed destination message written chunks =>
              exact .quiet (.accept k c) (.inl hs.symm) nofun
      | fail k e =>
          cases hsaves with
          | idle =>
              exact .quiet (.fail k e) (.inr (.some (.failed _ _ _ _) rfl))
                fun _ => hnone (.some .idle rfl)
          | saving path number written chunks =>
              exact .gaveUp (.fail k e) rfl hs (.some (.failed _ _ _ _) rfl)
          | failed destination message written chunks =>
              exact .quiet (.fail k e) (.inr (.some (.failed _ _ _ _) rfl))
                fun _ => hnone (.some (.failed _ _ _ _) rfl)
      | finish k =>
          have hw : ((s.finish i).run r.world).2 = r.world := by
            cases hsaves <;> rfl
          simp only [Operation.act, hw]
          exact .quiet (.finish k) (.inr .none) nofun
      | drop k =>
          cases hsaves with
          | idle => exact .quiet (.drop k) (.inr .none) fun _ => hnone (.some .idle rfl)
          | saving path number written chunks =>
              exact .gaveUp (.drop k) rfl hs .none
          | failed destination message written chunks =>
              exact .quiet (.drop k) (.inr .none)
                fun _ => hnone (.some (.failed _ _ _ _) rfl)

namespace Effect

theorem sessions_of_ne (h : Effect r op r') {j : Nat} (hj : j ≠ op.key) :
    r'.sessions j = r.sessions j := by
  cases h with
  | quiet => exact sessions_update_of_ne _ _ hj
  | opened => exact sessions_update_of_ne _ _ hj
  | wrote => exact sessions_update_of_ne _ _ hj
  | gaveUp => exact sessions_update_of_ne _ _ hj

theorem sameDirectories (h : Effect r op r') : r.disk.SameDirectories r'.disk := by
  cases h with
  | quiet => exact .refl _
  | opened hs hc hp hn =>
      exact (Disk.sameDirectories_makeFile hn).trans (sameDirectories_writeSome _ _ _ _)
  | wrote => exact sameDirectories_writeSome _ _ _ _
  | @gaveUp _ s path number written chunks hd hs hs' =>
      show r.disk.SameDirectories (r.disk.discard path)
      rcases Disk.discard_eq r.disk path with ⟨place, n, hp, hn, he⟩ | ⟨-, he⟩
      · rw [he]
        refine Disk.sameDirectories_erase fun m => ?_
        rw [hn]
        exact nofun
      · rw [he]
        exact .refl _

theorem number?_of_ne (h : Effect r op r') {j : Nat} (hj : j ≠ op.key) :
    r'.number? j = r.number? j := by
  unfold number?
  rw [h.sessions_of_ne hj]

/-- **A session keeps its number**, or lets it go, or has one that nobody had before. -/
theorem number?_cases (h : Effect r op r') :
    r'.number? op.key = r.number? op.key ∨ r'.number? op.key = none ∨
      r'.number? op.key = some r.disk.bodies.length ∧
        r.disk.bodies.length < r'.disk.bodies.length := by
  cases h with
  | quiet _ hs hd =>
      rcases hs with rfl | hs
      · exact .inl (by rw [update_self])
      · exact .inr (.inl (by rw [number?_update_self, hs.number?]))
  | opened hs hc hp hn =>
      refine .inr (.inr ⟨number?_update_self _ _, ?_⟩)
      rw [disk_update, length_writeSome, Disk.length_makeFile]
      exact Nat.lt_succ_self _
  | wrote hs =>
      refine .inl ?_
      rw [Operation.key, number?_update_self, number?_of_sessions hs]
      rfl
  | gaveUp _ hd hs hs' => exact .inr (.inl (by rw [number?_update_self, hs'.number?]))

theorem length_le (h : Effect r op r') : r.disk.bodies.length ≤ r'.disk.bodies.length := by
  cases h with
  | quiet => exact Nat.le_refl _
  | opened =>
      rw [disk_update, length_writeSome, Disk.length_makeFile]
      exact Nat.le_succ _
  | wrote => exact Nat.le_of_eq (length_writeSome _ _ _ _).symm
  | gaveUp => exact Nat.le_of_eq (congrArg List.length (Disk.bodies_discard r.disk _)).symm

/-- **A file is written by the session that made it**, and by no other. -/
theorem body_of_ne (ho : r.Orderly) (h : Effect r op r') (hn : n < r.disk.bodies.length)
    (hk : r.number? op.key ≠ some n) : r'.disk.body n = r.disk.body n := by
  cases h with
  | quiet => rfl
  | @opened k c path place hs hc hp hdir =>
      have hnew : r.disk.bodies.length < (r.disk.makeFile place).2.bodies.length := by
        rw [Disk.length_makeFile]
        exact Nat.lt_succ_self _
      rw [disk_update, body_writeSome_of_ne _ _ hnew (Nat.ne_of_lt hn), Disk.body_makeFile_of_lt _ hn]
  | @wrote k c path number written chunks hs =>
      have hnumber : r.number? k = some number := number?_of_sessions hs
      have hne : n ≠ number := by
        rintro rfl
        exact hk hnumber
      rw [disk_update, body_writeSome_of_ne _ _ (ho.made k number hnumber) hne]
  | @gaveUp _ s path number written chunks hd hs hs' =>
      show (r.disk.discard path).body n = _
      rw [Disk.body, Disk.bodies_discard, Disk.body]

theorem rooted (ho : r.Orderly) (h : Effect r op r') : r'.disk.Rooted := by
  cases h with
  | quiet => exact ho.rooted
  | opened hs hc hp hn =>
      intro p x node hx
      simp only [disk_update, node?_writeSome] at hx ⊢
      exact ho.rooted.makeFile hp hn p x node hx
  | wrote =>
      intro p x node hx
      simp only [disk_update, node?_writeSome] at hx ⊢
      exact ho.rooted p x node hx
  | @gaveUp _ s path number written chunks hd hs hs' =>
      show (r.disk.discard path).Rooted
      rcases Disk.discard_eq r.disk path with ⟨place, n, hp, hn, he⟩ | ⟨-, he⟩
      · rw [he]
        refine ho.rooted.erase fun m => ?_
        rw [hn]
        exact nofun
      · rw [he]
        exact ho.rooted

theorem saves (ho : r.Orderly) (h : Effect r op r') {s : Session τ}
    (hs : r'.sessions op.key = some s) : s.Saves := by
  cases h with
  | quiet _ hq hd =>
      rcases hq with rfl | hq
      · rw [update_self] at hs
        exact ho.saves _ _ hs
      · rw [sessions_update_self] at hs
        exact (hq s hs).1
  | opened =>
      rw [Operation.key, sessions_update_self] at hs
      cases hs
      exact .saving _ _ _ _
  | wrote =>
      rw [Operation.key, sessions_update_self] at hs
      cases hs
      exact .saving _ _ _ _
  | gaveUp _ hd hs' hn =>
      rw [sessions_update_self] at hs
      exact (hn s hs).1

/-! What happens at one place -/

/-- Nothing changes at a place that no session opens and none gives up. -/
theorem node?_of_spared (h : Effect r op r')
    (ho : ¬ (r.place? op.key ≠ some place ∧ r'.place? op.key = some place))
    (hg : ¬ GivesUp place r op) : r'.disk.node? place = r.disk.node? place := by
  cases h with
  | quiet => rfl
  | @opened k c path opened hs hc hp hn =>
      have hne : place ≠ opened := by
        rintro rfl
        refine ho ⟨?_, ?_⟩
        · rw [Operation.key, place?_of_sessions hs]
          exact nofun
        · rw [Operation.key, place?_update_self]
          exact (Disk.filePlace?_of_same ((Disk.sameDirectories_makeFile hn).trans
            (sameDirectories_writeSome _ _ _ _)) _).trans hp
      rw [disk_update, node?_writeSome, Disk.node?_makeFile, if_neg fun hq => hne hq.1]
  | wrote => rw [disk_update, node?_writeSome]
  | @gaveUp _ s path number written chunks hd hs hs' =>
      show (r.disk.discard path).node? place = _
      rcases Disk.discard_eq r.disk path with ⟨q, n, hp, hn, he⟩ | ⟨-, he⟩
      · have hne : place ≠ q := by
          rintro rfl
          exact hg ⟨hd, (place?_of_sessions hs).trans hp⟩
        rw [he, Disk.node?_erase, if_neg fun hq => hne hq.1]
      · rw [he]

/-- **A session that gives up a place takes away the file that stands there**, whose file it may
be. -/
theorem node?_of_givesUp (h : Effect r op r') (hg : GivesUp place r op)
    (hf : r.disk.node? place = some (.file n)) : r'.disk.node? place = none := by
  cases h with
  | quiet _ hs hd => exact absurd hg.2 (by rw [hd hg.1]; exact nofun)
  | opened => exact absurd hg.1 nofun
  | wrote => exact absurd hg.1 nofun
  | @gaveUp _ s path number written chunks hd hs hs' =>
      show (r.disk.discard path).node? place = _
      have hp : r.disk.filePlace? path = some place := (place?_of_sessions hs).symm.trans hg.2
      rcases Disk.discard_eq r.disk path with ⟨q, n', hq, hn, he⟩ | ⟨hno, -⟩
      · cases hp.symm.trans hq
        rw [he, Disk.node?_erase, if_pos ⟨rfl, Disk.ne_root_of_filePlace? hp⟩]
      · exact absurd hf (hno place n hp)

/-- Where there is nothing, there is nothing until the place is opened. -/
theorem node?_of_nothing (h : Effect r op r')
    (ho : ¬ (r.place? op.key ≠ some place ∧ r'.place? op.key = some place))
    (hn : r.disk.node? place = none) : r'.disk.node? place = none := by
  by_cases hg : GivesUp place r op
  · cases h with
    | quiet => exact hn
    | opened => exact absurd hg.1 nofun
    | wrote => exact absurd hg.1 nofun
    | @gaveUp _ s path number written chunks hd hs hs' =>
        show (r.disk.discard path).node? place = _
        rcases Disk.discard_eq r.disk path with ⟨q, n', hq, hf, he⟩ | ⟨-, he⟩
        · rw [he, Disk.node?_erase]
          split
          · rfl
          · exact hn
        · rw [he, hn]
  · rw [h.node?_of_spared ho hg, hn]

end Effect

/-! ## Runs -/

/-- **Every operation keeps the sessions apart.** -/
theorem Orderly.step (ho : r.Orderly) (op : Operation) : (r.step i op).Orderly := by
  have h := effect_of_step (i := i) ho op
  refine ⟨h.rooted ho, fun k s hs => ?_, fun k n hn => ?_⟩
  · by_cases hk : k = op.key
    · subst hk
      exact h.saves ho hs
    · rw [h.sessions_of_ne hk] at hs
      exact ho.saves k s hs
  · by_cases hk : k = op.key
    · subst hk
      rcases h.number?_cases with he | he | ⟨he, hlt⟩
      · exact Nat.lt_of_lt_of_le (ho.made _ n (he.symm.trans hn)) h.length_le
      · cases he.symm.trans hn
      · cases he.symm.trans hn
        exact hlt
    · rw [h.number?_of_ne hk] at hn
      exact Nat.lt_of_lt_of_le (ho.made k n hn) h.length_le

theorem Orderly.run (ho : r.Orderly) (ops : List Operation) : (r.run i ops).Orderly := by
  induction ops generalizing r with
  | nil => exact ho
  | cons op ops ih => exact ih (ho.step op)

theorem orderly_start {w : Workspace ι} (hr : w.disk.Rooted) :
    (start w : Rivals ι τ).Orderly := ⟨hr, nofun, nofun⟩

theorem node?_run_of_nothing (ho : r.Orderly) (hopen : Free i (Opens i place) r ops)
    (hn : r.disk.node? place = none) : (r.run i ops).disk.node? place = none := by
  induction ops generalizing r with
  | nil => exact hn
  | cons op ops ih =>
      exact ih (ho.step op) hopen.2 ((effect_of_step ho op).node?_of_nothing hopen.1 hn)

theorem sameDirectories_run (ho : r.Orderly) : r.disk.SameDirectories (r.run i ops).disk := by
  induction ops generalizing r with
  | nil => exact .refl _
  | cons op ops ih => exact (effect_of_step ho op).sameDirectories.trans (ih (ho.step op))

/-- **What stands at a place that nobody opens**: the file that was there, if no session gives the
place up. -/
theorem node?_run (ho : r.Orderly) (hopen : Free i (Opens i place) r ops)
    (hf : r.disk.node? place = some (.file n)) :
    (Free i (GivesUp place) r ops → (r.run i ops).disk.node? place = some (.file n)) ∧
    (¬ Free i (GivesUp place) r ops → (r.run i ops).disk.node? place = none) := by
  induction ops generalizing r with
  | nil => exact ⟨fun _ => hf, fun h => absurd trivial h⟩
  | cons op ops ih =>
      have h := effect_of_step (i := i) ho op
      by_cases hg : GivesUp place r op
      · have hnone := h.node?_of_givesUp hg hf
        have hrest := node?_run_of_nothing (ho.step op) hopen.2 hnone
        exact ⟨fun hfree => absurd hg hfree.1, fun _ => hrest⟩
      · have hf' := (h.node?_of_spared hopen.1 hg).trans hf
        obtain ⟨hkept, hlost⟩ := ih (ho.step op) hopen.2 hf'
        exact ⟨fun hfree => hkept hfree.2, fun hfree => hlost fun hrest => hfree ⟨hg, hrest⟩⟩

/-! ## One upload among others -/

/-- **A session in the middle of a file** that nobody else writes to, with the data that it has got
and how many chunks that were. -/
structure Receives (r : Rivals ι τ) (k : Nat) (path : String) (n : Nat) (data : Bytes)
    (chunks : Nat) : Prop where
  session : r.sessions k = some (.saving path n data.length chunks)
  made : n < r.disk.bodies.length
  data : (r.disk.body n).data = data
  alone : ∀ j, j ≠ k → r.number? j ≠ some n

/-- **A file that nobody writes to any more.** -/
structure Settled (r : Rivals ι τ) (n : Nat) (data : Bytes) : Prop where
  made : n < r.disk.bodies.length
  data : (r.disk.body n).data = data
  alone : ∀ j, r.number? j ≠ some n

/-- A number that is taken is not given to another session. -/
theorem Effect.number?_ne (h : Effect r op r') (hn : n < r.disk.bodies.length) {j : Nat}
    (hj : r.number? j ≠ some n) : r'.number? j ≠ some n := by
  by_cases hk : j = op.key
  · subst hk
    rcases h.number?_cases with he | he | ⟨he, -⟩ <;> rw [he]
    · exact hj
    · exact nofun
    · rintro ⟨⟩
      exact Nat.lt_irrefl _ hn
  · rwa [h.number?_of_ne hk]

theorem Settled.run {data : Bytes} (ho : r.Orderly) (hs : r.Settled n data) :
    (r.run i ops).Settled n data := by
  induction ops generalizing r with
  | nil => exact hs
  | cons op ops ih =>
      have h := effect_of_step (i := i) ho op
      refine ih (ho.step op) ⟨Nat.lt_of_lt_of_le hs.made h.length_le, ?_, ?_⟩
      · rw [h.body_of_ne ho hs.made (hs.alone _), hs.data]
      · exact fun j => h.number?_ne hs.made (hs.alone j)

namespace Receives

variable {path : String} {data : Bytes} {chunks : Nat}

/-- Another session's operation changes nothing for the upload. -/
theorem step_of_ne (ho : r.Orderly) (hr : r.Receives k path n data chunks) (hk : op.key ≠ k) :
    (r.step i op).Receives k path n data chunks := by
  have h := effect_of_step (i := i) ho op
  refine ⟨?_, Nat.lt_of_lt_of_le hr.made h.length_le, ?_, fun j hj => ?_⟩
  · rw [h.sessions_of_ne (Ne.symm hk), hr.session]
  · rw [h.body_of_ne ho hr.made (hr.alone _ hk), hr.data]
  · exact h.number?_ne hr.made (hr.alone j hj)

theorem step_accept (hr : r.Receives k path n data chunks) (c : UploadChunk) :
    (r.step i (.accept k c)).Receives k path n (data ++ c.data) (chunks + 1) := by
  have hstep : r.step i (.accept k c) = r.update k
      (some (.saving path n (data.length + c.data.length) (chunks + 1)))
      { r.world with disk := writeSome r.disk n data.length c.data } := by
    rw [step_of_session (.accept k c) hr.session]
    simp only [Operation.act, run_accept_saving]
    rfl
  rw [hstep]
  refine ⟨?_, ?_, ?_, fun j hj => ?_⟩
  · rw [sessions_update_self, List.length_append]
  · rw [disk_update, length_writeSome]
    exact hr.made
  · rw [disk_update, data_writeSome _ _ hr.made (congrArg List.length hr.data), hr.data]
  · rw [number?, sessions_update_of_ne _ _ hj]
    exact hr.alone j hj

/-- **Until it ends, the session gets all the data that is brought to it**, whatever the others do. -/
theorem run (ho : r.Orderly) (hr : r.Receives k path n data chunks)
    (he : ∀ op ∈ ops, op.key = k → op.ends = false) :
    (r.run i ops).Receives k path n (data ++ dataFor k ops) (chunks + chunksFor k ops) := by
  induction ops generalizing r data chunks with
  | nil =>
      rw [dataFor, List.flatMap_nil, List.append_nil]
      exact hr
  | cons op ops ih =>
      have hrest : ∀ op ∈ ops, op.key = k → op.ends = false :=
        fun op hop => he op (List.mem_cons_of_mem _ hop)
      have hcons : dataFor k (op :: ops) = op.dataFor k ++ dataFor k ops := List.flatMap_cons
      have hcount : chunksFor k (op :: ops) = (if op.isChunkFor k then 1 else 0) + chunksFor k ops := by
        rw [chunksFor, List.countP_cons, Nat.add_comm]
        rfl
      rw [hcons, ← List.append_assoc, hcount, ← Nat.add_assoc]
      refine ih (ho.step op) ?_ hrest
      by_cases hk : op.key = k
      · cases op with
        | accept j c =>
            obtain rfl : j = k := hk
            simpa only [Operation.dataFor, Operation.isChunkFor, beq_self_eq_true, if_true] using
              hr.step_accept c
        | begin j =>
            obtain rfl : j = k := hk
            have hsame : r.step i (.begin j) = r := by
              rw [step_of_session (.begin j) hr.session, Operation.act, ← hr.session]
              exact update_self r j
            rw [hsame]
            simpa only [Operation.dataFor, Operation.isChunkFor, List.append_nil, Bool.false_eq_true,
              if_false, Nat.add_zero] using hr
        | fail j e => cases he _ List.mem_cons_self hk
        | finish j => cases he _ List.mem_cons_self hk
        | drop j => cases he _ List.mem_cons_self hk
      · have hdata : op.dataFor k = [] := by
          cases op <;> try rfl
          exact if_neg hk
        have hchunk : op.isChunkFor k = false := by
          cases op <;> try rfl
          exact beq_eq_false_iff_ne.2 hk
        rw [hdata, hchunk, List.append_nil]
        exact hr.step_of_ne ho hk

/-- **The end of an upload**: what the session answers, and that the file is left alone from then
on. -/
theorem finish? (hr : r.Receives k path n data chunks) :
    r.finish? i k = some (.ok ⟨.save, some path, data.length, chunks⟩) := by
  rw [Rivals.finish?, hr.session]
  rfl

theorem step_finish (hr : r.Receives k path n data chunks) :
    (r.step i (.finish k)).Settled n data := by
  have hstep : r.step i (.finish k) = r.update k none r.world := by
    rw [step_of_session (.finish k) hr.session]
    rfl
  rw [hstep]
  refine ⟨hr.made, hr.data, fun j => ?_⟩
  by_cases hj : j = k
  · rw [hj, number?_update_self]
    exact nofun
  · rw [number?, sessions_update_of_ne _ _ hj]
    exact hr.alone j hj

end Receives

/-- A session that opens a place is in the middle of the file there. -/
theorem receives_of_opens (ho : r.Orderly) {b : Nat} {c : UploadChunk}
    (h : Opens i place r (.accept b c)) :
    ∃ path, c.path = some path ∧ (r.step i (.accept b c)).disk.filePlace? path = some place ∧
      (r.step i (.accept b c)).disk.node? place = some (.file r.disk.bodies.length) ∧
      (r.step i (.accept b c)).Receives b path r.disk.bodies.length c.data 1 := by
  obtain ⟨hbefore, hafter⟩ := h
  have h := effect_of_step (i := i) ho (.accept b c)
  have hsame := h.sameDirectories
  generalize r.step i (.accept b c) = r' at hafter h hsame
  cases h with
  | quiet _ hs hd =>
      rcases hs with rfl | hs
      · rw [update_self] at hafter
        exact absurd hafter hbefore
      · rw [place?_update_self, hs.path?] at hafter
        cases hafter
  | @opened _ _ path opened hs hc hp hn =>
      have hopened : opened = place := by
        rw [Operation.key, place?_update_self] at hafter
        exact Option.some.inj ((hp.symm.trans (Disk.filePlace?_of_same hsame path).symm).trans hafter)
      subst hopened
      have hlt : r.disk.bodies.length < (r.disk.makeFile opened).2.bodies.length := by
        rw [Disk.length_makeFile]
        exact Nat.lt_succ_self _
      have hnew : ((r.disk.makeFile opened).2.body r.disk.bodies.length).data = [] := by
        rw [Disk.body_makeFile_new]
      refine ⟨path, hc, ?_, ?_, sessions_update_self _ _, ?_, ?_, fun j hj hnum => ?_⟩
      · exact (Disk.filePlace?_of_same hsame path).trans hp
      · rw [disk_update, node?_writeSome, Disk.node?_makeFile,
          if_pos ⟨rfl, Disk.ne_root_of_filePlace? hp⟩]
      · rw [disk_update, length_writeSome]
        exact hlt
      · rw [disk_update, data_writeSome 0 c.data hlt (by rw [hnew]; rfl), hnew]
        rfl
      · rw [number?, sessions_update_of_ne _ _ hj] at hnum
        exact Nat.lt_irrefl _ (ho.made j _ hnum)
  | wrote hs =>
      rw [Operation.key, place?_of_sessions hs] at hbefore
      rw [Operation.key, place?_update_self] at hafter
      exact absurd ((Disk.filePlace?_of_same hsame _).symm.trans hafter) hbefore
  | gaveUp _ hd => cases hd

/-- **A finished upload keeps its file if and only if no session gives up the place.** In any run of
any sessions, let one of them open a place, take chunks and be finished, while and after which
nobody opens the place again. Then it answers with the path and with how much it has got, and the
path names a file with exactly that data, unless some session has given up the place since it was
opened; then the path names nothing. -/
theorem file_after_finish (i : Installer ι τ) {w : Workspace ι} (hw : w.disk.Rooted)
    {before during after : List Operation} {b : Nat} {path : String} {first : Bytes} {place : Place}
    (hb : Opens i place ((start w).run i before) (.accept b ⟨some path, first⟩))
    (hd : ∀ op ∈ during, op.key = b → op.ends = false)
    (ho : Free i (Opens i place) ((start w).run i (before ++ [.accept b ⟨some path, first⟩]))
      (during ++ .finish b :: after)) :
    let begun := (start w).run i (before ++ [.accept b ⟨some path, first⟩])
    let data := first ++ dataFor b during
    (begun.run i during).finish? i b =
        some (.ok ⟨.save, some path, data.length, 1 + chunksFor b during⟩) ∧
      (begun.run i (during ++ .finish b :: after)).disk.fileData path =
        if Free i (GivesUp place) begun (during ++ .finish b :: after) then .ok data
        else .error .missing := by
  intro begun data
  have hstart := (orderly_start (τ := τ) hw).run (i := i) before
  have hbegun : begun = ((start w).run i before).step i (.accept b ⟨some path, first⟩) :=
    run_append _ _ _
  have horderly : begun.Orderly := hbegun ▸ hstart.step _
  obtain ⟨_, ⟨⟩, hp, hn, hr⟩ := receives_of_opens hstart hb
  rw [← hbegun] at hp hn hr
  generalize ((start w).run i before).disk.bodies.length = number at hn hr
  have hreceived := hr.run (i := i) horderly hd
  have hend : begun.run i (during ++ .finish b :: after) =
      ((begun.run i during).step i (.finish b)).run i after := run_append _ _ _
  -- the data stays what it is under its number, whatever becomes of the name
  have hsettled : (begun.run i (during ++ .finish b :: after)).Settled number data := by
    rw [hend]
    exact hreceived.step_finish.run ((horderly.run during).step _)
  have hplace : (begun.run i (during ++ .finish b :: after)).disk.filePlace? path = some place :=
    (Disk.filePlace?_of_same (sameDirectories_run horderly) path).trans hp
  obtain ⟨hkept, hlost⟩ := node?_run horderly ho hn
  refine ⟨hreceived.finish?, ?_⟩
  split
  · next hfree => rw [Disk.fileData_of_file hplace (hkept hfree), hsettled.data]
  · next hfree => exact Disk.fileData_of_nothing hplace (hlost hfree)

/-- Two sessions that save under two names: what the second one has got is kept, whatever becomes of
the first one. -/
theorem kept_beside_given_up :
    let w : Workspace MemoryStore := ⟨.ofClock 0, MemoryStore.new ⟨none, none, none⟩⟩
    let begun := (start w).run memoryInstaller
      ([.begin 1, .accept 1 ⟨some "a", [65]⟩, .begin 2] ++ [.accept 2 ⟨some "b", [66]⟩])
    let later := [.accept 2 ⟨none, [67]⟩] ++ .finish 2 :: [.drop 1]
    (begun.run memoryInstaller later).disk.fileData "b" = .ok [66, 67] := by
  intro w begun later
  have hkept := @file_after_finish _ _ memoryInstaller w (Disk.rooted_ofClock 0)
    [.begin 1, .accept 1 ⟨some "a", [65]⟩, .begin 2] [.accept 2 ⟨none, [67]⟩] [.drop 1]
    2 "b" [66] ["work", "b"] (by decide +kernel) (by decide +kernel) (by decide +kernel)
  have hfree : Free memoryInstaller (GivesUp ["work", "b"]) begun later := by decide +kernel
  exact hkept.2.trans (if_pos hfree)

/-- **A finished upload is lost to an earlier one under the same name.** The second session replaces
the file of the first one and is finished; then the first one is let go, and takes away the file of
the second. No place is opened meanwhile. -/
theorem lost_to_earlier_upload :
    let w : Workspace MemoryStore := ⟨.ofClock 0, MemoryStore.new ⟨none, none, none⟩⟩
    let begun := (start w).run memoryInstaller
      [.begin 1, .accept 1 ⟨some "a", [65]⟩, .begin 2, .accept 2 ⟨some "a", [66, 66]⟩]
    begun.finish? memoryInstaller 2 = some (.ok ⟨.save, some "a", 2, 1⟩) ∧
    (begun.run memoryInstaller [.finish 2]).disk.fileData "a" = .ok [66, 66] ∧
    Free memoryInstaller (Opens memoryInstaller ["work", "a"]) begun [.finish 2, .drop 1] ∧
    (begun.run memoryInstaller [.finish 2, .drop 1]).disk.fileData "a" = .error .missing := by
  dsimp only
  refine ⟨?_, ?_, ?_, ?_⟩
  · rfl
  · rfl
  · decide +kernel
  · rfl

end Rivals

end DeviceGateway.Upload
