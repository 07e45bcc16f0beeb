import DeviceGateway.Gateway.Handlers
import DeviceGateway.Proofs.Call.Abandoning
import DeviceGateway.Proofs.Call.Polling
import DeviceGateway.Proofs.FileSystem.Newcomers

/-!
# Uploads that are withdrawn

What an upload leaves on the disk when it ends, wherever it stands then. A session that has opened a
file or staged a package holds it, and gives it up when it is let go (`Gateway.Holds`). Between the
steps of a session there are places where what it has made is not held: while a file is being made
nothing would be released, after a package has been moved its staged file would be released, and
while the receipt waits to be sent nothing is held any more (`Gateway.Gap`). Everywhere else an upload
leaves all or nothing (`Gateway.AllOrNothing`).

Others may work on the disk meanwhile, as long as they leave files and directories where they are and
make no files but known ones (`Gateway.Spares`).
-/

namespace DeviceGateway

open Upload

namespace Upload.Sink

/-- The path that a sink has opened. -/
def path : Sink StagedPackage → String
  | .file path _ _ => path
  | .package p => p.staged

/-- The number of the file that a sink has opened. -/
def number : Sink StagedPackage → Nat
  | .file _ number _ => number
  | .package p => p.file

/-- Letting go of a sink is discarding what stands under its path. -/
theorem release_eq (d : StagingDirectories) (k : Sink StagedPackage) :
    k.release d.installer = Workspace.discard k.path := by
  cases k <;> rfl

end Upload.Sink

namespace Gateway

variable (g : Gateway) (known : Place → Nat → Prop) (mode : Mode)

/-! ## What stands on the disk -/

/-- **What others may do** on the disk: files and directories stay where they are, and a file that
comes is a known one. -/
structure Spares (w w' : GatewayWorld) : Prop where
  directories : w.disk.SameDirectories w'.disk
  standing : w.disk.Standing → w'.disk.Standing
  stay : ∀ q m, w.disk.node? q = some (.file m) → w'.disk.node? q = some (.file m)
  come : ∀ q m, w'.disk.node? q = some (.file m) → w.disk.node? q = some (.file m) ∨ known q m

/-- **No file but known ones.** -/
structure Nothing (w : GatewayWorld) : Prop where
  nothingNew : Disk.NothingNew known w.disk
  standing : w.disk.Standing

/-- **A file stands under a path**, and no other one but known ones. -/
structure Opened (path : String) (n : Nat) (w : GatewayWorld) : Prop where
  file : ∃ place, w.disk.filePlace? path = some place ∧ Disk.OneNew known w.disk place n
  standing : w.disk.Standing

/-- What an attempt comes to that leaves nothing when it fails. -/
def OrNothing {α : Type} (post : α → GatewayWorld → Prop) :
    Except GatewayError α → GatewayWorld → Prop
  | .error _, w => Nothing known w
  | .ok a, w => post a w

/-! ## What an upload holds -/

/-- **Where the data of an upload belongs**: at the path that was asked for, or in the directory of
installed packages. -/
def Destination (destination : Option String) (path : String) : Prop :=
  match mode with
  | .save => destination = some path
  | .install => ∃ seq, path = g.staging.targetPath (packageName destination seq)

/-- A sink is that of an upload to a destination. -/
def Suits (destination : Option String) : Sink StagedPackage → Prop
  | .file path _ _ => mode = .save ∧ destination = some path
  | .package p => mode = .install ∧ g.Destination .install destination p.target

/-- **What a session holds**: nothing, or the only file that has come. -/
inductive Holds (s : Session StagedPackage) (w : GatewayWorld) : Prop
  | nothing (hmode : s.mode = mode) (hsink : s.sink = none) (h : Nothing known w)
  | opened {k : Sink StagedPackage} (hmode : s.mode = mode) (hsink : s.sink = some k)
      (hstate : s.state = .receiving) (hsuits : g.Suits mode s.destination k)
      (h : Opened known k.path k.number w)

/-- **An upload is kept**: its file stands where its receipt says. -/
def Keeps (o : Outcome) (w : GatewayWorld) : Prop :=
  ∃ path n, g.Destination mode o.destination path ∧ Opened known path n w

/-! ## What it leaves -/

/-- **What an upload may leave** when it is abandoned at a step, before or after that has been carried
out and with what is released there. -/
inductive LeftBehind : Bool → (GatewayWorld → GatewayWorld) → GatewayWorld → Prop
  | nothing {carried : Bool} {release : GatewayWorld → GatewayWorld} {w : GatewayWorld}
      (h : Nothing known w) : LeftBehind carried release w
  /-- A file has just been made, and nothing is released. -/
  | made {carried : Bool} {w : GatewayWorld} {path : String} {n : Nat}
      (h : Opened known path n w) : LeftBehind carried id w
  /-- A package has just been moved, and its staged file is released. -/
  | moved {p : StagedPackage} {w : GatewayWorld} (h : Opened known p.target p.file w) :
      LeftBehind true (StagingDirectories.release p) w

/-- **All or nothing**: the receipt has been sent and the upload is kept, or the call failed and no
file has come. -/
inductive AllOrNothing : CallStage GatewayWorld HandlerState → Except GatewayError Unit →
    GatewayWorld → Prop
  | all {o : Outcome} {w : GatewayWorld} (h : g.Keeps known mode o w) :
      AllOrNothing (.awaiting (.replying (Payload.toBytes (receipt o)))) (.ok ()) w
  | nothing {stage : CallStage GatewayWorld HandlerState} {e : GatewayError} {w : GatewayWorld}
      (h : Nothing known w) : AllOrNothing stage (.error e) w

/-- **The gaps**: where an upload stands when a file is left that it does not hold. -/
inductive Gap : CallStage GatewayWorld HandlerState → GatewayWorld → Prop
  /-- The step that makes the file has been handed over. -/
  | making {effect : GatewayWorld → GatewayWorld} {next : GatewayWorld → Work HandlerState}
      {w : GatewayWorld} {path : String} {n : Nat} (h : Opened known path n w) :
      Gap (.handed effect id next) w
  /-- The file has been made, and the session does not know it. -/
  | made {job : Work HandlerState} {w : GatewayWorld} {path : String} {n : Nat}
      (h : Opened known path n w) : Gap (.carried id job) w
  /-- The package has been moved, and the session does not know it. -/
  | moved {p : StagedPackage} {job : Work HandlerState} {w : GatewayWorld}
      (h : Opened known p.target p.file w) : Gap (.carried (StagingDirectories.release p) job) w
  /-- The receipt waits to be sent. -/
  | replying {o : Outcome} {w : GatewayWorld} (h : g.Keeps known mode o w) :
      Gap (.awaiting (.replying (Payload.toBytes (receipt o)))) w

variable {g known mode} {s : Session StagedPackage} {w w' : GatewayWorld} {path : String} {n : Nat}

/-! ## Others -/

theorem Spares.refl (known : Place → Nat → Prop) (w : GatewayWorld) : Spares known w w :=
  ⟨.refl _, id, fun _ _ h => h, fun _ _ h => .inl h⟩

theorem Spares.trans {w'' : GatewayWorld} (h : Spares known w w') (h' : Spares known w' w'') :
    Spares known w w'' :=
  ⟨h.directories.trans h'.directories, h'.standing ∘ h.standing,
    fun q m hq => h'.stay q m (h.stay q m hq),
    fun q m hq => (h'.come q m hq).elim (h.come q m) .inr⟩

theorem undisturbed_nothing : Undisturbed (Spares known) (Nothing known) := fun _ _ h hw =>
  ⟨fun q m hq => (hw.come q m hq).elim (h.nothingNew q m) id, hw.standing h.standing⟩

theorem undisturbed_opened (path : String) (n : Nat) :
    Undisturbed (Spares known) (Opened known path n) := by
  intro w w' h hw
  obtain ⟨place, hp, hnew⟩ := h.file
  refine ⟨⟨place, (Disk.filePlace?_of_same hw.directories path).trans hp,
    hw.stay _ _ hnew.there, fun q m hq hm => ?_⟩, hw.standing h.standing⟩
  exact (hw.come q m hm).elim (hnew.others q m hq) id

theorem undisturbed_keeps (o : Outcome) : Undisturbed (Spares known) (g.Keeps known mode o) :=
  fun w w' ⟨path, n, hpath, h⟩ hw => ⟨path, n, hpath, undisturbed_opened path n w w' h hw⟩

theorem undisturbed_holds (s : Session StagedPackage) :
    Undisturbed (Spares known) (g.Holds known mode s) := by
  intro w w' h hw
  cases h with
  | nothing hmode hsink h => exact .nothing hmode hsink (undisturbed_nothing _ _ h hw)
  | opened hmode hsink hstate hsuits h =>
      exact .opened hmode hsink hstate hsuits (undisturbed_opened _ _ _ _ h hw)

/-! ## Letting go -/

theorem Nothing.discard (h : Nothing known w) (path : String) : Nothing known (w.discard path) :=
  ⟨h.nothingNew.trans (Disk.nothingNew_discard w.disk path), h.standing.discard path⟩

/-- What is written does not matter. -/
theorem Nothing.modifyBody (h : Nothing known w) (n : Nat) (f : FileBody → FileBody) :
    Nothing known { w with disk := w.disk.modifyBody n f } :=
  ⟨h.nothingNew, h.standing.modifyBody n f⟩

theorem Opened.discard (h : Opened known path n w) : Nothing known (w.discard path) := by
  obtain ⟨place, hp, hnew⟩ := h.file
  exact ⟨(hnew.discard hp).1, h.standing.discard path⟩

theorem Opened.modifyBody (h : Opened known path n w) (k : Nat) (f : FileBody → FileBody) :
    Opened known path n { w with disk := w.disk.modifyBody k f } := by
  obtain ⟨place, hp, hnew⟩ := h.file
  refine ⟨⟨place, ?_, hnew.modifyBody k f⟩, h.standing.modifyBody k f⟩
  exact (Disk.filePlace?_of_same (Disk.sameDirectories_modifyBody w.disk k f) path).trans hp

theorem Holds.mode_eq (h : g.Holds known mode s w) : s.mode = mode := by
  cases h with
  | nothing hmode => exact hmode
  | opened hmode => exact hmode

/-- **A session that is let go leaves nothing.** -/
theorem Holds.release (h : g.Holds known mode s w) :
    Nothing known (s.release g.staging.installer w) := by
  unfold Session.release
  cases h with
  | nothing hmode hsink h =>
      rw [hsink]
      exact h
  | @opened k _ hsink _ _ h =>
      rw [hsink]
      show Nothing known (k.release g.staging.installer w)
      rw [Sink.release_eq]
      exact h.discard

/-! ## Opening -/

/-- A step that brings no file leaves nothing. -/
theorem covered_ask_nothing {α : Type} {step : GatewayWorld → α × GatewayWorld}
    (h : Nothing known w) (hstep : ∀ w, Nothing known w → Nothing known (step w).2) :
    (Job.ask step).Covered (Spares known) (LeftBehind known) (fun _ => Nothing known) w :=
  Job.covered_ask (Nothing known) (fun _ => Nothing known) undisturbed_nothing
    (fun _ => undisturbed_nothing) h hstep fun _ _ _ h => .nothing h

theorem covered_atOnce_nothing {α : Type} {step : GatewayWorld → α × GatewayWorld}
    (h : Nothing known (step w).2) :
    (Job.atOnce step).Covered (Spares known) (LeftBehind known) (fun _ => Nothing known) w := h

/-- What an attempt to open a path comes to. -/
def Opens (known : Place → Nat → Prop) (path : String) :
    Except FileFault Nat → GatewayWorld → Prop
  | .error _, w => Nothing known w
  | .ok n, w => Opened known path n w

theorem opens_openForWriting (h : Nothing known w) {mode : Disk.OpenMode} (hmode : mode ≠ .keep)
    (path : String) :
    Opens known path (Workspace.onDisk (·.openForWriting mode path) w).1
      (Workspace.onDisk (·.openForWriting mode path) w).2 := by
  cases ho : w.disk.openForWriting mode path with
  | error e =>
      simp only [Workspace.onDisk, ho]
      exact h
  | ok opened =>
      obtain ⟨n, d⟩ := opened
      simp only [Workspace.onDisk, ho]
      obtain ⟨place, hopens⟩ := Disk.opens_of_openForWriting h.standing hmode ho
      exact ⟨⟨place, hopens.named, h.nothingNew.oneNew hopens.oneNew⟩, hopens.standing⟩

/-- **Opening a path**: the only step that may leave a file makes it. -/
theorem covered_openForWriting (h : Nothing known w) {mode : Disk.OpenMode} (hmode : mode ≠ .keep)
    (path : String) :
    (Job.ask (Workspace.onDisk (·.openForWriting mode path))).Covered (Spares known)
      (LeftBehind known) (Opens known path) w := by
  refine Job.covered_ask (Nothing known) (Opens known path) undisturbed_nothing
    (fun opened => ?_) h (fun w h => opens_openForWriting h hmode path) fun _ opened w h => ?_
  · cases opened with
    | error e => exact undisturbed_nothing
    | ok n => exact undisturbed_opened path n
  · cases opened with
    | error e => exact .nothing h
    | ok n => exact .made h

theorem covered_replaceFile (h : Nothing known w) (path : String) :
    (Sink.replaceFile path : Work (Except GatewayError (Sink StagedPackage))).Covered
      (Spares known) (LeftBehind known)
      (OrNothing known fun k w => g.Suits .save (some path) k ∧ Opened known k.path k.number w)
      w := by
  -- Whether a file can be removed or not, no other one comes.
  have hremove : ∀ w, Nothing known w → Nothing known
      (Workspace.onDisk (fun d => (d.removeFile path).map ((), ·)) w).2 := fun w h => by
    have hdisk : (Workspace.onDisk (fun d => (d.removeFile path).map ((), ·)) w).2 =
        w.discard path := by
      simp only [Workspace.onDisk, Workspace.discard, Disk.discard]
      cases w.disk.removeFile path <;> rfl
    exact hdisk ▸ h.discard path
  have hnone : ∀ {w}, Nothing known w → (pure (.ok ()) : Work (Except FileFault Unit)).Covered
      (Spares known) (LeftBehind known) (fun _ => Nothing known) w := fun h => h
  unfold Sink.replaceFile
  refine (covered_ask_nothing h fun _ h => h).bind fun there w h => ?_
  dsimp only
  split
  case' isTrue => refine (covered_ask_nothing h hremove).bind fun removed w h => ?_
  case' isFalse => refine (hnone h).bind fun removed w h => ?_
  all_goals
    cases removed with
    | error e => exact h
    | ok =>
        refine (covered_openForWriting h (by decide) path).bind fun opened w ho => ?_
        cases opened with
        | error e => exact ho
        | ok n => exact ⟨⟨rfl, rfl⟩, ho⟩

theorem covered_ensure (h : Nothing known w) (path : String) :
    (StagingDirectories.ensure path).Covered (Spares known) (LeftBehind known)
      (fun _ => Nothing known) w :=
  covered_ask_nothing h fun _ h =>
    have hgrows := Disk.grows_makeDirectories h.standing path
    ⟨h.nothingNew.trans hgrows.nothingNew, hgrows.standing⟩

theorem covered_begin (h : Nothing known w) (label : Option String) :
    (g.staging.begin label).Covered (Spares known) (LeftBehind known)
      (OrNothing known fun p w =>
        g.Suits .install label (.package p) ∧ Opened known p.staged p.file w) w := by
  unfold StagingDirectories.begin
  refine (covered_ensure h _).bind fun fault w h => ?_
  cases fault with
  | some e => exact h
  | none =>
      refine (covered_ensure h _).bind fun fault w h => ?_
      cases fault with
      | some e => exact h
      | none =>
          unfold StagingDirectories.stage
          refine (covered_atOnce_nothing ⟨h.1, h.2⟩).bind fun seq w h => ?_
          refine (covered_openForWriting h (by decide) _).bind fun opened w ho => ?_
          cases opened with
          | error e => exact ho
          | ok n => exact ⟨⟨rfl, seq, rfl⟩, ho⟩

/-- **Opening the place that the data goes to.** -/
theorem covered_openSink (h : Nothing known w) (mode : Mode) (path : Option String) :
    (Session.openSink g.staging.installer mode path).Covered (Spares known) (LeftBehind known)
      (OrNothing known fun opened w =>
        g.Suits mode opened.1 opened.2 ∧ Opened known opened.2.path opened.2.number w) w := by
  unfold Session.openSink
  split
  · exact h
  · next path =>
    split
    · exact h
    · refine (covered_replaceFile (g := g) h path).bind fun opened w ho => ?_
      cases opened with
      | error e => exact ho
      | ok k => exact ho
  · refine (covered_begin (g := g) h _).bind fun opened w ho => ?_
    cases opened with
    | error e => exact ho
    | ok p => exact ho

/-! ## Chunks -/

/-- A session that fails gives up what it holds. -/
theorem covered_fail (h : g.Holds known mode s w) (e : GatewayError) :
    (s.fail g.staging.installer e).Covered (Spares known) (LeftBehind known)
      (fun a w => g.Holds known mode a.2 w) w := by
  show g.Holds known mode _ (s.release g.staging.installer w)
  exact .nothing h.mode_eq rfl h.release

/-- What writing to a sink comes to: it is still the same file. -/
def Writes (g : Gateway) (known : Place → Nat → Prop) (mode : Mode) (destination : Option String)
    (path : String) (n : Nat) (written : Except GatewayError (Sink StagedPackage))
    (w : GatewayWorld) : Prop :=
  (∃ k, written = .ok k ∧ g.Suits mode destination k ∧ k.path = path ∧ k.number = n) ∧
    Opened known path n w

/-- **Writing**: the sink is held all the while. -/
theorem covered_write {k : Sink StagedPackage} {mode : Mode} {destination : Option String}
    (h : Opened known k.path k.number w) (hsuits : g.Suits mode destination k) (data : Bytes) :
    ((k.write g.staging.installer data).guarded (k.release g.staging.installer)).Covered
      (Spares known) (LeftBehind known) (Writes g known mode destination k.path k.number) w := by
  rw [Sink.release_eq]
  cases k with
  | file path number written =>
      refine Job.covered_guarded_ask (Opened known path number)
        (Writes g known mode destination path number) (undisturbed_opened path number)
        (fun _ _ _ h hw => ⟨h.1, undisturbed_opened path number _ _ h.2 hw⟩) h
        (fun w h => .nothing (h.discard.modifyBody number _))
        (fun w h => ⟨⟨_, rfl, hsuits, rfl, rfl⟩, h.modifyBody number _⟩)
        fun _ _ h => .nothing h.2.discard
  | package p =>
      have hstep : ∀ w, Opened known p.staged p.file w →
          Opened known p.staged p.file
            { w with disk := w.disk.writeAt p.file p.written data } :=
        fun w h => h.modifyBody p.file _
      unfold Sink.write
      rw [Job.guarded_bind]
      refine Job.Covered.bind (Job.covered_guarded_ask
        (Opened known p.staged p.file)
        (fun (written : Except GatewayError StagedPackage) w =>
          written = .ok { p with written := p.written + data.length } ∧
            Opened known p.staged p.file w)
        (undisturbed_opened _ _)
        (fun _ _ _ h hw => ⟨h.1, undisturbed_opened _ _ _ _ h.2 hw⟩) h
        (fun w h => .nothing (h.discard.modifyBody p.file _))
        (fun w h => ⟨rfl, hstep w h⟩)
        fun _ _ h => .nothing h.2.discard) fun written w hw => ?_
      obtain ⟨rfl, h⟩ := hw
      exact ⟨⟨_, rfl, hsuits, rfl, rfl⟩, h⟩

theorem covered_take (h : g.Holds known mode s w) (data : Bytes) :
    (s.take g.staging.installer data).Covered (Spares known) (LeftBehind known)
      (fun a w => g.Holds known mode a.2 w) w := by
  unfold Session.take
  split
  · cases h with
    | nothing hmode hsink h => exact .nothing hmode hsink h
    | opened hmode hsink hstate hsuits h => exact .opened hmode hsink hstate hsuits h
  · split
    · exact covered_fail h _
    · next k hk =>
      cases h with
      | nothing hmode hsink => cases hsink.symm.trans hk
      | opened hmode hsink hstate hsuits h =>
          cases hsink.symm.trans hk
          refine (covered_write h hsuits data).bind fun written w hw => ?_
          obtain ⟨⟨k', rfl, hsuits, hpath, hnumber⟩, hopened⟩ := hw
          rw [← hpath, ← hnumber] at hopened
          exact .opened hmode rfl hstate hsuits hopened

/-- **One chunk.** -/
theorem covered_accept (h : g.Holds known mode s w) (c : UploadChunk) :
    (s.accept g.staging.installer c).Covered (Spares known) (LeftBehind known)
      (fun a w => g.Holds known mode a.2 w) w := by
  unfold Session.accept
  split
  · next hidle =>
    cases h with
    | opened _ _ hstate => cases hidle.symm.trans hstate
    | nothing hmode hsink h =>
        subst hmode
        refine (covered_openSink h s.mode c.path).bind fun opened w ho => ?_
        cases opened with
        | error e => exact covered_fail (.nothing rfl hsink ho) e
        | ok opened =>
            obtain ⟨destination, k⟩ := opened
            have hopened : g.Holds known s.mode
                { s with state := .receiving, destination, sink := some k } w :=
              .opened rfl rfl rfl ho.1 ho.2
            exact covered_take hopened c.data
  · exact covered_take h c.data
  · exact h
  · exact h

theorem covered_acceptMessage (h : g.Holds known mode s w) (m : Bytes) :
    (s.acceptMessage g.staging.installer m).Covered (Spares known) (LeftBehind known)
      (fun a w => g.Holds known mode a.2 w) w := by
  unfold Session.acceptMessage
  split
  · exact h
  · exact covered_accept h _

/-! ## The end of the chunks -/

/-- What moving a package comes to. -/
def Moves (known : Place → Nat → Prop) (p : StagedPackage) :
    Except FileFault Unit → GatewayWorld → Prop
  | .error _, w => Opened known p.staged p.file w
  | .ok (), w => (∃ place, w.disk.filePlace? p.staged = some place) ∧
      Opened known p.target p.file w

/-- The step that moves a package. -/
def moving (p : StagedPackage) : GatewayWorld → Except FileFault Unit × GatewayWorld :=
  Workspace.onDisk fun d => (d.rename p.staged p.target).map ((), ·)

theorem moves_moving {p : StagedPackage} (h : Opened known p.staged p.file w) :
    Moves known p (moving p w).1 (moving p w).2 := by
  obtain ⟨place, hp, hnew⟩ := h.file
  cases hr : w.disk.rename p.staged p.target with
  | error e =>
      simp only [moving, Workspace.onDisk, hr, Except.map]
      exact h
  | ok d =>
      simp only [moving, Workspace.onDisk, hr, Except.map]
      have hrenames := Disk.renames_of_rename h.standing hp hnew.there hr
      obtain ⟨new, hnamed, hmoved⟩ := hnew.renames hp hrenames
      exact ⟨⟨place, (Disk.filePlace?_of_same hrenames.sameDirectories p.staged).trans hp⟩,
        ⟨new, hnamed, hmoved⟩, hrenames.standing⟩

/-- Nothing is there to be moved once the staged file is released. -/
theorem moving_release {p : StagedPackage} (h : Opened known p.staged p.file w) :
    (moving p (StagingDirectories.release p w)).2 = StagingDirectories.release p w := by
  obtain ⟨place, hp, hnew⟩ := h.file
  obtain ⟨-, hp', hgone⟩ := hnew.discard hp
  obtain ⟨e, he⟩ := Disk.rename_of_nothing hp' hgone p.target
  have he : (StagingDirectories.release p w).disk.rename p.staged p.target = .error e := he
  simp only [moving, Workspace.onDisk, he, Except.map]

theorem undisturbed_moves (p : StagedPackage) (moved : Except FileFault Unit) :
    Undisturbed (Spares known) (Moves known p moved) := by
  cases moved with
  | error e => exact undisturbed_opened _ _
  | ok =>
      intro w w' ⟨⟨place, hp⟩, h⟩ hw
      exact ⟨⟨place, (Disk.filePlace?_of_same hw.directories p.staged).trans hp⟩,
        undisturbed_opened _ _ _ _ h hw⟩

/-- **A package that has been moved** stays where it is when its staged file is released. -/
theorem leftBehind_of_moves {p : StagedPackage} {moved : Except FileFault Unit}
    (h : Moves known p moved w) :
    LeftBehind known true (StagingDirectories.release p) (StagingDirectories.release p w) := by
  cases moved with
  | error e => exact .nothing (Opened.discard h)
  | ok =>
      obtain ⟨⟨old, hold⟩, h⟩ := h
      obtain ⟨place, hp, hnew⟩ := h.file
      by_cases hne : old = place
      · -- Both paths name the same place, and releasing the one releases the other.
        subst hne
        exact .nothing ⟨(hnew.discard hold).1, h.standing.discard p.staged⟩
      · refine .moved ⟨⟨place, ?_, hnew.discard_other hold hne⟩, h.standing.discard p.staged⟩
        exact (Disk.filePlace?_of_same (Disk.sameDirectories_discard _ _) p.target).trans hp

/-- **Moving a package**: until it is moved its staged file is held. -/
theorem covered_commit {p : StagedPackage} (h : Opened known p.staged p.file w) :
    (StagingDirectories.commit p).Covered (Spares known) (LeftBehind known)
      (OrNothing known fun _ => Opened known p.target p.file) w := by
  have hreleased : ∀ w, Opened known p.staged p.file w →
      Nothing known (StagingDirectories.release p w) := fun w h => h.discard
  unfold StagingDirectories.commit
  rw [Job.guarded_bind]
  refine (Job.covered_guarded_ask (Opened known p.staged p.file)
    (fun _ => Opened known p.staged p.file) (undisturbed_opened _ _) (fun _ => undisturbed_opened _ _) h
    (fun w h => .nothing (hreleased w h)) (fun _ h => h)
    fun _ w h => .nothing (hreleased w h)).bind fun _ w h => ?_
  rw [Job.guarded_bind]
  have hmoving : ((Job.ask (moving p)).guarded (StagingDirectories.release p)).Covered
      (Spares known) (LeftBehind known) (Moves known p) w :=
    Job.covered_guarded_ask (Opened known p.staged p.file) (Moves known p) (undisturbed_opened _ _)
      (undisturbed_moves p) h
      (fun w h => .nothing (by rw [moving_release h]; exact hreleased w h))
      (fun _ h => moves_moving h) fun _ _ h => leftBehind_of_moves h
  refine hmoving.bind fun moved w h => ?_
  cases moved with
  | error e => exact hreleased w h
  | ok => exact h.2

/-- **Closing a sink**: the file stands where it belongs, or nothing is left. -/
theorem covered_close {k : Sink StagedPackage} {mode : Mode} {destination : Option String}
    (h : Opened known k.path k.number w) (hsuits : g.Suits mode destination k) :
    (k.close g.staging.installer).Covered (Spares known) (LeftBehind known)
      (OrNothing known fun _ w =>
        ∃ path n, g.Destination mode destination path ∧ Opened known path n w) w := by
  cases k with
  | file path number written =>
      obtain ⟨rfl, hdestination⟩ := hsuits
      rw [Sink.close, Job.guarded_bind]
      refine (Job.covered_guarded_ask (Opened known path number)
        (fun _ => Opened known path number) (undisturbed_opened _ _)
        (fun _ => undisturbed_opened _ _) h (fun _ h => .nothing h.discard) (fun _ h => h)
        fun _ _ h => .nothing h.discard).bind fun _ w h => ?_
      exact ⟨path, number, hdestination, h⟩
  | package p =>
      obtain ⟨rfl, hdestination⟩ := hsuits
      refine (covered_commit h).imp fun closed w hclosed => ?_
      cases closed with
      | error e => exact hclosed
      | ok => exact ⟨p.target, p.file, hdestination, hclosed⟩

/-- **The end of the messages**: the upload is kept, or nothing is left. -/
theorem covered_finish (h : g.Holds known mode s w) :
    (s.finish g.staging.installer).Covered (Spares known) (LeftBehind known)
      (OrNothing known (g.Keeps known mode)) w := by
  -- A session that does not receive holds nothing.
  have hrest : s.state ≠ .receiving → Nothing known w := fun hstate => by
    cases h with
    | nothing _ _ h => exact h
    | opened _ _ hreceiving => exact absurd hreceiving hstate
  unfold Session.finish
  split
  · next hs => exact hrest (hs ▸ nofun)
  · next hs => exact hrest (hs ▸ nofun)
  · next hs => exact hrest (hs ▸ nofun)
  · cases h with
    | nothing hmode hsink h =>
        rw [hsink]
        exact h
    | opened hmode hsink _ hsuits h =>
        rw [hsink]
        refine (covered_close h hsuits).bind fun closed w hclosed => ?_
        cases closed with
        | error e => exact hclosed
        | ok => exact hclosed

/-! ## The handler -/

/-- **How the handler of an upload stands** when it waits or is done: it holds what has come, or its
receipt waits to be sent, or it has failed and nothing is left. -/
inductive Stands (g : Gateway) (known : Place → Nat → Prop) (mode : Mode) :
    HandlerState → GatewayWorld → Prop
  | uploading {s : Session StagedPackage} {w : GatewayWorld} (h : g.Holds known mode s w) :
      Stands g known mode (.uploading s) w
  | replying {o : Outcome} {w : GatewayWorld} (h : g.Keeps known mode o w) :
      Stands g known mode (.replying (Payload.toBytes (receipt o))) w
  | failed {e : GatewayError} {w : GatewayWorld} (h : Nothing known w) :
      Stands g known mode (.ending (.error e)) w

theorem covered_takeChunk (h : g.Holds known mode s w) (m : Option Bytes) :
    (g.takeChunk s m).Covered (Spares known) (LeftBehind known) (Stands g known mode) w := by
  cases m with
  | none =>
      refine (covered_finish h).bind fun finished w hfinished => ?_
      cases finished with
      | error e => exact .failed hfinished
      | ok o => exact .replying hfinished
  | some m =>
      refine (covered_acceptMessage h m).bind fun accepted w haccepted => ?_
      obtain ⟨_ | _, s'⟩ := accepted
      · exact Stands.failed haccepted.release
      · exact .uploading haccepted

/-- **An upload under way**: where its call stands, and what the disk holds then. -/
inductive Underway (g : Gateway) (known : Place → Nat → Prop) (mode : Mode) :
    CallStage GatewayWorld HandlerState → GatewayWorld → Prop
  | starting {w : GatewayWorld} (h : Nothing known w) :
      Underway g known mode (.starting (.done (.uploading (.new mode)))) w
  | uploading {s : Session StagedPackage} {w : GatewayWorld} (h : g.Holds known mode s w) :
      Underway g known mode (.awaiting (.uploading s)) w
  | replying {o : Outcome} {w : GatewayWorld} (h : g.Keeps known mode o w) :
      Underway g known mode (.awaiting (.replying (Payload.toBytes (receipt o)))) w
  | handed {effect release : GatewayWorld → GatewayWorld}
      {next : GatewayWorld → Work HandlerState} {w : GatewayWorld}
      (h : (Job.blocking effect release next).Covered (Spares known) (LeftBehind known)
        (Stands g known mode) w) : Underway g known mode (.handed effect release next) w
  | carried {release : GatewayWorld → GatewayWorld} {job : Work HandlerState} {w : GatewayWorld}
      (h : ∀ w', Spares known w w' → LeftBehind known true release (release w') ∧
        job.Covered (Spares known) (LeftBehind known) (Stands g known mode) w') :
      Underway g known mode (.carried release job) w

/-- **How an upload ends**: all or nothing is left, or it fails in one of the gaps. -/
def Ends (g : Gateway) (known : Place → Nat → Prop) (mode : Mode)
    (stage : CallStage GatewayWorld HandlerState) (result : Except GatewayError Unit)
    (w : GatewayWorld) : Prop :=
  g.AllOrNothing known mode stage result w ∨ (∃ e, result = .error e) ∧ g.Gap known mode stage w

/-- What others do does not disturb an upload. -/
theorem undisturbed_underway (stage : CallStage GatewayWorld HandlerState) :
    Undisturbed (Spares known) (g.Underway known mode stage) := by
  intro w w' h hw
  cases h with
  | starting h => exact .starting (undisturbed_nothing _ _ h hw)
  | uploading h => exact .uploading (undisturbed_holds _ _ _ h hw)
  | replying h => exact .replying (undisturbed_keeps _ _ _ h hw)
  | handed h => exact .handed fun w'' hw' => h w'' (hw.trans hw')
  | carried h => exact .carried fun w'' hw' => h w'' (hw.trans hw')

end Gateway

/-! ## One call -/

namespace Call

variable {g : Gateway} {known : Place → Nat → Prop} {mode : Upload.Mode}
  {c c' : Call GatewayWorld HandlerState}
  {s s' : Shared GatewayWorld}

/-- **What a step of an upload comes to**: it is under way again, or it has ended. -/
def UploadGoes (g : Gateway) (known : Place → Nat → Prop) (mode : Upload.Mode)
    (stage : CallStage GatewayWorld HandlerState) (c : Call GatewayWorld HandlerState)
    (s : Shared GatewayWorld) : Prop :=
  (g.Underway known mode c.stage s.world ∧ s.orphans = []) ∨
    ∃ result, c.stage = .ended result ∧ g.Ends known mode stage result s.settled

theorem uploadGoes_resume {stage : CallStage GatewayWorld HandlerState}
    (hsup : c.supervised = true) (horphans : s.orphans = []) {job : Job GatewayWorld HandlerState}
    {w : GatewayWorld}
    (hjob : job.Covered (Gateway.Spares known) (Gateway.LeftBehind known) (g.Stands known mode) w)
    (hr : resume g.handler c s job w = (c', s')) :
    UploadGoes g known mode stage c' s' := by
  rcases covered_resume (h := g.handler) c s hjob with
    ⟨effect, release, next, w', hres, hcovered⟩ | ⟨state, w', hstands, hres⟩
  · cases hr.symm.trans hres
    exact .inl ⟨.handed hcovered, horphans⟩
  · rw [hres] at hr
    cases hstands with
    | uploading h =>
        cases hr
        exact .inl ⟨.uploading h, horphans⟩
    | replying h =>
        cases hr
        exact .inl ⟨.replying h, horphans⟩
    | failed h =>
        cases hr
        have hsettled : ({ s with world := w' } : Shared GatewayWorld).settled = w' :=
          Shared.settled_of_nil horphans
        exact .inr ⟨_, stage_conclude hsup _, .inl (.nothing (hsettled.symm ▸ h))⟩

/-- **An upload that is abandoned** leaves nothing, or it stood in one of the gaps. -/
theorem uploadGoes_abandon (hsup : c.supervised = true) (horphans : s.orphans = [])
    (hu : g.Underway known mode c.stage s.world) :
    UploadGoes g known mode c.stage (c.abandon g.handler s).1 (c.abandon g.handler s).2 := by
  refine .inr ⟨.error .cancelled, ?_, ?_⟩
  · rw [abandon_fst, stage_conclude hsup]
  · -- What was handed over is carried out behind the release, and nothing else is waiting.
    have hsettled : ∀ w, ({ s with world := w } : Shared GatewayWorld).settled = w :=
      fun w => Shared.settled_of_nil horphans
    have horphaned : ∀ w effect, ({ s with world := w, orphans := s.orphans ++ [effect] } :
        Shared GatewayWorld).settled = effect w := fun w effect => by
      rw [Shared.settled, horphans]
      rfl
    unfold abandon
    revert hu
    generalize c.stage = stage
    intro hu
    cases hu with
    | starting h => exact .inl (.nothing ((hsettled s.world).symm ▸ h))
    | uploading h => exact .inl (.nothing ((hsettled _).symm ▸ h.release))
    | replying h => exact .inr ⟨⟨_, rfl⟩, .replying ((hsettled s.world).symm ▸ h)⟩
    | @handed effect release next _ h =>
        have hleft := (h s.world (.refl known s.world)).1
        dsimp only
        rw [horphaned]
        cases hleft with
        | nothing h => exact .inl (.nothing h)
        | made h => exact .inr ⟨⟨_, rfl⟩, .making h⟩
    | carried h =>
        have hleft := (h s.world (.refl known s.world)).1
        dsimp only
        rw [hsettled]
        cases hleft with
        | nothing h => exact .inl (.nothing h)
        | made h => exact .inr ⟨⟨_, rfl⟩, .made h⟩
        | moved h => exact .inr ⟨⟨_, rfl⟩, .moved h⟩

/-- **A poll of an upload**: it is under way again, or it has ended. -/
theorem uploadGoes_of_poll? {allWithdrawn : Bool} (hsup : c.supervised = true)
    (horphans : s.orphans = []) (hu : g.Underway known mode c.stage s.world)
    (hp : c.poll? g.handler allWithdrawn s = some (c', s')) : UploadGoes g known mode c.stage c' s' := by
  cases polls_of_poll? hp with
  | dropped =>
      have habandoned := uploadGoes_abandon hsup horphans hu
      rwa [abandon_fst] at habandoned
  | refused hst | told hst =>
      rw [hst] at hu
      cases hu
  | finished _ hst hfinish =>
      rw [hst] at hu
      cases hu with
      | uploading | replying => cases hfinish
  | resumed _ hres hr =>
      cases hres with
      | started hst =>
          rw [hst] at hu ⊢
          cases hu with
          | starting h =>
              have hjob : (Job.done (.uploading (.new mode))).Covered (Gateway.Spares known)
                  (Gateway.LeftBehind known) (g.Stands known mode) s.world :=
                Gateway.Stands.uploading (.nothing rfl rfl h)
              exact uploadGoes_resume hsup horphans hjob hr
      | carried hst =>
          rw [hst] at hu ⊢
          cases hu with
          | carried h => exact uploadGoes_resume hsup horphans (h s.world (.refl known s.world)).2 hr
      | @received state next m inbox hst hawait =>
          rw [hst] at hu ⊢
          cases hu with
          | uploading h =>
              cases hawait
              exact uploadGoes_resume (c := { c with inbox }) hsup horphans
                (Gateway.covered_takeChunk h m) hr
          | replying => cases hawait
      | @sent state m next sent outbox hst hawait =>
          rw [hst] at hu ⊢
          cases hu with
          | uploading => cases hawait
          | replying h =>
              -- The receipt has been sent, or it cannot be sent.
              cases hawait
              cases hr
              have hsettled : ({ s with outbox } : Shared GatewayWorld).settled = s.world :=
                Shared.settled_of_nil horphans
              refine .inr ⟨sent, stage_conclude hsup sent, ?_⟩
              show g.Ends known mode _ sent ({ s with outbox } : Shared GatewayWorld).settled
              rw [hsettled]
              cases sent with
              | ok => exact .inl (.all h)
              | error e => exact .inr ⟨⟨e, rfl⟩, .replying h⟩
      | answered hst hawait | withdrawn hst hawait | deafened hst hawait =>
          rw [hst] at hu
          cases hu with
          | uploading | replying => cases hawait

/-- **The system carries out a step of an upload.** -/
theorem underway_of_carry? (hu : g.Underway known mode c.stage s.world)
    (hp : c.carry? s = some (c', s')) :
    g.Underway known mode c'.stage s'.world ∧ s'.orphans = s.orphans := by
  obtain ⟨effect, release, next, hst, rfl, rfl⟩ := carry?_eq_some_iff.1 hp
  rw [hst] at hu
  cases hu with
  | handed h => exact ⟨.carried (h s.world (.refl known s.world)).2, rfl⟩

/-- An upload under way asks no provider. -/
theorem expire?_of_underway (hu : g.Underway known mode c.stage s.world) :
    c.expire? g.handler s = none := by
  unfold expire?
  generalize c.stage = stage at hu ⊢
  cases hu <;> rfl

end Call

end DeviceGateway
