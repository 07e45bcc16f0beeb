import DeviceGateway.Proofs.FileSystem.Provided
import DeviceGateway.Proofs.Install.Names
import DeviceGateway.Proofs.Install.Transactions

/-!
# What a transaction does to the disk

A transaction works on the staged file of its own, which carries its number. So each of its
operations is confined to that file (`Advances`), but for the one that installs the package:
that puts the whole file in the place of whatever stood under its name (`Installed`). A transaction
that is over has no staged file (`Cleared`), and nothing that the system may still do for it brings
one back (`advances_leftover`).
-/

namespace DeviceGateway.StagingDirectories

variable {d : StagingDirectories} {disk disk' : Disk} {k : UInt64} {number number' : Option UInt64}
  {name : String} {p : StagedPackage} {data : Bytes} {t t' : Transaction}
  {w w' : Workspace StagingCounter} {touched touched' : Place → Prop}

/-! ## Places -/

/-- Where the staged file of a package stands. -/
def stagedPlace (d : StagingDirectories) (disk : Disk) (name : String) (k : UInt64) : Place :=
  disk.placeOf d.staging ++ [d.stagedName name k]

/-- Where a package is installed. -/
def installPlace (d : StagingDirectories) (disk : Disk) (name : String) : Place :=
  disk.placeOf d.install ++ [name]

theorem stagedPlace_of_here (h : disk'.here = disk.here) (name : String) (k : UInt64) :
    d.stagedPlace disk' name k = d.stagedPlace disk name k := by
  rw [stagedPlace, Disk.placeOf_of_here h, stagedPlace]

theorem installPlace_of_here (h : disk'.here = disk.here) (name : String) :
    d.installPlace disk' name = d.installPlace disk name := by
  rw [installPlace, Disk.placeOf_of_here h, installPlace]

theorem stagedPlace_inj {name' : String} {k' : UInt64}
    (h : d.stagedPlace disk name k = d.stagedPlace disk name' k') : k = k' := by
  obtain ⟨-, hlast⟩ := List.append_inj' h rfl
  exact stagedName_inj (List.cons.inj hlast).1

theorem installPlace_ne (hdirs : disk.placeOf d.staging ≠ disk.placeOf d.install)
    {name' : String} : d.installPlace disk name ≠ d.stagedPlace disk name' k := by
  intro h
  exact hdirs (List.append_inj' h rfl).1.symm

/-! ## Confined operations -/

/-- **Both directories are there.** -/
def Provides (d : StagingDirectories) (disk : Disk) : Prop :=
  disk.Provided d.staging ∧ disk.Provided d.install

theorem Provides.kept (h : d.Provides disk) (hkeeps : disk.KeepsDirectories disk') :
    d.Provides disk' := ⟨h.1.kept hkeeps, h.2.kept hkeeps⟩

/-- **An operation is confined to some places**: it touches no other file, and once the directories
are there, nothing comes to stand anywhere else. -/
structure Confined (d : StagingDirectories) (touched : Place → Prop) (disk disk' : Disk) :
    Prop where
  tidy : disk'.Tidy
  spares : disk.Spares touched disk'
  vacant : d.Provides disk → ∀ q, ¬ touched q → disk.node? q = none → disk'.node? q = none

theorem Confined.refl (ht : disk.Tidy) : Confined d touched disk disk :=
  ⟨ht, .refl _ _, fun _ _ _ h => h⟩

theorem Confined.mono (h : Confined d touched disk disk') (hmore : ∀ q, touched q → touched' q) :
    Confined d touched' disk disk' where
  tidy := h.tidy
  spares := h.spares.mono hmore
  vacant hp q hq := h.vacant hp q fun ht => hq (hmore q ht)

/-- Nothing comes or goes anywhere else, whether the directories are there or not. -/
theorem confined_of_others (ht : disk'.Tidy) (hs : disk.Spares touched disk')
    (hothers : ∀ q, ¬ touched q → disk'.node? q = disk.node? q) :
    Confined d touched disk disk' where
  tidy := ht
  spares := hs
  vacant _ q hq hn := (hothers q hq).trans hn

/-- **Making directories** touches no file, and does nothing once they are there. -/
theorem confined_makeDirectories (ht : disk.Tidy) {path : String}
    (hpath : d.Provides disk → disk.Provided path) :
    Confined d (fun _ => False) disk (disk.makeDirectories path).2 where
  tidy := ht.makeDirectories path
  spares := (Disk.widens_makeDirectories disk path).1
  vacant hp q _ hn := by
    rw [(hpath hp).makeDirectories]
    exact hn

/-! ## Staged packages -/

/-- **A package that is staged** under a name and a number. -/
structure Stages (d : StagingDirectories) (disk : Disk) (k : UInt64) (name : String)
    (p : StagedPackage) : Prop where
  provides : d.Provides disk
  proper : Path.Proper name
  staged : p.staged = d.stagedPath name k
  target : p.target = d.targetPath name
  named : disk.filePlace? p.staged = some (d.stagedPlace disk name k)

/-- **The staged file holds the data** that has been written to the package. -/
structure Holds (d : StagingDirectories) (disk : Disk) (k : UInt64) (name : String)
    (p : StagedPackage) (data : Bytes) : Prop extends Stages d disk k name p where
  there : disk.node? (d.stagedPlace disk name k) = some (.file p.file)
  content : (disk.body p.file).data = data
  written : p.written = data.length

/-- **There is no staged file any more.** -/
structure Cleared (d : StagingDirectories) (disk : Disk) (k : UInt64) (name : String)
    (p : StagedPackage) : Prop extends Stages d disk k name p where
  gone : disk.node? (d.stagedPlace disk name k) = none

theorem Stages.kept (h : Stages d disk k name p) (hkeeps : disk.KeepsDirectories disk') :
    Stages d disk' k name p where
  provides := h.provides.kept hkeeps
  proper := h.proper
  staged := h.staged
  target := h.target
  named := by
    rw [stagedPlace_of_here hkeeps.here]
    exact hkeeps.filePlace? h.named

section

variable (hconfined : Confined d touched disk disk') (hfree : ¬ touched (d.stagedPlace disk name k))
include hconfined hfree

theorem Holds.spared (h : Holds d disk k name p data) : Holds d disk' k name p data where
  toStages := h.toStages.kept hconfined.spares.keeps
  there := by
    rw [stagedPlace_of_here hconfined.spares.keeps.here]
    exact (hconfined.spares.file _ _ hfree).2 h.there
  content := by
    rw [hconfined.spares.body _ _ hfree h.there]
    exact h.content
  written := h.written

theorem Cleared.spared (h : Cleared d disk k name p) : Cleared d disk' k name p where
  toStages := h.toStages.kept hconfined.spares.keeps
  gone := by
    rw [stagedPlace_of_here hconfined.spares.keeps.here]
    exact hconfined.vacant h.provides _ hfree h.gone

end

/-- **The staged file is released.** -/
theorem Holds.release (h : Holds d disk k name p data) (ht : disk.Tidy) :
    Confined d (· = d.stagedPlace disk name k) disk (disk.discard p.staged) ∧
      Cleared d (disk.discard p.staged) k name p ∧ (disk.discard p.staged).Orphan p.file := by
  have hdiscards := ht.discard h.named h.there
  refine ⟨confined_of_others hdiscards.tidy hdiscards.spares hdiscards.others,
    ⟨h.toStages.kept hdiscards.spares.keeps, ?_⟩, hdiscards.orphan⟩
  rw [stagedPlace_of_here hdiscards.spares.keeps.here]
  exact hdiscards.gone

/-! ## Where a transaction stands -/

/-- What is left to be done of a transaction that is begun, and the number that it has taken. -/
inductive Begins (d : StagingDirectories) (disk : Disk) :
    Option UInt64 → Work (Except GatewayError StagedPackage) → Prop where
  | staging (label : Option String) : Begins d disk none (d.begin label)
  | install (label : Option String) (h : disk.Provided d.staging) :
      Begins d disk none (d.beginInstall label)
  | number (label : Option String) (h : d.Provides disk) : Begins d disk none (d.stage label)
  | opening (label : Option String) (k : UInt64) (h : d.Provides disk) :
      Begins d disk (some k) (d.openStaged label k)

theorem Begins.kept {job : Work (Except GatewayError StagedPackage)} (h : Begins d disk number job)
    (hkeeps : disk.KeepsDirectories disk') : Begins d disk' number job := by
  cases h with
  | staging label => exact .staging label
  | install label h => exact .install label (h.kept hkeeps)
  | number label h => exact .number label (h.kept hkeeps)
  | opening label k h => exact .opening label k (h.kept hkeeps)

/-- What is left to be done of a commit. -/
inductive Commits (p : StagedPackage) : Work (Except GatewayError Unit) → Prop where
  | syncing : Commits p (commit p)
  | moving : Commits p (moveStaged p)
  | releasing (e : GatewayError) : Commits p (.now (release p) fun _ => .done (.error e))

/-- **What the system may still do** for a transaction that has been dropped. -/
inductive Leftover (p : StagedPackage) :
    (Workspace StagingCounter → Workspace StagingCounter) → Prop where
  | writing (more : Bytes) :
      Leftover p fun w => { w with disk := w.disk.writeAt p.file p.written more }
  | syncing : Leftover p id
  | moving : Leftover p fun w =>
      (w.onDisk fun d => (d.rename p.staged p.target).map ((), ·)).2

/-- **Where a transaction stands on a disk**, with the number that it has taken. -/
inductive Stands (d : StagingDirectories) (disk : Disk) :
    Option UInt64 → Transaction → Prop where
  | beginning {number : Option UInt64} {job : Work (Except GatewayError StagedPackage)}
      (hjob : Begins d disk number job) : Stands d disk number (.beginning job)
  | refused {number : Option UInt64} : Stands d disk number .refused
  | held {k : UInt64} {name : String} {p : StagedPackage} {data : Bytes}
      (h : Holds d disk k name p data) : Stands d disk (some k) (.held p data)
  | writing {k : UInt64} {name : String} {p : StagedPackage} {data more : Bytes}
      {job : Work (Except GatewayError StagedPackage)} (h : Holds d disk k name p data)
      (hjob : job = write p more) : Stands d disk (some k) (.writing p data more job)
  | committing {k : UInt64} {name : String} {p : StagedPackage} {data : Bytes}
      {job : Work (Except GatewayError Unit)} (h : Holds d disk k name p data)
      (hjob : Commits p job) : Stands d disk (some k) (.committing p data job)
  | committed {k : UInt64} {name : String} {p : StagedPackage} {data : Bytes}
      (h : Cleared d disk k name p) : Stands d disk (some k) (.committed p data)
  | leaving {k : UInt64} {name : String} {p : StagedPackage}
      {effect : Workspace StagingCounter → Workspace StagingCounter}
      (h : Cleared d disk k name p) (horphan : disk.Orphan p.file) (heffect : Leftover p effect) :
      Stands d disk (some k) (.leaving p effect)
  | givenUp {k : UInt64} {name : String} {p : StagedPackage}
      (h : Cleared d disk k name p) : Stands d disk (some k) (.givenUp p)

/-- **A transaction stands where it stood** if its staged file is spared. -/
theorem Stands.spared (h : Stands d disk number t) (hconfined : Confined d touched disk disk')
    (hfree : ∀ k name, number = some k → ¬ touched (d.stagedPlace disk name k)) :
    Stands d disk' number t := by
  cases h with
  | beginning hjob => exact .beginning (hjob.kept hconfined.spares.keeps)
  | refused => exact .refused
  | held h => exact .held (h.spared hconfined (hfree _ _ rfl))
  | writing h hjob => exact .writing (h.spared hconfined (hfree _ _ rfl)) hjob
  | committing h hjob => exact .committing (h.spared hconfined (hfree _ _ rfl)) hjob
  | committed h => exact .committed (h.spared hconfined (hfree _ _ rfl))
  | leaving h horphan heffect =>
      exact .leaving (h.spared hconfined (hfree _ _ rfl)) (hconfined.spares.orphan _ horphan)
        heffect
  | givenUp h => exact .givenUp (h.spared hconfined (hfree _ _ rfl))

/-- The package of a transaction is staged under its number. -/
theorem Stands.stages (h : Stands d disk number t) (hp : t.package? = some p) :
    ∃ k name, number = some k ∧ Stages d disk k name p := by
  cases h with
  | beginning | refused => cases hp
  | held h | writing h _ | committing h _ | committed h | leaving h _ _ | givenUp h =>
      cases hp
      exact ⟨_, _, rfl, h.toStages⟩

/-- The staged file of a transaction that is over is gone. -/
theorem Stands.cleared (h : Stands d disk number t) (hp : t.package? = some p)
    (hr : t.isResolved = true) : ∃ k name, Cleared d disk k name p := by
  cases h with
  | beginning | refused | held | writing | committing => cases hr
  | committed h | leaving h _ _ | givenUp h =>
      cases hp
      exact ⟨_, _, h⟩

/-! ## One operation -/

/-- **What an operation of a transaction does.** It takes the next number, or works on the staged
file under the number that it has. -/
structure Advances (d : StagingDirectories) (w : Workspace StagingCounter) (number : Option UInt64)
    (w' : Workspace StagingCounter) (number' : Option UInt64) (t' : Transaction) : Prop where
  confined : Confined d (fun q => ∃ k name, number' = some k ∧ q = d.stagedPlace w.disk name k)
    w.disk w'.disk
  stands : Stands d w'.disk number' t'
  counts : (number' = number ∧ w'.installs = w.installs) ∨
    (number = none ∧ number' = some w.installs.next ∧ w'.installs = ⟨w.installs.next + 1⟩)

/-- Nothing happens on the disk. -/
theorem Advances.of_same (ht : w.disk.Tidy) (hs : Stands d w.disk number t') :
    Advances d w number w number t' :=
  ⟨.refl ht, hs, .inl ⟨rfl, rfl⟩⟩

/-- Only the own staged file is touched. -/
theorem Advances.of_own (hinstalls : w'.installs = w.installs)
    (hconfined : Confined d (· = d.stagedPlace w.disk name k) w.disk w'.disk)
    (hs : Stands d w'.disk (some k) t') : Advances d w (some k) w' (some k) t' where
  confined := hconfined.mono fun _ hq => ⟨k, name, rfl, hq⟩
  stands := hs
  counts := .inl ⟨rfl, hinstalls⟩

/-- Directories are made. -/
theorem advances_makeDirectories (ht : w.disk.Tidy) {path : String}
    (hpath : d.Provides w.disk → w.disk.Provided path)
    (hs : Stands d (w.disk.makeDirectories path).2 number t') :
    Advances d w number { w with disk := (w.disk.makeDirectories path).2 } number t' where
  confined := (confined_makeDirectories ht hpath).mono fun _ => False.elim
  stands := hs
  counts := .inl ⟨rfl, rfl⟩

/-- **The staged file is opened.** -/
theorem advances_openStaged (hprocess : '/' ∉ d.process.toList) (ht : w.disk.Tidy)
    (hprovides : d.Provides w.disk) (label : Option String) {opened : Nat × Disk}
    (h : w.disk.openForWriting .empty (d.stagedPath (packageName label k) k) = .ok opened) :
    Advances d w (some k) { w with disk := opened.2 } (some k)
      (.held ⟨d.stagedPath (packageName label k) k, d.targetPath (packageName label k),
        opened.1, 0⟩ []) := by
  obtain ⟨place, hempties⟩ := ht.openForWriting h
  have hproper := proper_packageName label k
  have hkeeps := hempties.spares.keeps
  have hplace : place = d.stagedPlace w.disk (packageName label k) k :=
    (Disk.filePlace?_join (proper_stagedName hprocess hproper) hempties.named).trans
      (stagedPlace_of_here hkeeps.here _ k)
  subst hplace
  refine .of_own rfl (confined_of_others hempties.tidy hempties.spares hempties.others) ?_
  have hthere := stagedPlace_of_here hkeeps.here (d := d) (packageName label k) k
  refine .held ⟨⟨hprovides.kept hkeeps, hproper, rfl, rfl, ?_⟩, ?_, hempties.empty, rfl⟩
  · rw [hthere]
    exact hempties.named
  · rw [hthere]
    exact hempties.there

/-- **A transaction that is begun goes on.** -/
theorem advances_begin (hprocess : '/' ∉ d.process.toList) (ht : w.disk.Tidy)
    {job job' : Work (Except GatewayError StagedPackage)} (hjob : Begins d w.disk number job)
    (h : job.step? w = some (job', w')) :
    ∃ number', Advances d w number w' number' (.ofBegin job') := by
  cases hjob with
  | staging label =>
      rw [begin_step?] at h
      cases h
      refine ⟨none, advances_makeDirectories ht And.left ?_⟩
      split
      · exact .refused
      · next hmade => exact .beginning (.install label (Disk.provided_of_made hmade))
  | install label hstaging =>
      rw [beginInstall_step?] at h
      cases h
      refine ⟨none, advances_makeDirectories ht And.right ?_⟩
      split
      · exact .refused
      · next hmade =>
        have hkeeps := (Disk.widens_makeDirectories w.disk d.install).1.keeps
        exact .beginning (.number label ⟨hstaging.kept hkeeps, Disk.provided_of_made hmade⟩)
  | number label hprovides =>
      rw [stage_step?] at h
      cases h
      exact ⟨some w.installs.next, .refl ht, .beginning (.opening label _ hprovides),
        .inr ⟨rfl, rfl, rfl⟩⟩
  | opening label k hprovides =>
      rw [openStaged_step?] at h
      split at h
      · cases h
        exact ⟨some k, .of_same ht .refused⟩
      · next opened disk hopen =>
        cases h
        exact ⟨some k, advances_openStaged hprocess ht hprovides label hopen⟩

/-- **Data is written to the staged file.** -/
theorem advances_write (ht : w.disk.Tidy) {more : Bytes}
    {job' : Work (Except GatewayError StagedPackage)} (hh : Holds d w.disk k name p data)
    (h : (write p more).step? w = some (job', w')) :
    Advances d w (some k) w' (some k) (.ofWrite p data more job') := by
  rw [write_step?] at h
  cases h
  have hspares := ht.spares_modifyBody hh.there
    fun b => ⟨Disk.splice b.data p.written more, w.disk.clock⟩
  refine .of_own rfl (confined_of_others (ht.modifyBody _ _) hspares fun _ _ => rfl) ?_
  have hstages := hh.toStages.kept hspares.keeps
  refine .held ⟨⟨hstages.provides, hstages.proper, hstages.staged, hstages.target, hstages.named⟩,
    hh.there, ?_, ?_⟩
  · show ((w.disk.modifyBody p.file _).body p.file).data = data ++ more
    rw [Disk.body_modifyBody _ _ _ (ht.made _ _ hh.there), if_pos rfl]
    show Disk.splice (w.disk.body p.file).data p.written more = data ++ more
    rw [hh.content, hh.written, Disk.splice_at_end]
  · show p.written + more.length = (data ++ more).length
    rw [hh.written, List.length_append]

/-- **A transaction is given up**, and its staged file is released. -/
theorem advances_release (ht : w.disk.Tidy) (hh : Holds d w.disk k name p data) :
    Advances d w (some k) (release p w) (some k) (.givenUp p) := by
  obtain ⟨hconfined, hcleared, -⟩ := hh.release ht
  exact .of_own rfl hconfined (.givenUp hcleared)

/-- **A transaction is dropped** while the system has something to do for it. -/
theorem advances_leave (ht : w.disk.Tidy) (hh : Holds d w.disk k name p data)
    {effect : Workspace StagingCounter → Workspace StagingCounter} (heffect : Leftover p effect) :
    Advances d w (some k) (release p w) (some k) (.leaving p effect) := by
  obtain ⟨hconfined, hcleared, horphan⟩ := hh.release ht
  exact .of_own rfl hconfined (.leaving hcleared horphan heffect)

/-- **What the system still does** for a transaction that has been dropped changes no file that
stands anywhere. -/
theorem advances_leftover (ht : w.disk.Tidy) (hc : Cleared d w.disk k name p)
    (horphan : w.disk.Orphan p.file)
    {effect : Workspace StagingCounter → Workspace StagingCounter} (heffect : Leftover p effect) :
    Advances d w (some k) (effect w) (some k) (.givenUp p) := by
  cases heffect with
  | writing more =>
      have hconfined : Confined d (fun _ => False) w.disk (w.disk.writeAt p.file p.written more) :=
        confined_of_others (ht.modifyBody _ _) (horphan.spares_modifyBody _) fun _ _ => rfl
      exact ⟨hconfined.mono fun _ => False.elim, .givenUp (hc.spared hconfined id),
        .inl ⟨rfl, rfl⟩⟩
  | syncing => exact .of_same ht (.givenUp hc)
  | moving =>
      obtain ⟨e, hrefused⟩ := Disk.rename_of_nothing hc.named hc.gone p.target
      show Advances d w (some k) (w.onDisk _).2 (some k) (.givenUp p)
      rw [Workspace.onDisk, hrefused]
      exact .of_same ht (.givenUp hc)

/-- **A package is installed**: its staged file is gone, and its data stands under its name. -/
structure Installed (d : StagingDirectories) (w : Workspace StagingCounter) (k : UInt64)
    (name : String) (p : StagedPackage) (data : Bytes) (w' : Workspace StagingCounter) : Prop where
  confined : Confined d
    (fun q => q = d.stagedPlace w.disk name k ∨ q = d.installPlace w.disk name) w.disk w'.disk
  cleared : Cleared d w'.disk k name p
  content : w'.disk.content? (d.installPlace w.disk name) = some data
  installs : w'.installs = w.installs

theorem installed_of_rename (hdirs : w.disk.placeOf d.staging ≠ w.disk.placeOf d.install)
    (ht : w.disk.Tidy) (hh : Holds d w.disk k name p data)
    (h : w.disk.rename p.staged p.target = .ok disk') :
    Installed d w k name p data { w with disk := disk' } := by
  obtain ⟨new, hmoves⟩ := ht.rename hh.named hh.there h
  have hkeeps := hmoves.spares.keeps
  have hnew : new = d.installPlace w.disk name := by
    have hnamed := hmoves.named
    rw [hh.target] at hnamed
    exact (Disk.filePlace?_join hh.proper hnamed).trans (installPlace_of_here hkeeps.here name)
  subst hnew
  refine ⟨confined_of_others hmoves.tidy hmoves.spares fun q hq => ?_,
    ⟨hh.toStages.kept hkeeps, ?_⟩, ?_, rfl⟩
  · rw [not_or] at hq
    exact hmoves.others q hq.1 hq.2
  · rw [stagedPlace_of_here hkeeps.here]
    exact hmoves.gone.resolve_left fun hsame => installPlace_ne hdirs hsame.symm
  · show disk'.content? _ = some data
    have hbody : disk'.body p.file = w.disk.body p.file := by
      rw [Disk.body, Disk.body, hmoves.bodies]
    unfold Disk.content?
    rw [hmoves.there]
    show some (disk'.body p.file).data = some data
    rw [hbody, hh.content]

/-- **A commit goes on**: the package is installed, or nothing but the staged file is touched. -/
theorem commit_cases (hdirs : w.disk.placeOf d.staging ≠ w.disk.placeOf d.install)
    (ht : w.disk.Tidy) {job job' : Work (Except GatewayError Unit)}
    (hh : Holds d w.disk k name p data) (hjob : Commits p job)
    (h : job.step? w = some (job', w')) :
    (Installed d w k name p data w' ∧ job' = .done (.ok ())) ∨
      (Advances d w (some k) w' (some k) (.ofCommit p data job') ∧
        Installs.record p data job' = []) := by
  cases hjob with
  | syncing =>
      rw [commit_step?] at h
      cases h
      exact .inr ⟨.of_same ht (.committing hh .moving), rfl⟩
  | moving =>
      rw [moveStaged_step?] at h
      split at h
      · next e _ =>
        cases h
        exact .inr ⟨.of_same ht (.committing hh (.releasing _)), rfl⟩
      · next disk hrename =>
        cases h
        exact .inl ⟨installed_of_rename hdirs ht hh hrename, rfl⟩
  | releasing e =>
      cases h
      exact .inr ⟨advances_release ht hh, rfl⟩

/-- A commit that is waiting for the system may be dropped, and releases the staged file then. -/
theorem leftover_of_commits {effect free : Workspace StagingCounter → Workspace StagingCounter}
    {next : Workspace StagingCounter → Work (Except GatewayError Unit)}
    (h : Commits p (.blocking effect free next)) : Leftover p effect ∧ free = release p := by
  generalize hjob : Job.blocking effect free next = job at h
  cases h with
  | syncing =>
      cases hjob
      exact ⟨.syncing, rfl⟩
  | moving =>
      cases hjob
      exact ⟨.moving, rfl⟩
  | releasing e => cases hjob

theorem leftover_of_write {effect free : Workspace StagingCounter → Workspace StagingCounter}
    {next : Workspace StagingCounter → Work (Except GatewayError StagedPackage)} {more : Bytes}
    (h : Job.blocking effect free next = write p more) : Leftover p effect ∧ free = id := by
  cases h
  exact ⟨.writing more, rfl⟩

end DeviceGateway.StagingDirectories
