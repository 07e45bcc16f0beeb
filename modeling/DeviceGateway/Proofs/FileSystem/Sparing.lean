import DeviceGateway.Proofs.FileSystem.Elsewhere
import DeviceGateway.Proofs.FileSystem.Newcomers

/-!
# Which files an operation touches

On a disk as the system keeps it (`Tidy`), every operation touches the files at one place or two,
and spares all others: they stand where they stood, and hold what they held (`Spares`). Opening a
path touches its own place, and so does writing and discarding; renaming touches the places of both
paths; making directories touches no file at all.
-/

namespace DeviceGateway.Disk

variable {d d' d'' : Disk} {path : String} {place q : Place} {n : Nat}
  {touched touched' : Place → Prop}

/-! ## Tidy disks -/

/-- **No file stands at two places.** -/
def Unlinked (d : Disk) : Prop :=
  ∀ q q' n, d.node? q = some (.file n) → d.node? q' = some (.file n) → q = q'

/-- **A disk as the system keeps it.** Everything stands in a directory, and each file has been made
and stands at one place. -/
structure Tidy (d : Disk) : Prop where
  standing : d.Standing
  made : d.Made
  unlinked : d.Unlinked

theorem tidy_ofClock (seconds : Int) : (ofClock seconds).Tidy := by
  refine ⟨standing_ofClock seconds, made_ofClock seconds, ?_⟩
  intro q q' n h
  exact (nothingNew_ofClock (fun _ _ => False) seconds q n h).elim

/-- A disk without new files stays tidy. -/
theorem Tidy.of_files (ht : d.Tidy) (hs : d'.Standing) (hb : d.bodies.length ≤ d'.bodies.length)
    (hfiles : ∀ q n, d'.node? q = some (.file n) → d.node? q = some (.file n)) : d'.Tidy where
  standing := hs
  made q n h := Nat.lt_of_lt_of_le (ht.made q n (hfiles q n h)) hb
  unlinked q q' n h h' := ht.unlinked q q' n (hfiles q n h) (hfiles q' n h')

/-! ## What is spared -/

/-- **A file that stands nowhere.** It was made, and its name has been taken away. -/
structure Orphan (d : Disk) (n : Nat) : Prop where
  made : n < d.bodies.length
  nowhere : ∀ q, d.node? q ≠ some (.file n)

/-- **The files at all but some places are spared.** Directories stay, and others may come. A file
that stands nowhere never gets a name again. -/
structure Spares (touched : Place → Prop) (d d' : Disk) : Prop where
  keeps : KeepsDirectories d d'
  file : ∀ q n, ¬ touched q → (d'.node? q = some (.file n) ↔ d.node? q = some (.file n))
  body : ∀ q n, ¬ touched q → d.node? q = some (.file n) → d'.body n = d.body n
  orphan : ∀ n, d.Orphan n → d'.Orphan n

theorem Orphan.of_files (h : d.Orphan n) (hb : d.bodies.length ≤ d'.bodies.length)
    (hfiles : ∀ q m, d'.node? q = some (.file m) → ∃ q', d.node? q' = some (.file m)) :
    d'.Orphan n where
  made := Nat.lt_of_lt_of_le h.made hb
  nowhere q hq := by
    obtain ⟨q', hq'⟩ := hfiles q n hq
    exact h.nowhere q' hq'

namespace Spares

theorem refl (touched : Place → Prop) (d : Disk) : Spares touched d d :=
  ⟨.refl d, fun _ _ _ => Iff.rfl, fun _ _ _ _ => rfl, fun _ => id⟩

theorem mono (h : Spares touched d d') (hmore : ∀ q, touched q → touched' q) :
    Spares touched' d d' where
  keeps := h.keeps
  file q n hq := h.file q n fun ht => hq (hmore q ht)
  body q n hq := h.body q n fun ht => hq (hmore q ht)
  orphan := h.orphan

theorem trans (h : Spares touched d d') (h' : Spares touched d' d'') : Spares touched d d'' where
  keeps := h.keeps.trans h'.keeps
  file q n hq := (h'.file q n hq).trans (h.file q n hq)
  body q n hq hn := (h'.body q n hq ((h.file q n hq).2 hn)).trans (h.body q n hq hn)
  orphan n hn := h'.orphan n (h.orphan n hn)

/-- **What a spared file holds**, if there is one. -/
theorem content? (h : Spares touched d d') (hq : ¬ touched q) : d'.content? q = d.content? q := by
  unfold Disk.content?
  cases hn : d.node? q with
  | some node =>
      cases node with
      | file n =>
          rw [(h.file q n hq).2 hn]
          show some (d'.body n).data = some (d.body n).data
          rw [h.body q n hq hn]
      | directory t => rw [h.keeps.directory q t hn]
  | none =>
      cases hn' : d'.node? q with
      | none => rfl
      | some node =>
          cases node with
          | directory t => rfl
          | file n => cases hn.symm.trans ((h.file q n hq).1 hn')

end Spares

theorem SameBut.spares (h : SameBut place d d') (horphan : ∀ n, d.Orphan n → d'.Orphan n) :
    Spares (· = place) d d' where
  keeps := h.directories.keeps
  file q n hq := by rw [h.node q hq]
  body := h.body
  orphan := horphan

/-! ## Opening, writing and discarding -/

/-- **What opening a path for new data does**: there is an empty file at its place, and all others
are spared. -/
structure Empties (d : Disk) (path : String) (place : Place) (n : Nat) (d' : Disk) : Prop where
  named : d'.filePlace? path = some place
  there : d'.node? place = some (.file n)
  empty : (d'.body n).data = []
  tidy : d'.Tidy
  spares : Spares (· = place) d d'
  others : ∀ q, q ≠ place → d'.node? q = d.node? q

theorem Tidy.modifyBody (ht : d.Tidy) (n : Nat) (f : FileBody → FileBody) :
    (d.modifyBody n f).Tidy :=
  ht.of_files (ht.standing.modifyBody n f) (Nat.le_of_eq (length_modifyBody d n f).symm)
    fun _ _ h => h

theorem Orphan.modifyBody (h : d.Orphan n) (k : Nat) (f : FileBody → FileBody) :
    (d.modifyBody k f).Orphan n :=
  h.of_files (Nat.le_of_eq (length_modifyBody d k f).symm) fun q _ hq => ⟨q, hq⟩

theorem Tidy.spares_modifyBody (ht : d.Tidy) (hn : d.node? place = some (.file n))
    (f : FileBody → FileBody) : Spares (· = place) d (d.modifyBody n f) :=
  (sameBut_modifyBody (ht.made place n hn) (fun q hq h => hq (ht.unlinked q place n h hn)) f).spares
    fun _ hk => hk.modifyBody n f

/-- **What is written to a file that stands nowhere** is written to no file that stands. -/
theorem Orphan.spares_modifyBody (h : d.Orphan n) (f : FileBody → FileBody) :
    Spares (fun _ => False) d (d.modifyBody n f) where
  keeps := (sameDirectories_modifyBody d n f).keeps
  file _ _ _ := Iff.rfl
  body q k _ hk := by
    rw [body_modifyBody d k f h.made, if_neg]
    rintro rfl
    exact h.nowhere q hk
  orphan _ hk := hk.modifyBody n f

theorem empties_makeFile (ht : d.Tidy) (hp : d.filePlace? path = some place)
    (hn : d.node? place = none) : d.Empties path place d.bodies.length (d.makeFile place).2 := by
  have hopens := opens_makeFile ht.standing hp hn
  have hfree : ∀ m, d.node? place ≠ some (.directory m) := by
    intro m hm
    cases hn.symm.trans hm
  have hsame := sameBut_makeFile ht.made hfree
  -- No file that was there has the number of the new one, whether it stood anywhere or not.
  have horphan : ∀ m, d.Orphan m → (d.makeFile place).2.Orphan m := by
    intro m hm
    refine ⟨Nat.lt_of_lt_of_le hm.made ?_, fun q hq => ?_⟩
    · rw [length_makeFile]
      exact Nat.le_succ _
    · rw [node?_makeFile] at hq
      split at hq
      · cases hq
        exact Nat.lt_irrefl _ hm.made
      · exact hm.nowhere q hq
  have hnew : ∀ q, q ≠ place → (d.makeFile place).2.node? q ≠ some (.file d.bodies.length) := by
    intro q hq h
    exact Nat.lt_irrefl _ (ht.made q _ (hopens.oneNew.others q _ hq h))
  refine ⟨hopens.named, hopens.oneNew.there, by rw [body_makeFile_new],
    ⟨hopens.standing, ht.made.makeFile place, ?_⟩, hsame.spares horphan, hsame.node⟩
  intro q q' m h h'
  by_cases hq : q = place
  · subst hq
    cases hopens.oneNew.there.symm.trans h
    by_cases hq' : q' = q
    · exact hq'.symm
    · exact absurd h' (hnew q' hq')
  · by_cases hq' : q' = place
    · subst hq'
      cases hopens.oneNew.there.symm.trans h'
      exact absurd h (hnew q hq)
    · exact ht.unlinked q q' m (hopens.oneNew.others q m hq h) (hopens.oneNew.others q' m hq' h')

/-- **Opening a path for new data.** -/
theorem Tidy.openForWriting (ht : d.Tidy) (h : d.openForWriting .empty path = .ok (n, d')) :
    ∃ place, d.Empties path place n d' := by
  have hmode : OpenMode.empty ≠ .keep := nofun
  obtain ⟨place, hp, hcases⟩ := openForWriting_cases ht.standing.rooted hmode h
  refine ⟨place, ?_⟩
  rcases hcases with ⟨hn, hmade⟩ | ⟨-, hn, rfl⟩
  · cases hmade
    exact empties_makeFile ht hp hn
  · refine ⟨(filePlace?_of_same (sameDirectories_modifyBody d n _) path).trans hp, hn, ?_,
      ht.modifyBody n _, ht.spares_modifyBody hn _, fun _ _ => rfl⟩
    rw [body_modifyBody d n _ (ht.made place n hn), if_pos rfl]

/-- **What discarding the path of a file does**: its name is gone, and all others are spared. -/
structure Discards (d : Disk) (place : Place) (n : Nat) (d' : Disk) : Prop where
  gone : d'.node? place = none
  orphan : d'.Orphan n
  tidy : d'.Tidy
  spares : Spares (· = place) d d'
  others : ∀ q, q ≠ place → d'.node? q = d.node? q

theorem Tidy.discard (ht : d.Tidy) (hp : d.filePlace? path = some place)
    (hn : d.node? place = some (.file n)) : d.Discards place n (d.discard path) := by
  have hfile : ∀ m, d.node? place ≠ some (.directory m) := by
    intro m hm
    cases hn.symm.trans hm
  have hbodies : d.bodies.length = (d.discard path).bodies.length :=
    congrArg List.length (bodies_discard d path).symm
  have htidy := ht.of_files (ht.standing.discard path) (Nat.le_of_eq hbodies)
    (nothingNew_discard d path)
  have horphan : ∀ m, d.Orphan m → (d.discard path).Orphan m := fun m hm =>
    hm.of_files (Nat.le_of_eq hbodies) fun q k hk => ⟨q, nothingNew_discard d path q k hk⟩
  rw [discard_of_file hp hn] at htidy horphan ⊢
  have hsame := sameBut_erase hfile
  have hgone : (d.erase place).node? place = none := by
    rw [node?_erase, if_pos ⟨rfl, ne_root_of_filePlace? hp⟩]
  refine ⟨hgone, ⟨ht.made place n hn, fun q hq => ?_⟩, htidy, hsame.spares horphan, hsame.node⟩
  -- The file stood at no other place.
  by_cases hqp : q = place
  · rw [hqp, hgone] at hq
    cases hq
  · rw [hsame.node q hqp] at hq
    exact hqp (ht.unlinked q place n hq hn)

/-! ## Renaming -/

theorem bodies_rename {source target : String} (h : d.rename source target = .ok d') :
    d'.bodies = d.bodies := by
  obtain ⟨s, t, old, new, node, -, -, hren⟩ := renaming_of_rename h
  obtain ⟨there, -, ⟨-, rfl⟩ | ⟨-, -, rfl⟩⟩ := hren.result
  · rfl
  · rfl

/-- **What renaming a file does**: it stands under its new path and nowhere else, and all files but
the one that it replaces are spared. -/
structure Moves (d : Disk) (target : String) (old new : Place) (n : Nat) (d' : Disk) : Prop where
  named : d'.filePlace? target = some new
  there : d'.node? new = some (.file n)
  gone : old = new ∨ d'.node? old = none
  bodies : d'.bodies = d.bodies
  tidy : d'.Tidy
  spares : Spares (fun q => q = old ∨ q = new) d d'
  others : ∀ q, q ≠ old → q ≠ new → d'.node? q = d.node? q

theorem Tidy.rename (ht : d.Tidy) {source target : String} {old : Place}
    (hold : d.filePlace? source = some old) (hn : d.node? old = some (.file n))
    (h : d.rename source target = .ok d') : ∃ new, d.Moves target old new n d' := by
  have hr := renames_of_rename ht.standing hold hn h
  obtain ⟨old', new, hold', hnamed, hthere, hgone, hothers⟩ := hr.moved
  cases hold'.symm.trans hold
  have hbodies := bodies_rename h
  -- A file that stands now stood before, at its own place or at the old one.
  have hbefore : ∀ q m, d'.node? q = some (.file m) →
      d.node? (if q = new then old else q) = some (.file m) := by
    intro q m hq
    split
    · next hnew =>
      subst hnew
      cases hthere.symm.trans hq
      exact hn
    · next hnew =>
      by_cases hqo : q = old
      · rcases hgone with rfl | hgone
        · exact absurd hqo hnew
        · rw [hqo, hgone] at hq
          cases hq
      · rwa [← hothers q hqo hnew]
  refine ⟨new, hnamed, hthere, hgone, hbodies, ⟨hr.standing, ?_, ?_⟩,
    ⟨hr.sameDirectories.keeps, ?_, ?_, ?_⟩, hothers⟩
  · intro q m hq
    rw [hbodies]
    exact ht.made _ m (hbefore q m hq)
  · intro q q' m hq hq'
    have hplaces := ht.unlinked _ _ m (hbefore q m hq) (hbefore q' m hq')
    split at hplaces
    · next hnew =>
      split at hplaces
      · next hnew' => rw [hnew, hnew']
      · next hnew' =>
        rcases hgone with rfl | hgone
        · exact absurd hplaces.symm hnew'
        · rw [← hplaces, hgone] at hq'
          cases hq'
    · next hnew =>
      split at hplaces
      · next hnew' =>
        rcases hgone with rfl | hgone
        · exact absurd hplaces hnew
        · rw [hplaces, hgone] at hq
          cases hq
      · exact hplaces
  · intro q m hq
    rw [not_or] at hq
    rw [hothers q hq.1 hq.2]
  · intro q m _ _
    rw [body, body, hbodies]
  · intro m hm
    exact hm.of_files (Nat.le_of_eq (by rw [hbodies])) fun q k hk => ⟨_, hbefore q k hk⟩

/-! ## Making directories -/

/-- **No file is touched**, and none is made. -/
def Widens (d d' : Disk) : Prop := Spares (fun _ => False) d d' ∧ d'.bodies = d.bodies

theorem Widens.refl (d : Disk) : d.Widens d := ⟨.refl _ d, rfl⟩

theorem Widens.trans (h : d.Widens d') (h' : d'.Widens d'') : d.Widens d'' :=
  ⟨h.1.trans h'.1, h'.2.trans h.2⟩

theorem widens_makeDirectory (h : d.makeDirectory path = .ok d') : d.Widens d' := by
  obtain ⟨t, name, -, -, hl, rfl⟩ := makeDirectory_eq h
  have hn := node?_of_look hl
  have hfiles : ∀ q n, (d.put (t.dir ++ [name]) (.directory d.clock)).node? q = some (.file n) ↔
      d.node? q = some (.file n) := by
    intro q n
    rw [node?_put]
    split
    · next hq =>
      rw [hq.1, hn]
      exact ⟨nofun, nofun⟩
    · exact Iff.rfl
  refine ⟨⟨⟨rfl, ?_⟩, fun q n _ => hfiles q n, fun _ _ _ _ => rfl, ?_⟩, rfl⟩
  · intro q t hq
    rw [node?_put, if_neg]
    · exact hq
    · rintro ⟨rfl, -⟩
      cases hn.symm.trans hq
  · intro m hm
    exact hm.of_files (Nat.le_refl _) fun q k hk => ⟨q, (hfiles q k).1 hk⟩

theorem widens_makeInOrder (d : Disk) (paths : List String) : d.Widens (d.makeInOrder paths).2 :=
  related_makeInOrder Widens.refl (fun _ _ _ => Widens.trans) d paths
    fun _ _ _ _ => widens_makeDirectory

/-- **Making a directory and all above it** touches no file. -/
theorem widens_makeDirectories (d : Disk) (path : String) :
    d.Widens (d.makeDirectories path).2 :=
  related_makeDirectories Widens.refl (fun _ _ _ => Widens.trans) d path
    fun _ _ _ _ => widens_makeDirectory

theorem Tidy.of_widens (ht : d.Tidy) (h : d.Widens d') (hs : d'.Standing) : d'.Tidy := by
  obtain ⟨hspares, hbodies⟩ := h
  refine ht.of_files hs ?_ ?_
  · exact Nat.le_of_eq (congrArg List.length hbodies.symm)
  · exact fun q n h => (hspares.file q n id).1 h

theorem Tidy.makeDirectories (ht : d.Tidy) (path : String) : (d.makeDirectories path).2.Tidy :=
  ht.of_widens (widens_makeDirectories d path) (grows_makeDirectories ht.standing path).standing

end DeviceGateway.Disk
