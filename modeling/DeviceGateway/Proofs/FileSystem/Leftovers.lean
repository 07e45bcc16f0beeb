import DeviceGateway.FileSystem.Copy
import DeviceGateway.Proofs.FileSystem.Below
import DeviceGateway.Proofs.FileSystem.Provided

/-!
# What operations in steps leave when they fail

Some operations on the disk are done in steps, and a step that is refused does not undo the ones
before it. Making a directory and all above it leaves the directories that were made
(`widens_makeDirectories`). A copy of a tree leaves what has been copied, and nothing is lost by it
(`adds_copyTree`). Removing a tree leaves the directory without what was in it, but only under a path
that does not end in a name: the directory can then not be removed (`removeTree_of_fault`).

For taking away what stands below a directory may cut off the path of the directory, and puts
nothing in its way (`Thins.locate`).
-/

namespace DeviceGateway.Disk

variable {d d' d'' : Disk} {path : String} {place q : Place} {t : Target}

/-! ## Removing a tree -/

/-- **Nothing has come**: what stands somewhere stood there before. -/
structure Thins (d d' : Disk) : Prop where
  here : d'.here = d.here
  node : ∀ q, d'.node? q = d.node? q ∨ d'.node? q = none

namespace Thins

theorem walk (h : d.Thins d') {names : List String} {dir : Place}
    (hw : d.walk dir names = .ok place) :
    d'.walk dir names = .ok place ∨ d'.walk dir names = .error .missing := by
  induction names generalizing dir with
  | nil => exact .inl hw
  | cons name rest ih =>
      by_cases hsame : name = "."
      · subst hsame
        exact ih hw
      · by_cases hup : name = ".."
        · subst hup
          exact ih hw
        · obtain ⟨hfits, ⟨m, hm⟩, hrest⟩ := (walk_name_eq_ok hsame hup).1 hw
          rcases h.node (dir ++ [name]) with hthere | hgone
          · rw [walk_name_of_directory hsame hup hfits (hthere.trans hm)]
            exact ih hrest
          · exact .inr (walk_name_of_nothing hsame hup hfits hgone)

/-- **A path leads where it led**, or is cut off. -/
theorem locate (h : d.Thins d') (ht : d.locate path = .ok t) :
    d'.locate path = .ok t ∨ d'.locate path = .error .missing := by
  have hl := locate_eq_ok.1 ht
  obtain ⟨m, hm⟩ := hl.directory
  have hw := h.walk hl.walk
  rw [← h.here] at hw
  -- The walk comes as far as it did, and a directory is there; otherwise the path is cut off.
  by_cases hok : d'.Located path t
  · exact .inl (locate_eq_ok.2 hok)
  · right
    unfold Disk.locate
    rw [if_neg (by rw [hl.whole]; exact Bool.false_ne_true), if_neg hl.nonempty,
      if_neg (Nat.not_le.2 hl.short)]
    dsimp only
    rcases hw with hw | hw
    · rw [hw]
      rcases h.node t.dir with hthere | hgone
      · exact absurd { hl with walk := hw, directory := ⟨m, hthere.trans hm⟩ } hok
      · dsimp only
        rw [hgone]
    · rw [hw]

end Thins

/-- What is kept when a place is cleared. -/
theorem kept_iff : (!(place.isPrefixOf q && q != place)) = true ↔ ¬ (place <+: q ∧ q ≠ place) := by
  rw [← List.isPrefixOf_iff_prefix, ← bne_iff_ne, ← Bool.and_eq_true, Bool.not_eq_true',
    Bool.not_eq_true]

/-- What stands where after a place has been cleared. -/
theorem node?_clear (d : Disk) (place q : Place) :
    (d.clear place).node? q = if place <+: q ∧ q ≠ place then none else d.node? q := by
  unfold node?
  by_cases hq : q = []
  · rw [if_pos hq, if_neg, if_pos hq]
    · rfl
    · rintro ⟨hp, hne⟩
      rw [hq] at hp hne
      exact hne (List.prefix_nil.1 hp).symm
  · rw [if_neg hq, if_neg hq]
    refine (lookup_filter d.nodes (fun p => !(place.isPrefixOf p && p != place)) q).trans ?_
    by_cases hp : place <+: q ∧ q ≠ place
    · rw [if_pos hp, if_neg (fun h => kept_iff.1 h hp)]
    · rw [if_neg hp, if_pos (kept_iff.2 hp)]

theorem thins_clear (d : Disk) (place : Place) : d.Thins (d.clear place) := by
  refine ⟨rfl, fun q => ?_⟩
  rw [node?_clear]
  split
  · exact .inr rfl
  · exact .inl rfl

/-- Nothing is left in a place that has been cleared. -/
theorem childrenAt_clear (d : Disk) (place : Place) : (d.clear place).childrenAt place = [] := by
  unfold childrenAt
  rw [List.filterMap_eq_nil_iff]
  rintro ⟨p, node⟩ hmem
  have hkept := (List.mem_filter.1 hmem).2
  dsimp only at hkept ⊢
  split
  · next name hlast =>
    rw [if_neg]
    intro hdrop
    obtain ⟨front, rfl⟩ := List.getLast?_eq_some_iff.1 hlast
    rw [List.dropLast_concat] at hdrop
    rw [hdrop] at hkept
    exact kept_iff.1 hkept ⟨⟨[name], rfl⟩, by simp⟩
  · rfl

/-- **A directory that was cleared and could not be removed**, as its path does not end in a name. -/
structure ClearsOut (d : Disk) (path : String) (place : Place) (d' : Disk) : Prop where
  directory : ∃ m, d.find path = .ok (place, .directory m)
  unnamed : ∀ t, d.locate path = .ok t → ∀ name, t.last ≠ .name name
  cleared : d' = d.clear place

/-- A directory with a name can be removed once it is cleared. -/
theorem removeEmpty_of_clear {m : Int} {name : String} (ht : d.locate path = .ok t)
    (hl : d.look t = .ok (place, some (.directory m))) (hname : t.last = .name name) :
    (∃ d', (d.clear place).removeEmpty path = .ok d') ∨
      (d.clear place).removeEmpty path = .error .missing := by
  have hlook := look_elsewhere hl (d.clear place)
  rw [node?_clear, if_neg (fun h => h.2 rfl), node?_of_look hl] at hlook
  unfold removeEmpty
  rcases (thins_clear d place).locate ht with ht' | ht'
  · left
    rw [ht']
    dsimp only
    rw [hname]
    dsimp only
    rw [hlook]
    dsimp only
    rw [childrenAt_clear]
    exact ⟨_, rfl⟩
  · right
    rw [ht']

/-- **What is left when a tree cannot be removed**: all of it, or a directory without a name that was
cleared. -/
theorem removeTree_of_fault {e : FileFault} (h : d.removeTree path = (some e, d')) :
    d' = d ∨ ∃ place, d.ClearsOut path place d' := by
  unfold removeTree at h
  split at h
  · cases h
    exact .inl rfl
  · cases h
    exact .inl rfl
  · next place m hf =>
    obtain ⟨t, ht, hl⟩ := find_directory_iff.1 hf
    dsimp only at h
    refine .inr ⟨place, ⟨m, hf⟩, ?_, ?_⟩
    · -- Under a name the directory would have been removed.
      intro t' ht' name hname
      cases ht.symm.trans ht'
      rcases removeEmpty_of_clear ht hl hname with ⟨d₁, hremoved⟩ | hmissing
      · rw [hremoved] at h
        cases h
      · rw [hmissing] at h
        cases h
    · split at h
      · cases h
      · cases h
      · cases h
        rfl

/-! ## Copying a tree -/

/-- **Nothing is lost**: what stood somewhere stands there, and every file holds what it held. -/
structure Adds (d d' : Disk) : Prop where
  here : d'.here = d.here
  node : ∀ q node, d.node? q = some node → d'.node? q = some node
  body : ∀ (n : Nat) (b : FileBody), d.bodies[n]? = some b → d'.bodies[n]? = some b

theorem Adds.refl (d : Disk) : d.Adds d := ⟨rfl, fun _ _ h => h, fun _ _ h => h⟩

theorem Adds.trans (h : d.Adds d') (h' : d'.Adds d'') : d.Adds d'' where
  here := h'.here.trans h.here
  node q node hq := h'.node q node (h.node q node hq)
  body n b hb := h'.body n b (h.body n b hb)

theorem Widens.adds (h : d.Widens d') : d.Adds d' := by
  obtain ⟨hspares, hbodies⟩ := h
  refine ⟨hspares.keeps.here, ?_, ?_⟩
  · intro q node hq
    cases node with
    | directory m => exact hspares.keeps.directory q m hq
    | file n => exact (hspares.file q n id).2 hq
  · intro n b hb
    rwa [hbodies]

/-- **A path under which nothing is found** is opened for writing by making a file where the path
says, and then the file is found there. -/
theorem openForWriting_of_absent {mode : OpenMode} {n : Nat} (hfree : d.pathExists path = false)
    (h : d.openForWriting mode path = .ok (n, d')) :
    d.node? (d.placeOf path) = none ∧ (n, d') = d.makeFile (d.placeOf path) ∧
      d'.find path = .ok (d.placeOf path, .file n) := by
  obtain ⟨t, ht, hslash, hopening⟩ := opening_of_openForWriting h
  cases hopening with
  | made hl =>
      obtain rfl := place_of_look ht hl
      have hnothing := node?_of_look hl
      have hroot : d.placeOf path ≠ [] := by
        intro hroot
        rw [hroot, node?_root] at hnothing
        cases hnothing
      have hkeeps : KeepsDirectories d (d.makeFile (d.placeOf path)).2 := by
        refine (sameDirectories_makeFile fun m hm => ?_).keeps
        cases hnothing.symm.trans hm
      have hfound := look_elsewhere hl (d.makeFile (d.placeOf path)).2
      rw [node?_makeFile, if_pos ⟨rfl, hroot⟩] at hfound
      refine ⟨hnothing, rfl, ?_⟩
      simp only [find, hkeeps.locate ht, hfound, hslash, Bool.false_eq_true, if_false]
  | @kept place n hl | @emptied place n hl =>
      have hfound : d.find path = .ok (place, .file n) := by
        simp only [find, ht, hl, hslash, Bool.false_eq_true, if_false]
      rw [pathExists, hfound] at hfree
      cases hfree

theorem adds_storeData {data : Bytes} (hfree : d.pathExists path = false)
    (h : d.storeData path data = .ok d') : d.Adds d' := by
  unfold storeData at h
  split at h
  · cases h
  · next n d₁ hopen =>
    cases h
    obtain ⟨hnone, hmade, -⟩ := openForWriting_of_absent hfree hopen
    cases hmade
    refine ⟨rfl, ?_, ?_⟩
    · intro q node hq
      show (d.makeFile (d.placeOf path)).2.node? q = some node
      rw [node?_makeFile, if_neg]
      · exact hq
      · rintro ⟨rfl, -⟩
        cases hnone.symm.trans hq
    · intro k b hk
      -- The file that is written is the last one, so it is none of those before.
      have hlt : k < d.bodies.length := (List.getElem?_eq_some_iff.1 hk).1
      show ((d.bodies ++ ([⟨[], d.clock⟩] : List FileBody)).modify d.bodies.length _)[k]? = some b
      rw [List.getElem?_modify_ne _ _ (Nat.ne_of_gt hlt), List.getElem?_append_left hlt, hk]

theorem adds_copyFile {source target : String} (hfree : d.pathExists target = false)
    (h : d.copyFile source target = .ok d') : d.Adds d' := by
  unfold copyFile at h
  split at h
  · cases h
  · exact adds_storeData hfree h

section

variable (d : Disk) (source target : String)

theorem copyDirectories_of_exists {path : String} (rest : List String)
    (hthere : d.pathExists (counterpart source target path) = true) :
    d.copyDirectories source target (path :: rest) = d.copyDirectories source target rest := by
  delta copyDirectories
  exact if_pos hthere

theorem copyDirectories_of_made {d' : Disk} {path : String} (rest : List String)
    (hfree : ¬ d.pathExists (counterpart source target path) = true)
    (hmade : d.makeDirectory (counterpart source target path) = .ok d') :
    d.copyDirectories source target (path :: rest) = d'.copyDirectories source target rest := by
  delta copyDirectories
  apply (if_neg hfree).trans
  rw [hmade]

theorem copyDirectories_of_fault {e : FileFault} {path : String} (rest : List String)
    (hfree : ¬ d.pathExists (counterpart source target path) = true)
    (hfault : d.makeDirectory (counterpart source target path) = .error e) :
    d.copyDirectories source target (path :: rest) = (some e.message, d) := by
  delta copyDirectories
  apply (if_neg hfree).trans
  rw [hfault]

theorem adds_copyDirectories (paths : List String) :
    d.Adds (d.copyDirectories source target paths).2 := by
  induction paths generalizing d with
  | nil => exact .refl d
  | cons path rest ih =>
      by_cases hfree : d.pathExists (counterpart source target path) = true
      · rw [copyDirectories_of_exists d source target rest hfree]
        exact ih d
      · cases hmade : d.makeDirectory (counterpart source target path) with
        | ok d₁ =>
            rw [copyDirectories_of_made d source target rest hfree hmade]
            exact (widens_makeDirectory hmade).adds.trans (ih d₁)
        | error e =>
            rw [copyDirectories_of_fault d source target rest hfree hmade]
            exact .refl d

theorem adds_copyFiles (paths : List String) : d.Adds (d.copyFiles source target paths).2 := by
  induction paths generalizing d with
  | nil => exact .refl d
  | cons path rest ih =>
      unfold copyFiles
      dsimp only
      split
      · exact .refl d
      · split
        · exact .refl d
        · split
          · exact .refl d
          · next hfree =>
            split
            · next d₁ hcopied =>
              exact (adds_copyFile (eq_false_of_ne_true hfree) hcopied).trans (ih d₁)
            · exact .refl d

theorem adds_copyContents : d.Adds (d.copyContents source target).2 := by
  unfold copyContents
  split
  · exact .refl d
  · exact .refl d
  · next place m hf =>
    dsimp only
    have hdirectories := adds_copyDirectories d source target (d.listTree source place).directories
    split
    · next e d₁ hmade =>
      rw [hmade] at hdirectories
      exact hdirectories
    · next d₁ hmade =>
      rw [hmade] at hdirectories
      exact hdirectories.trans (adds_copyFiles d₁ source target _)

/-- **Copying a tree loses nothing**, however far it comes. -/
theorem adds_copyTree : d.Adds (d.copyTree source target).2 := by
  have hmade := (widens_makeDirectories d target).adds
  unfold copyTree
  split
  · next e d₁ hd =>
    rw [hd] at hmade
    exact hmade
  · next d₁ hd =>
    rw [hd] at hmade
    have hcopied := hmade.trans (adds_copyContents d₁ source target)
    split
    · next e d₂ hc =>
      rw [hc] at hcopied
      exact hcopied
    · next d₂ hc =>
      rw [hc] at hcopied
      exact hcopied

end

end DeviceGateway.Disk
