import DeviceGateway.FileSystem.Directories

/-!
# Where paths lead

Walking a path asks for nothing but directories, so a path leads to the same place for as long as
the directories stay (`locate_eq_ok_iff`). The path of a file names a place (`filePlace?`), and what
is done under the path is done at that place and nowhere else.
-/

namespace DeviceGateway.Disk

variable {d d' d'' : Disk} {path : String} {place q : Place} {n : Nat}

/-! ## What stands at places -/

/-- What is left of a table after a choice among its keys. -/
theorem lookup_filter {α β : Type} [BEq α] [LawfulBEq α] [DecidableEq α] (l : List (α × β))
    (p : α → Bool) (q : α) :
    (l.filter (p ·.1)).lookup q = if p q = true then l.lookup q else none := by
  induction l with
  | nil => split <;> rfl
  | cons e l ih =>
      obtain ⟨a, b⟩ := e
      by_cases ha : p a = true
      · rw [List.filter_cons_of_pos (by exact ha), List.lookup_cons, List.lookup_cons, ih]
        by_cases hq : q = a
        · subst hq
          simp only [beq_self_eq_true, if_pos ha]
        · simp only [beq_eq_false_iff_ne.2 hq]
      · rw [List.filter_cons_of_neg (by exact ha), ih, List.lookup_cons]
        split
        · next hp =>
          have hq : q ≠ a := by
            rintro rfl
            exact ha hp
          rw [beq_eq_false_iff_ne.2 hq]
        · rfl

theorem lookup_filter_ne {α β : Type} [BEq α] [LawfulBEq α] [DecidableEq α] (l : List (α × β))
    (k q : α) : (l.filter (·.1 != k)).lookup q = if q = k then none else l.lookup q := by
  rw [lookup_filter l (· != k) q]
  by_cases hq : q = k
  · rw [if_pos hq, hq, bne_self_eq_false, if_neg Bool.false_ne_true]
  · rw [if_neg hq, if_pos (bne_iff_ne.2 hq)]

theorem node?_root (d : Disk) : d.node? [] = some (.directory d.clock) := if_pos rfl

theorem node?_erase (d : Disk) (place q : Place) :
    (d.erase place).node? q = if q = place ∧ q ≠ [] then none else d.node? q := by
  unfold node?
  by_cases hq : q = []
  · rw [if_pos hq, if_neg (fun h => h.2 hq), if_pos hq]
    rfl
  · rw [if_neg hq, if_neg hq]
    simp only [erase, lookup_filter_ne, hq, ne_eq, not_false_eq_true, and_true]

theorem node?_put (d : Disk) (place q : Place) (node : Node) :
    (d.put place node).node? q = if q = place ∧ q ≠ [] then some node else d.node? q := by
  unfold node?
  by_cases hq : q = []
  · rw [if_pos hq, if_neg (fun h => h.2 hq), if_pos hq]
    rfl
  · rw [if_neg hq, if_neg hq]
    simp only [put, List.lookup_append, lookup_filter_ne]
    by_cases hp : q = place
    · subst hp
      rw [if_pos rfl, if_pos ⟨rfl, hq⟩, Option.none_or, List.lookup_cons, beq_self_eq_true]
    · rw [if_neg hp, if_neg (fun h => hp h.1)]
      rw [List.lookup_cons, beq_eq_false_iff_ne.2 hp, List.lookup_nil, Option.or_none]

@[simp] theorem node?_modifyBody (d : Disk) (n : Nat) (f : FileBody → FileBody) (q : Place) :
    (d.modifyBody n f).node? q = d.node? q := rfl

theorem node?_makeFile (d : Disk) (place q : Place) :
    (d.makeFile place).2.node? q =
      if q = place ∧ q ≠ [] then some (.file d.bodies.length) else d.node? q :=
  node?_put d place q _

/-- Making a file where a name was taken away is making it at once. -/
theorem makeFile_erase (d : Disk) (place : Place) :
    (d.erase place).makeFile place = d.makeFile place := by
  simp only [makeFile, put, erase, List.filter_filter, Bool.and_self]

/-! ## Walks -/

theorem walk_name {names : List String} {dir : Place} {name : String} (hs : name ≠ ".")
    (hu : name ≠ "..") :
    d.walk dir (name :: names) =
      match d.child dir name with
      | .error e => .error e
      | .ok (_, none) => .error .missing
      | .ok (_, some (.file _)) => .error .notDirectory
      | .ok (place, some (.directory _)) => d.walk place names := Disk.walk.eq_4 _ _ _ _ hs hu

section

variable {names : List String} {dir : Place} {name : String} (hs : name ≠ ".") (hu : name ≠ "..")
include hs hu

theorem walk_name_of_directory (hfits : name.utf8ByteSize ≤ maxName) {m : Int}
    (hn : d.node? (dir ++ [name]) = some (.directory m)) :
    d.walk dir (name :: names) = d.walk (dir ++ [name]) names := by
  rw [walk_name hs hu, child, if_neg (Nat.not_lt.2 hfits), hn]

/-- **What it takes to get past a name.** -/
theorem walk_name_eq_ok : d.walk dir (name :: names) = .ok place ↔
    name.utf8ByteSize ≤ maxName ∧ (∃ m, d.node? (dir ++ [name]) = some (.directory m)) ∧
      d.walk (dir ++ [name]) names = .ok place := by
  constructor
  · intro h
    rw [walk_name hs hu, child] at h
    split at h
    · cases h
    · cases h
    · cases h
    · next next m hc =>
      split at hc
      · cases hc
      · next hshort =>
        injection hc with hc
        injection hc with hplace hnode
        subst hplace
        exact ⟨Nat.le_of_not_lt hshort, ⟨m, hnode⟩, h⟩
  · rintro ⟨hfits, ⟨m, hm⟩, h⟩
    rwa [walk_name_of_directory hs hu hfits hm]

theorem walk_name_of_nothing (hfits : name.utf8ByteSize ≤ maxName)
    (hn : d.node? (dir ++ [name]) = none) :
    d.walk dir (name :: names) = .error .missing := by
  rw [walk_name hs hu, child, if_neg (Nat.not_lt.2 hfits), hn]

end

/-- **What it takes to walk a path up to its last part.** -/
structure Located (d : Disk) (path : String) (t : Target) : Prop where
  whole : path.toList.contains '\x00' = false
  nonempty : path ≠ ""
  short : path.utf8ByteSize < maxPath
  walk : d.walk (if Path.isAbsolute path then [] else d.here)
    ((Path.segments path).filter (· != "")).dropLast = .ok t.dir
  directory : ∃ m, d.node? t.dir = some (.directory m)
  last : t.last = .ofSegment? ((Path.segments path).filter (· != "")).getLast?
  slash : t.slash = Path.endsInSlash path

theorem locate_eq_ok {t : Target} : d.locate path = .ok t ↔ d.Located path t := by
  constructor
  · intro ht
    unfold locate at ht
    split at ht
    · cases ht
    · next hnul =>
      split at ht
      · cases ht
      · next hempty =>
        split at ht
        · cases ht
        · next hlong =>
          dsimp only at ht
          split at ht
          · cases ht
          · next dir hw =>
            split at ht
            · next m hm =>
              cases ht
              exact ⟨eq_false_of_ne_true hnul, hempty, Nat.lt_of_not_le hlong, hw, ⟨m, hm⟩, rfl, rfl⟩
            · cases ht
  · rintro ⟨hwhole, hne, hshort, hw, ⟨m, hm⟩, hlast, hslash⟩
    obtain ⟨dir, last, slash⟩ := t
    dsimp only at hw hm hlast hslash
    unfold locate
    rw [if_neg (by rw [hwhole]; exact Bool.false_ne_true), if_neg hne,
      if_neg (Nat.not_le.2 hshort)]
    dsimp only
    rw [hw]
    dsimp only
    rw [hm, hlast, hslash]

theorem ofSegment?_name {name : String} (hdot : name ≠ ".") (hup : name ≠ "..") :
    LastPart.ofSegment? (some name) = .name name := by
  unfold LastPart.ofSegment?
  split
  · next h => cases h
  · next h => exact absurd (Option.some.inj h) hdot
  · next h => exact absurd (Option.some.inj h) hup
  · next h => exact congrArg _ (Option.some.inj h).symm

theorem look_of_find {node : Node} (h : d.find path = .ok (place, node)) :
    ∃ t, d.locate path = .ok t ∧ d.look t = .ok (place, some node) := by
  unfold find at h
  split at h
  · cases h
  · next t ht =>
    refine ⟨t, ht, ?_⟩
    split at h
    · cases h
    · cases h
    · next hl =>
      split at h
      · cases h
      · cases h
        exact hl
    · next hl =>
      cases h
      exact hl

/-- What is looked up is what stands at a place. -/
theorem node?_of_look {t : Target} {node : Option Node} (h : d.look t = .ok (place, node)) :
    d.node? place = node := by
  unfold look at h
  split at h
  · unfold child at h
    split at h
    · cases h
    · cases h
      rfl
  · cases h
    rfl
  · cases h
    rfl
  · cases h
    rfl

/-- The place is told by the target alone. -/
theorem look_elsewhere {t : Target} {node : Option Node} (h : d.look t = .ok (place, node))
    (d' : Disk) : d'.look t = .ok (place, d'.node? place) := by
  unfold look at h ⊢
  split at h
  · unfold child at h ⊢
    split at h
    · cases h
    · next hshort =>
      rw [if_neg hshort]
      cases h
      rfl
  · cases h
    rfl
  · cases h
    rfl
  · cases h
    rfl

/-- **A path leads to a directory** if it is looked up there, whether a slash follows or not. -/
theorem find_directory_iff {m : Int} : d.find path = .ok (place, .directory m) ↔
    ∃ t, d.locate path = .ok t ∧ d.look t = .ok (place, some (.directory m)) := by
  refine ⟨look_of_find, ?_⟩
  rintro ⟨t, ht, hl⟩
  simp only [find, ht, hl]

/-! ## Paths of files -/

/-- **The place that the path of a file names.** Such a path ends in a name, and no slash is behind it.
Whether there is a file does not matter. -/
def filePlace? (d : Disk) (path : String) : Option Place :=
  match d.locate path with
  | .ok ⟨dir, .name n, false⟩ => if maxName < n.utf8ByteSize then none else some (dir ++ [n])
  | _ => none

theorem filePlace?_eq_some_iff :
    d.filePlace? path = some place ↔
      ∃ dir n, d.locate path = .ok ⟨dir, .name n, false⟩ ∧ n.utf8ByteSize ≤ maxName ∧
        place = dir ++ [n] := by
  unfold filePlace?
  split
  · next dir n ht =>
    rw [ht]
    split
    · next hlong =>
      simp only [reduceCtorEq, Except.ok.injEq, Target.mk.injEq, LastPart.name.injEq, and_true,
        false_iff, not_exists, not_and]
      rintro dir' n' ⟨rfl, rfl⟩ hshort
      exact absurd hshort (Nat.not_le.2 hlong)
    · next hshort =>
      simp only [Option.some.injEq, Except.ok.injEq, Target.mk.injEq, LastPart.name.injEq, and_true]
      constructor
      · rintro rfl
        exact ⟨dir, n, ⟨rfl, rfl⟩, Nat.not_lt.1 hshort, rfl⟩
      · rintro ⟨dir', n', ⟨rfl, rfl⟩, -, rfl⟩
        rfl
  · next hno =>
    simp only [reduceCtorEq, false_iff, not_exists, not_and]
    intro dir n ht
    exact absurd ht (hno dir n)

/-! ## Directories -/

/-- **The same directories stand at the same places**, as seen from the same one. -/
structure SameDirectories (d d' : Disk) : Prop where
  here : d'.here = d.here
  directory : ∀ place m, d'.node? place = some (.directory m) ↔ d.node? place = some (.directory m)

namespace SameDirectories

theorem refl (d : Disk) : SameDirectories d d := ⟨rfl, fun _ _ => Iff.rfl⟩

theorem symm (h : SameDirectories d d') : SameDirectories d' d :=
  ⟨h.here.symm, fun place m => (h.directory place m).symm⟩

theorem trans (h : SameDirectories d d') (h' : SameDirectories d' d'') : SameDirectories d d'' :=
  ⟨h'.here.trans h.here, fun place m => (h'.directory place m).trans (h.directory place m)⟩

end SameDirectories

/-- **Directories stay where they are**, as seen from the same one. -/
structure KeepsDirectories (d d' : Disk) : Prop where
  here : d'.here = d.here
  directory : ∀ place m, d.node? place = some (.directory m) → d'.node? place = some (.directory m)

theorem SameDirectories.keeps (h : SameDirectories d d') : KeepsDirectories d d' :=
  ⟨h.here, fun place m => (h.directory place m).2⟩

namespace KeepsDirectories

theorem refl (d : Disk) : KeepsDirectories d d := ⟨rfl, fun _ _ h => h⟩

theorem trans (h : KeepsDirectories d d') (h' : KeepsDirectories d' d'') : KeepsDirectories d d'' :=
  ⟨h'.here.trans h.here, fun place m hm => h'.directory place m (h.directory place m hm)⟩

/-- Walking along names asks only for directories. -/
theorem walk (h : KeepsDirectories d d') {names : List String} {dir : Place}
    (hw : d.walk dir names = .ok place) : d'.walk dir names = .ok place := by
  induction names generalizing dir with
  | nil => exact hw
  | cons name rest ih =>
      by_cases hsame : name = "."
      · subst hsame
        exact ih hw
      · by_cases hup : name = ".."
        · subst hup
          exact ih hw
        · obtain ⟨hfits, ⟨m, hm⟩, hrest⟩ := (walk_name_eq_ok hsame hup).1 hw
          exact (walk_name_eq_ok hsame hup).2 ⟨hfits, ⟨m, h.directory _ m hm⟩, ih hrest⟩

theorem locate (h : KeepsDirectories d d') {t : Target} (ht : d.locate path = .ok t) :
    d'.locate path = .ok t := by
  have hl := locate_eq_ok.1 ht
  obtain ⟨m, hm⟩ := hl.directory
  refine locate_eq_ok.2 { hl with walk := ?_, directory := ⟨m, h.directory _ m hm⟩ }
  rw [h.here]
  exact h.walk hl.walk

/-- The path of a file leads to the same place for as long as the directories stay. -/
theorem filePlace? (h : KeepsDirectories d d') (hp : d.filePlace? path = some place) :
    d'.filePlace? path = some place := by
  obtain ⟨dir, name, ht, hfits, rfl⟩ := filePlace?_eq_some_iff.1 hp
  exact filePlace?_eq_some_iff.2 ⟨dir, name, h.locate ht, hfits, rfl⟩

end KeepsDirectories

/-- **A path leads to the same place** for as long as the directories stay. -/
theorem locate_eq_ok_iff (h : SameDirectories d d') {t : Target} :
    d'.locate path = .ok t ↔ d.locate path = .ok t := ⟨h.symm.keeps.locate, h.keeps.locate⟩

theorem filePlace?_of_same (h : SameDirectories d d') (path : String) :
    d'.filePlace? path = d.filePlace? path := by
  refine Option.ext fun place => ?_
  simp only [filePlace?_eq_some_iff, locate_eq_ok_iff h]

theorem sameDirectories_erase (hn : ∀ m, d.node? place ≠ some (.directory m)) :
    SameDirectories d (d.erase place) where
  here := rfl
  directory q m := by
    rw [node?_erase]
    split
    · next h =>
      rw [h.1]
      exact ⟨nofun, fun hd => absurd hd (hn m)⟩
    · exact Iff.rfl

theorem sameDirectories_makeFile (hn : ∀ m, d.node? place ≠ some (.directory m)) :
    SameDirectories d (d.makeFile place).2 where
  here := rfl
  directory q m := by
    rw [node?_makeFile]
    split
    · next h =>
      rw [h.1]
      exact ⟨nofun, fun hd => absurd hd (hn m)⟩
    · exact Iff.rfl

theorem sameDirectories_modifyBody (d : Disk) (n : Nat) (f : FileBody → FileBody) :
    SameDirectories d (d.modifyBody n f) := ⟨rfl, fun _ _ => Iff.rfl⟩

/-- **Whatever stands anywhere stands in a directory.** -/
def Rooted (d : Disk) : Prop :=
  ∀ place name node, d.node? (place ++ [name]) = some node →
    ∃ m, d.node? place = some (.directory m)

theorem Rooted.erase (hr : d.Rooted) (hn : ∀ m, d.node? place ≠ some (.directory m)) :
    (d.erase place).Rooted := by
  intro p name node h
  rw [node?_erase] at h
  split at h
  · cases h
  · obtain ⟨m, hm⟩ := hr p name node h
    exact ⟨m, ((sameDirectories_erase hn).directory p m).2 hm⟩

theorem rooted_ofClock (seconds : Int) : (ofClock seconds).Rooted := by
  intro place name node h
  rw [node?, if_neg (List.append_ne_nil_of_right_ne_nil _ (List.cons_ne_nil _ _))] at h
  have hwork : place ++ [name] = ["work"] := by
    refine Decidable.byContradiction fun hne => ?_
    rw [ofClock, List.lookup_cons, beq_eq_false_iff_ne.2 hne] at h
    cases h
  obtain ⟨rfl, -⟩ := List.append_inj' (hwork.trans (List.nil_append ["work"]).symm) rfl
  exact ⟨_, node?_root _⟩

/-- The directory that a path is looked up in is there. -/
theorem directory_of_locate {t : Target} (ht : d.locate path = .ok t) :
    ∃ m, d.node? t.dir = some (.directory m) := (locate_eq_ok.1 ht).directory

theorem Rooted.makeFile (hr : d.Rooted) (hp : d.filePlace? path = some place)
    (hn : ∀ m, d.node? place ≠ some (.directory m)) : (d.makeFile place).2.Rooted := by
  obtain ⟨dir, name, ht, -, rfl⟩ := filePlace?_eq_some_iff.1 hp
  obtain ⟨m, hd⟩ := directory_of_locate ht
  intro p x node h
  rw [node?_makeFile] at h
  split at h
  · next hx =>
    obtain ⟨rfl, -⟩ := List.append_inj' hx.1 rfl
    exact ⟨m, ((sameDirectories_makeFile hn).directory _ m).2 hd⟩
  · obtain ⟨m', hm⟩ := hr p x node h
    exact ⟨m', ((sameDirectories_makeFile hn).directory p m').2 hm⟩

/-! ## Operations on files -/

section

variable (hp : d.filePlace? path = some place)
include hp

theorem ne_root_of_filePlace? : place ≠ [] := by
  obtain ⟨dir, name, -, -, rfl⟩ := filePlace?_eq_some_iff.1 hp
  exact List.append_ne_nil_of_right_ne_nil _ (List.cons_ne_nil _ _)

theorem find_of_filePlace? :
    d.find path = match d.node? place with
      | none => .error .missing
      | some node => .ok (place, node) := by
  obtain ⟨dir, name, ht, hfits, rfl⟩ := filePlace?_eq_some_iff.1 hp
  simp only [find, ht, look, child, if_neg (Nat.not_lt.2 hfits)]
  cases d.node? (dir ++ [name]) with
  | none => rfl
  | some node => cases node <;> rfl

theorem fileData_of_file (hn : d.node? place = some (.file n)) :
    d.fileData path = .ok (d.body n).data := by
  simp only [fileData, find_of_filePlace? hp, hn]

theorem fileData_of_nothing (hn : d.node? place = none) : d.fileData path = .error .missing := by
  simp only [fileData, find_of_filePlace? hp, hn]

theorem pathExists_of_filePlace? : d.pathExists path = (d.node? place).isSome := by
  rw [pathExists, find_of_filePlace? hp]
  cases d.node? place <;> rfl

/-- **Removing a file** takes its name away. -/
theorem removeFile_of_filePlace? :
    d.removeFile path = match d.node? place with
      | none => .error .missing
      | some (.directory _) => .error .isDirectory
      | some (.file _) => .ok (d.erase place) := by
  obtain ⟨dir, name, ht, hfits, rfl⟩ := filePlace?_eq_some_iff.1 hp
  simp only [removeFile, ht, look, child, if_neg (Nat.not_lt.2 hfits)]
  cases d.node? (dir ++ [name]) with
  | none => rfl
  | some node => cases node <;> rfl

/-- **Opening a path under which there is nothing** makes an empty file. -/
theorem openForWriting_of_nothing (hn : d.node? place = none) (mode : OpenMode) :
    d.openForWriting mode path = .ok (d.makeFile place) := by
  obtain ⟨dir, name, ht, hfits, rfl⟩ := filePlace?_eq_some_iff.1 hp
  simp only [openForWriting, ht, look, child, if_neg (Nat.not_lt.2 hfits), hn, Bool.false_eq_true,
    if_false]

end

/-- Only the path of a file can be removed. -/
theorem filePlace?_of_removeFile (h : d.removeFile path = .ok d') :
    ∃ place n, d.filePlace? path = some place ∧ d.node? place = some (.file n) := by
  unfold removeFile at h
  split at h
  · cases h
  · next t ht =>
    split at h
    · next name hname =>
      obtain ⟨dir, last, slash⟩ := t
      dsimp only at hname
      subst hname
      simp only [look, child] at h
      split at h
      · cases h
      · cases h
      · cases h
      · next place n hl =>
        split at hl
        · cases hl
        · next hfits =>
          cases slash with
          | true => cases h
          | false =>
              injection hl with hl
              injection hl with hplace hnode
              subst hplace
              exact ⟨_, n, filePlace?_eq_some_iff.2 ⟨dir, name, ht, Nat.not_lt.1 hfits, rfl⟩, hnode⟩
    · cases h

/-- On a disk where everything stands in a directory, **only the path of a file leads to anything but a
directory**. -/
theorem filePlace?_of_look {t : Target} (hr : d.Rooted) (hl : d.locate path = .ok t)
    (hslash : t.slash = false) {node : Option Node} (hlook : d.look t = .ok (place, node))
    (hnode : ∀ time, node ≠ some (.directory time)) :
    d.filePlace? path = some place ∧ d.node? place = node := by
  obtain ⟨time, hdir⟩ := directory_of_locate hl
  obtain ⟨dir, last, slash⟩ := t
  dsimp only at hslash hdir
  subst hslash
  cases last with
  | name name =>
      simp only [look, child] at hlook
      split at hlook
      · cases hlook
      · next hfits =>
        cases hlook
        exact ⟨filePlace?_eq_some_iff.2 ⟨dir, name, hl, Nat.not_lt.1 hfits, rfl⟩, rfl⟩
  | same =>
      simp only [look, hdir] at hlook
      cases hlook
      exact absurd rfl (hnode time)
  | root =>
      simp only [look, node?_root] at hlook
      cases hlook
      exact absurd rfl (hnode _)
  | up =>
      -- The directory above a directory is there as well.
      obtain ⟨above, hup⟩ : ∃ above, d.node? dir.dropLast = some (.directory above) := by
        rcases List.eq_nil_or_concat dir with rfl | ⟨names, name, rfl⟩
        · exact ⟨time, hdir⟩
        · rw [List.concat_eq_append] at hdir ⊢
          rw [List.dropLast_concat]
          exact hr names name _ hdir
      simp only [look, hup] at hlook
      cases hlook
      exact absurd rfl (hnode above)

/-- **What opening a path for writing comes to**: a file is made where there is nothing, or the one that
stands there is taken as it is, or emptied. -/
inductive Opening (d : Disk) (t : Target) : OpenMode → Nat → Disk → Prop where
  | made {mode : OpenMode} {place : Place} (hlook : d.look t = .ok (place, none)) :
      Opening d t mode d.bodies.length (d.makeFile place).2
  | kept {place : Place} {n : Nat} (hlook : d.look t = .ok (place, some (.file n))) :
      Opening d t .keep n d
  | emptied {place : Place} {n : Nat} (hlook : d.look t = .ok (place, some (.file n))) :
      Opening d t .empty n (d.modifyBody n fun _ => ⟨[], d.clock⟩)

theorem opening_of_openForWriting {mode : OpenMode} (h : d.openForWriting mode path = .ok (n, d')) :
    ∃ t, d.locate path = .ok t ∧ t.slash = false ∧ d.Opening t mode n d' := by
  unfold openForWriting at h
  split at h
  · cases h
  · next t ht =>
    split at h
    · cases h
    · next hslash =>
      refine ⟨t, ht, eq_false_of_ne_true hslash, ?_⟩
      split at h
      · cases h
      · next place hlook =>
        cases h
        exact .made hlook
      · next place node hlook =>
        split at h
        · cases h
        · cases h
        · cases h
          exact .kept hlook
        · cases h
          exact .emptied hlook

/-- So **only the path of a file can be opened as new**: there is something at every other path that
leads anywhere. -/
theorem filePlace?_of_openForWriting (hr : d.Rooted) {opened : Nat × Disk}
    (h : d.openForWriting .new path = .ok opened) :
    ∃ place, d.filePlace? path = some place ∧ d.node? place = none := by
  obtain ⟨n, d'⟩ := opened
  obtain ⟨t, ht, hslash, hopening⟩ := opening_of_openForWriting h
  cases hopening with
  | made hlook => exact ⟨_, filePlace?_of_look hr ht hslash hlook fun _ => nofun⟩

/-- What discarding a path leaves. -/
theorem discard_eq (d : Disk) (path : String) :
    (∃ place n, d.filePlace? path = some place ∧ d.node? place = some (.file n) ∧
      d.discard path = d.erase place) ∨
    ((∀ place n, d.filePlace? path = some place → d.node? place ≠ some (.file n)) ∧
      d.discard path = d) := by
  unfold discard
  cases h : d.removeFile path with
  | ok d' =>
      obtain ⟨place, n, hp, hn⟩ := filePlace?_of_removeFile h
      rw [removeFile_of_filePlace? hp, hn] at h
      cases h
      exact .inl ⟨place, n, hp, hn, rfl⟩
  | error e =>
      refine .inr ⟨fun place n hp hn => ?_, rfl⟩
      rw [removeFile_of_filePlace? hp, hn] at h
      cases h

theorem bodies_discard (d : Disk) (path : String) : (d.discard path).bodies = d.bodies := by
  rcases discard_eq d path with ⟨place, n, -, -, he⟩ | ⟨-, he⟩
  · rw [he, erase]
  · rw [he]

/-! ## Writing -/

theorem body_modifyBody (d : Disk) (k : Nat) (f : FileBody → FileBody) (hn : n < d.bodies.length) :
    (d.modifyBody n f).body k = if k = n then f (d.body n) else d.body k := by
  simp only [body, modifyBody, List.getD_eq_getElem?_getD, List.getElem?_modify]
  by_cases h : k = n
  · subst h
    simp [hn]
  · simp [h, Ne.symm h]

@[simp] theorem length_modifyBody (d : Disk) (n : Nat) (f : FileBody → FileBody) :
    (d.modifyBody n f).bodies.length = d.bodies.length := List.length_modify f d.bodies n

theorem length_makeFile (d : Disk) (place : Place) :
    (d.makeFile place).2.bodies.length = d.bodies.length + 1 := by
  simp [makeFile]

theorem body_makeFile_of_lt (place : Place) (hn : n < d.bodies.length) :
    (d.makeFile place).2.body n = d.body n := by
  simp only [body, makeFile, List.getD_eq_getElem?_getD, List.getElem?_append_left hn]

theorem body_makeFile_new (d : Disk) (place : Place) :
    (d.makeFile place).2.body d.bodies.length = ⟨[], d.clock⟩ := by
  simp [body, makeFile]

theorem splice_at_end (old data : Bytes) : splice old old.length data = old ++ data := by
  simp [splice]

end DeviceGateway.Disk
