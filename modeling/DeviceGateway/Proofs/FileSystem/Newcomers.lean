import Mathlib.Data.List.Induction
import DeviceGateway.Proofs.FileSystem.Places

/-!
# Files that have come to a disk

The files of a disk are compared with known ones, such as those that stood there before: none stands
where none is known (`NothingNew`), or one may and no other (`OneNew`). Opening a path brings one
file, renaming it keeps that one, and discarding the path takes it away again. Making directories
brings none.

All this is said of disks on which everything stands in a directory, the working directory
included (`Standing`).
-/

namespace DeviceGateway.Disk

variable {d d' : Disk} {path : String} {place q : Place} {n m : Nat}

/-! ## Standing disks -/

/-- **Everything stands in a directory**, and the working directory is there. -/
structure Standing (d : Disk) : Prop where
  rooted : d.Rooted
  here : ∃ t, d.node? d.here = some (.directory t)

theorem standing_ofClock (seconds : Int) : (ofClock seconds).Standing :=
  ⟨rooted_ofClock seconds, _, rfl⟩

/-- Above whatever stands somewhere there are directories. -/
theorem Rooted.directory_above (hr : d.Rooted) {below : List String} (hb : below ≠ [])
    {node : Node} (h : d.node? (place ++ below) = some node) :
    ∃ t, d.node? place = some (.directory t) := by
  induction below using List.reverseRecOn generalizing node with
  | nil => exact absurd rfl hb
  | append_singleton names name ih =>
      rw [← List.append_assoc] at h
      obtain ⟨t, ht⟩ := hr _ _ _ h
      by_cases hnames : names = []
      · subst hnames
        rw [List.append_nil] at ht
        exact ⟨t, ht⟩
      · exact ih hnames ht

/-- Below a file there is nothing. -/
theorem Rooted.eq_of_below_file (hr : d.Rooted) (hn : d.node? place = some (.file n))
    {node : Node} (hq : d.node? q = some node) (hp : place <+: q) : q = place := by
  obtain ⟨below, rfl⟩ := hp
  by_cases hb : below = []
  · rw [hb, List.append_nil]
  · obtain ⟨t, ht⟩ := hr.directory_above hb hq
    cases hn.symm.trans ht

/-- Discarding a path leaves all directories. -/
theorem sameDirectories_discard (d : Disk) (path : String) : d.SameDirectories (d.discard path) := by
  rcases discard_eq d path with ⟨place, n, -, hn, he⟩ | ⟨-, he⟩
  · rw [he]
    refine sameDirectories_erase fun t ht => ?_
    cases hn.symm.trans ht
  · rw [he]
    exact .refl d

namespace Standing

/-- Directories that stay where they are keep a disk standing, if whatever comes stands in one. -/
theorem of_same (h : d.Standing) (hsame : d.SameDirectories d')
    (hnew : ∀ p x node, d'.node? (p ++ [x]) = some node → d.node? (p ++ [x]) = some node ∨
      ∃ t, d.node? p = some (.directory t)) : d'.Standing := by
  refine ⟨fun p x node hx => ?_, ?_⟩
  · obtain ⟨t, ht⟩ : ∃ t, d.node? p = some (.directory t) := by
      rcases hnew p x node hx with hx | ht
      · exact h.rooted p x node hx
      · exact ht
    exact ⟨t, (hsame.directory p t).2 ht⟩
  · obtain ⟨t, ht⟩ := h.here
    exact ⟨t, hsame.here ▸ (hsame.directory _ t).2 ht⟩

theorem erase (h : d.Standing) (hn : ∀ t, d.node? place ≠ some (.directory t)) :
    (d.erase place).Standing := by
  refine h.of_same (sameDirectories_erase hn) fun p x node hx => .inl ?_
  rw [node?_erase] at hx
  split at hx
  · cases hx
  · exact hx

theorem modifyBody (h : d.Standing) (n : Nat) (f : FileBody → FileBody) :
    (d.modifyBody n f).Standing :=
  h.of_same (sameDirectories_modifyBody d n f) fun _ _ _ hx => .inl hx

theorem discard (h : d.Standing) (path : String) : (d.discard path).Standing := by
  rcases discard_eq d path with ⟨place, n, -, hn, he⟩ | ⟨-, he⟩
  · rw [he]
    refine h.erase fun t ht => ?_
    cases hn.symm.trans ht
  · rwa [he]

end Standing

/-! ## What is new -/

/-- **The files of a disk**: where one stands, and its number. -/
def files (d : Disk) (q : Place) (m : Nat) : Prop := d.node? q = some (.file m)

variable {known : Place → Nat → Prop}

/-- **No file stands where none is known.** -/
def NothingNew (known : Place → Nat → Prop) (d : Disk) : Prop :=
  ∀ q m, d.node? q = some (.file m) → known q m

/-- **One file may be new** at a place, and no other one is. -/
structure OneNew (known : Place → Nat → Prop) (d : Disk) (place : Place) (n : Nat) : Prop where
  there : d.node? place = some (.file n)
  others : ∀ q m, q ≠ place → d.node? q = some (.file m) → known q m

theorem nothingNew_files (d : Disk) : NothingNew d.files d := fun _ _ h => h

/-- At the beginning there are no files. -/
theorem nothingNew_ofClock (known : Place → Nat → Prop) (seconds : Int) :
    NothingNew known (ofClock seconds) := by
  intro q m h
  unfold node? at h
  split at h
  · cases h
  · rw [ofClock, List.lookup_cons] at h
    split at h <;> cases h

theorem NothingNew.trans (h : NothingNew known d) (h' : NothingNew d.files d') :
    NothingNew known d' :=
  fun q m hq => h q m (h' q m hq)

theorem NothingNew.oneNew (h : NothingNew known d) (h' : OneNew d.files d' place n) :
    OneNew known d' place n := ⟨h'.there, fun q m hq hm => h q m (h'.others q m hq hm)⟩

theorem nothingNew_erase (d : Disk) (place : Place) : NothingNew d.files (d.erase place) := by
  intro q m h
  rw [node?_erase] at h
  split at h
  · cases h
  · exact h

theorem nothingNew_discard (d : Disk) (path : String) : NothingNew d.files (d.discard path) := by
  rcases discard_eq d path with ⟨place, n, -, -, he⟩ | ⟨-, he⟩
  · rw [he]
    exact nothingNew_erase d place
  · rw [he]
    exact nothingNew_files d

/-- What is done to the data of files does not matter. -/
theorem OneNew.modifyBody (h : OneNew known d place n) (k : Nat) (f : FileBody → FileBody) :
    OneNew known (d.modifyBody k f) place n := ⟨h.there, h.others⟩

theorem discard_of_file (hp : d.filePlace? path = some place) (hn : d.node? place = some (.file n)) :
    d.discard path = d.erase place := by
  rw [Disk.discard, removeFile_of_filePlace? hp, hn]
  rfl

/-- **Discarding the path of the new file** takes it away. -/
theorem OneNew.discard (h : OneNew known d place n) (hp : d.filePlace? path = some place) :
    NothingNew known (d.discard path) ∧ (d.discard path).filePlace? path = some place ∧
      (d.discard path).node? place = none := by
  have herase := discard_of_file hp h.there
  have hfile : ∀ t, d.node? place ≠ some (.directory t) := fun t ht => by
    cases h.there.symm.trans ht
  have hgone : (d.erase place).node? place = none := by
    rw [node?_erase, if_pos ⟨rfl, ne_root_of_filePlace? hp⟩]
  rw [herase]
  refine ⟨fun q m hq => ?_, (filePlace?_of_same (sameDirectories_erase hfile) path).trans hp, hgone⟩
  by_cases hqp : q = place
  · subst hqp
    cases hgone.symm.trans hq
  · exact h.others q m hqp (nothingNew_erase d place q m hq)

/-- Discarding another path leaves the new file. -/
theorem OneNew.discard_other (h : OneNew known d place n) (hp : d.filePlace? path = some q)
    (hne : q ≠ place) : OneNew known (d.discard path) place n := by
  refine ⟨?_, fun q' m hq hm => h.others q' m hq (nothingNew_discard d path q' m hm)⟩
  rcases discard_eq d path with ⟨p, m, hp', -, he⟩ | ⟨-, he⟩
  · cases hp.symm.trans hp'
    rw [he, node?_erase, if_neg fun h => hne h.1.symm]
    exact h.there
  · rw [he]
    exact h.there

/-! ## Opening a path -/

/-- **What opening a path for new data does**: a file stands at the place of the path. -/
structure Opens (d : Disk) (path : String) (place : Place) (n : Nat) (d' : Disk) : Prop where
  named : d'.filePlace? path = some place
  oneNew : OneNew d.files d' place n
  standing : d'.Standing

theorem opens_makeFile (hs : d.Standing) (hp : d.filePlace? path = some place)
    (hn : d.node? place = none) : d.Opens path place d.bodies.length (d.makeFile place).2 := by
  have hfree : ∀ t, d.node? place ≠ some (.directory t) := fun t ht => by cases hn.symm.trans ht
  have hsame := sameDirectories_makeFile hfree
  refine ⟨(filePlace?_of_same hsame path).trans hp, ⟨?_, fun q m hq hm => ?_⟩, ?_⟩
  · rw [node?_makeFile, if_pos ⟨rfl, ne_root_of_filePlace? hp⟩]
  · rwa [node?_makeFile, if_neg fun h => hq h.1] at hm
  · refine hs.of_same hsame fun p x node hx => ?_
    rw [node?_makeFile] at hx
    split at hx
    · next hplace =>
      obtain ⟨dir, name, hl, -, rfl⟩ := filePlace?_eq_some_iff.1 hp
      obtain ⟨rfl, -⟩ := List.append_inj' hplace.1 rfl
      exact .inr (directory_of_locate hl)
    · exact .inl hx

theorem opens_modifyBody (hs : d.Standing) (hp : d.filePlace? path = some place)
    (hn : d.node? place = some (.file n)) (f : FileBody → FileBody) :
    d.Opens path place n (d.modifyBody n f) :=
  ⟨(filePlace?_of_same (sameDirectories_modifyBody d n f) path).trans hp,
    ⟨hn, fun _ _ _ hm => hm⟩, hs.modifyBody n f⟩

/-- **What opening a path for new data comes to**: a file is made where nothing stands, or the one
that stands there is emptied. -/
theorem openForWriting_cases (hr : d.Rooted) {mode : OpenMode} (hmode : mode ≠ .keep)
    (h : d.openForWriting mode path = .ok (n, d')) :
    ∃ place, d.filePlace? path = some place ∧
      ((d.node? place = none ∧ d.makeFile place = (n, d')) ∨
        (mode = .empty ∧ d.node? place = some (.file n) ∧
          d' = d.modifyBody n fun _ => ⟨[], d.clock⟩)) := by
  obtain ⟨t, ht, hslash, hopening⟩ := opening_of_openForWriting h
  cases hopening with
  | made hlook =>
      obtain ⟨hp, hn⟩ := filePlace?_of_look hr ht hslash hlook fun _ => nofun
      exact ⟨_, hp, .inl ⟨hn, rfl⟩⟩
  | kept => exact absurd rfl hmode
  | emptied hlook =>
      obtain ⟨hp, hn⟩ := filePlace?_of_look hr ht hslash hlook fun _ => nofun
      exact ⟨_, hp, .inr ⟨rfl, hn, rfl⟩⟩

/-- **Opening a path for new data**, whether a file must not be there or is emptied. -/
theorem opens_of_openForWriting (hs : d.Standing) {mode : OpenMode} (hmode : mode ≠ .keep)
    (h : d.openForWriting mode path = .ok (n, d')) : ∃ place, d.Opens path place n d' := by
  obtain ⟨place, hp, ⟨hn, hmade⟩ | ⟨-, hn, rfl⟩⟩ := openForWriting_cases hs.rooted hmode h
  · cases hmade
    exact ⟨place, opens_makeFile hs hp hn⟩
  · exact ⟨place, opens_modifyBody hs hp hn _⟩

/-! ## Renaming a file -/

/-- **What renaming comes to**: nothing if both paths lead to one place, and else what stands at the one
place is moved to the other, unless something is in the way. -/
structure Renaming (d : Disk) (s t : Target) (old new : Place) (node : Node) (d' : Disk) : Prop where
  found : d.look s = .ok (old, some node)
  named : ∃ name, t.last = .name name
  /-- A file is renamed only if no slash follows its new name. -/
  slash : ∀ n, node = .file n → t.slash = false
  result : ∃ there, d.look t = .ok (new, there) ∧
    (old = new ∧ d' = d ∨
      old ≠ new ∧ d.mayReplace new node there = none ∧ d' = d.moveTree old new)

/-- What got past a check has passed it. -/
theorem of_check {ε α : Type} {c : Prop} [Decidable c] {e : ε} {x : Except ε α} {a : α}
    (h : (if c then .error e else x) = .ok a) : ¬c ∧ x = .ok a := by
  split at h
  · cases h
  · next hc => exact ⟨hc, h⟩

theorem renaming_of_rename {source target : String} (h : d.rename source target = .ok d') :
    ∃ s t old new node, d.locate source = .ok s ∧ d.locate target = .ok t ∧
      d.Renaming s t old new node d' := by
  unfold rename at h
  split at h
  · cases h
  · cases h
  · next s t hs ht =>
    split at h
    · next name name' _ hlast =>
      split at h
      · cases h
      · cases h
      · cases h
      · next old node new there hlook hlook' =>
        dsimp only at h
        obtain ⟨hslash, h⟩ := of_check h
        obtain ⟨-, h⟩ := of_check h
        obtain ⟨-, h⟩ := of_check h
        refine ⟨s, t, old, new, node, hs, ht, hlook, ⟨name', hlast⟩, ?_, there, hlook', ?_⟩
        · rintro n rfl
          rw [Bool.true_and, Bool.or_eq_true, not_or] at hslash
          exact eq_false_of_ne_true hslash.2
        · split at h
          · next hplace =>
            cases h
            exact .inl ⟨hplace, rfl⟩
          · next hplace =>
            split at h
            · cases h
            · next hfree =>
              cases h
              exact .inr ⟨hplace, hfree, rfl⟩
    · cases h

/-- **A path under which there is nothing** cannot be renamed. -/
theorem rename_of_nothing (hp : d.filePlace? path = some place) (hn : d.node? place = none)
    (target : String) : ∃ e, d.rename path target = .error e := by
  obtain ⟨dir, name, hl, hfits, rfl⟩ := filePlace?_eq_some_iff.1 hp
  cases h : d.rename path target with
  | error e => exact ⟨e, rfl⟩
  | ok d' =>
      obtain ⟨s, t, old, new, node, hl', -, hren⟩ := renaming_of_rename h
      cases hl.symm.trans hl'
      have hfound := hren.found
      simp only [look, child, if_neg (Nat.not_lt.2 hfits), hn] at hfound
      cases hfound

theorem lookup_map_key {α β : Type} [BEq α] [LawfulBEq α] [DecidableEq α] (l : List (α × β))
    {old new : α} (hne : old ≠ new) (hfree : l.lookup new = none) (q : α) :
    (l.map fun e => (if e.1 = old then new else e.1, e.2)).lookup q =
      if q = new then l.lookup old else if q = old then none else l.lookup q := by
  induction l with
  | nil =>
      split
      · rfl
      · split <;> rfl
  | cons e l ih =>
      obtain ⟨a, b⟩ := e
      have ha : a ≠ new := by
        rintro rfl
        rw [List.lookup_cons, beq_self_eq_true] at hfree
        cases hfree
      have hrest : l.lookup new = none := by
        rwa [List.lookup_cons, beq_eq_false_iff_ne.2 (Ne.symm ha)] at hfree
      rw [List.map_cons, List.lookup_cons]
      dsimp only
      rw [ih hrest]
      by_cases hold : a = old
      · subst hold
        rw [if_pos rfl]
        by_cases hq : q = new
        · subst hq
          simp only [beq_self_eq_true, if_true, List.lookup_cons]
        · simp only [beq_eq_false_iff_ne.2 hq, if_neg hq, List.lookup_cons]
          by_cases hqa : q = a
          · simp only [if_pos hqa]
          · simp only [if_neg hqa, beq_eq_false_iff_ne.2 hqa]
      · rw [if_neg hold]
        by_cases hqa : q = a
        · subst hqa
          simp only [beq_self_eq_true, if_neg ha, if_neg hold, List.lookup_cons]
        · simp only [beq_eq_false_iff_ne.2 hqa, List.lookup_cons,
            beq_eq_false_iff_ne.2 (Ne.symm hold)]

/-- What stands where after a file has been moved. -/
theorem node?_moveTree (hs : d.Standing) (hn : d.node? place = some (.file n)) {new : Place}
    (hold : place ≠ []) (hne : place ≠ new) (hnew : new ≠ []) (q : Place) :
    (d.moveTree place new).node? q =
      if q = new then some (.file n) else if q = place then none else d.node? q := by
  have hlookup : d.nodes.lookup place = some (.file n) := by rwa [node?, if_neg hold] at hn
  -- Nothing stands below a file, so only the file itself moves.
  have hkeys : ∀ e ∈ d.nodes, relocate place new e.1 = if e.1 = place then new else e.1 := by
    intro e he
    unfold relocate
    by_cases hp : place.isPrefixOf e.1 = true
    · rw [if_pos hp]
      have hp' : place <+: e.1 := List.isPrefixOf_iff_prefix.1 hp
      have hroot : e.1 ≠ [] := fun h => hold (List.prefix_nil.1 (h ▸ hp'))
      obtain ⟨node, hnode⟩ : ∃ node, d.nodes.lookup e.1 = some node := by
        cases hl : d.nodes.lookup e.1 with
        | some node => exact ⟨node, rfl⟩
        | none =>
            have := List.lookup_eq_none_iff.1 hl e he
            simp at this
      have heq := hs.rooted.eq_of_below_file hn (show d.node? e.1 = some node by
        rw [node?, if_neg hroot, hnode]) hp'
      rw [heq, if_pos rfl, List.drop_length, List.append_nil]
    · rw [if_neg hp, if_neg]
      rintro rfl
      exact hp (List.isPrefixOf_iff_prefix.2 List.prefix_rfl)
  have hfreed : (d.nodes.filter (·.1 != new)).map (fun e => (relocate place new e.1, e.2)) =
      (d.nodes.filter (·.1 != new)).map fun e => (if e.1 = place then new else e.1, e.2) := by
    refine List.map_congr_left fun e he => ?_
    rw [hkeys e ((List.mem_filter.1 he).1)]
  unfold node?
  by_cases hq : q = []
  · subst hq
    rw [if_pos rfl, if_neg (Ne.symm hnew), if_neg (Ne.symm hold), if_pos rfl]
    rfl
  · rw [if_neg hq, if_neg hq]
    show List.lookup q ((d.nodes.filter (·.1 != new)).map fun e => (relocate place new e.1, e.2)) = _
    rw [hfreed, lookup_map_key _ hne (by rw [lookup_filter_ne, if_pos rfl])]
    simp only [lookup_filter_ne, if_neg hne, hlookup]
    by_cases hqn : q = new
    · simp only [if_pos hqn]
    · simp only [if_neg hqn]

/-- **A file that has been renamed** stands under its new path, or nothing was done to it because both
paths name the same place. -/
structure Renames (d : Disk) (source target : String) (n : Nat) (d' : Disk) : Prop where
  sameDirectories : d.SameDirectories d'
  standing : d'.Standing
  moved : ∃ old new, d.filePlace? source = some old ∧ d'.filePlace? target = some new ∧
    d'.node? new = some (.file n) ∧ (old = new ∨ d'.node? old = none) ∧
    ∀ q, q ≠ old → q ≠ new → d'.node? q = d.node? q

theorem renames_moveTree {source target : String} {old new : Place} (hs : d.Standing)
    (hold : d.filePlace? source = some old) (hn : d.node? old = some (.file n))
    (hnew : d.filePlace? target = some new) (hfree : ∀ t, d.node? new ≠ some (.directory t))
    (hne : old ≠ new) : d.Renames source target n (d.moveTree old new) := by
  have hroot := ne_root_of_filePlace? hold
  have hroot' := ne_root_of_filePlace? hnew
  have hnode := node?_moveTree hs hn hroot hne hroot'
  have hhere : (d.moveTree old new).here = d.here := by
    show relocate old new d.here = d.here
    unfold relocate
    rw [if_neg]
    intro hp
    obtain ⟨t, ht⟩ := hs.here
    rw [hs.rooted.eq_of_below_file hn ht (List.isPrefixOf_iff_prefix.1 hp), hn] at ht
    cases ht
  have hsame : d.SameDirectories (d.moveTree old new) := by
    refine ⟨hhere, fun q t => ?_⟩
    rw [hnode]
    split
    · next hq =>
      subst hq
      exact ⟨nofun, fun ht => absurd ht (hfree t)⟩
    · split
      · next hq =>
        subst hq
        exact ⟨nofun, fun ht => by cases hn.symm.trans ht⟩
      · exact Iff.rfl
  refine ⟨hsame, hs.of_same hsame fun p x node hx => ?_, old, new, hold,
    (filePlace?_of_same hsame target).trans hnew, ?_, .inr ?_, fun q hq hq' => ?_⟩
  · rw [hnode] at hx
    split at hx
    · next hp =>
      obtain ⟨dir, name, hl, -, rfl⟩ := filePlace?_eq_some_iff.1 hnew
      obtain ⟨rfl, -⟩ := List.append_inj' hp rfl
      exact .inr (directory_of_locate hl)
    · split at hx
      · cases hx
      · exact .inl hx
  · rw [hnode, if_pos rfl]
  · rw [hnode, if_neg hne, if_pos rfl]
  · rw [hnode, if_neg hq', if_neg hq]

/-- **Renaming a file**, if it is not refused. -/
theorem renames_of_rename {source target : String} {old : Place} (hs : d.Standing)
    (hold : d.filePlace? source = some old) (hn : d.node? old = some (.file n))
    (h : d.rename source target = .ok d') : d.Renames source target n d' := by
  obtain ⟨dir, name, hl, hfits, rfl⟩ := filePlace?_eq_some_iff.1 hold
  obtain ⟨s, t, old', new, node, hl', ht, hfound, ⟨name', hlast⟩, hslash, there, hlook, hresult⟩ :=
    renaming_of_rename h
  cases hl.symm.trans hl'
  simp only [look, child, if_neg (Nat.not_lt.2 hfits), hn] at hfound
  cases hfound
  obtain ⟨dir', last, slash⟩ := t
  obtain rfl : last = .name name' := hlast
  obtain rfl : slash = false := hslash n rfl
  simp only [look, child] at hlook
  obtain ⟨hfits', hlook⟩ := of_check hlook
  cases hlook
  have hnew : d.filePlace? target = some (dir' ++ [name']) :=
    filePlace?_eq_some_iff.2 ⟨dir', name', ht, Nat.not_lt.1 hfits', rfl⟩
  rcases hresult with ⟨hsame, rfl⟩ | ⟨hne, hmay, rfl⟩
  · exact ⟨.refl d', hs, _, _, hold, hnew, hsame ▸ hn, .inl hsame, fun _ _ _ => rfl⟩
  · refine renames_moveTree hs hold hn hnew (fun t ht => ?_) hne
    rw [ht] at hmay
    cases hmay

/-- **The new file is what is renamed**: it is the new one afterwards. -/
theorem OneNew.renames {source target : String} (h : OneNew known d place n)
    (hp : d.filePlace? source = some place) (hr : d.Renames source target n d') :
    ∃ new, d'.filePlace? target = some new ∧ OneNew known d' new n := by
  obtain ⟨old, new, hold, hnew, hthere, hgone, hothers⟩ := hr.moved
  cases hold.symm.trans hp
  refine ⟨new, hnew, hthere, fun q m hq hm => ?_⟩
  by_cases hqp : q = place
  · subst hqp
    rcases hgone with rfl | hgone
    · exact absurd rfl hq
    · cases hgone.symm.trans hm
  · exact h.others q m hqp (hothers q hqp hq ▸ hm)

/-! ## Making directories -/

/-- **No file has come**, and everything stands in a directory. -/
structure Grows (d d' : Disk) : Prop where
  nothingNew : NothingNew d.files d'
  standing : d'.Standing

theorem Grows.refl (hs : d.Standing) : d.Grows d := ⟨nothingNew_files d, hs⟩

theorem Grows.trans {d'' : Disk} (h : d.Grows d') (h' : d'.Grows d'') : d.Grows d'' :=
  ⟨h.nothingNew.trans h'.nothingNew, h'.standing⟩

/-- **What making a directory does**: it is put where nothing was, in a directory that is there. -/
theorem makeDirectory_eq (h : d.makeDirectory path = .ok d') : ∃ t name,
    d.locate path = .ok t ∧ t.last = .name name ∧ d.look t = .ok (t.dir ++ [name], none) ∧
      d' = d.put (t.dir ++ [name]) (.directory d.clock) := by
  unfold makeDirectory at h
  split at h
  · cases h
  · next t ht =>
    split at h
    · next name hname =>
      split at h
      · cases h
      · cases h
      · next place hl =>
        have hplace := hl
        simp only [look, hname, child] at hplace
        split at hplace
        · cases hplace
        · obtain rfl := congrArg Prod.fst (Except.ok.inj hplace)
          cases h
          exact ⟨t, name, ht, hname, hl, rfl⟩
    · cases h

section

variable {R : Disk → Disk → Prop} (hrefl : ∀ d, R d d)
  (htrans : ∀ d d' d'', R d d' → R d' d'' → R d d'')
include hrefl

theorem related_of_missingDirectories {found above rest : List String}
    (hmake : ∀ path ∈ above, ∀ d d', d.makeDirectory path = .ok d' → R d d')
    (h : d.missingDirectories found above = .ok (rest, d')) :
    R d d' ∧ ∀ path ∈ rest, path ∈ found ∨ path ∈ above := by
  induction above generalizing found with
  | nil =>
      cases h
      exact ⟨hrefl d, fun _ hp => .inl hp⟩
  | cons path above ih =>
      unfold missingDirectories at h
      split at h
      · next hmade =>
        cases h
        exact ⟨hmake path List.mem_cons_self d d' hmade, fun _ hp => .inl hp⟩
      · obtain ⟨hr, hrest⟩ := ih (fun p hp => hmake p (List.mem_cons_of_mem _ hp)) h
        refine ⟨hr, fun p hp => ?_⟩
        rcases hrest p hp with hfound | habove
        · rcases List.mem_cons.1 hfound with rfl | hfound
          · exact .inr List.mem_cons_self
          · exact .inl hfound
        · exact .inr (List.mem_cons_of_mem _ habove)
      · split at h
        · cases h
          exact ⟨hrefl d, fun _ hp => .inl hp⟩
        · cases h
      · cases h

include htrans

theorem related_makeInOrder (d : Disk) (paths : List String)
    (hmake : ∀ path ∈ paths, ∀ d d', d.makeDirectory path = .ok d' → R d d') :
    R d (d.makeInOrder paths).2 := by
  induction paths generalizing d with
  | nil => exact hrefl d
  | cons path rest ih =>
      have hrest := fun d => ih d fun p hp => hmake p (List.mem_cons_of_mem _ hp)
      unfold makeInOrder
      split
      · next d' hmade => exact htrans _ _ _ (hmake path List.mem_cons_self d d' hmade) (hrest d')
      · split
        · exact hrest d
        · exact hrefl d

/-- **Making a directory and all above it** comes to making single directories along the path, even if
it is refused halfway. -/
theorem related_makeDirectories (d : Disk) (path : String)
    (hmake : ∀ p ∈ path :: Path.above path, ∀ d d', d.makeDirectory p = .ok d' → R d d') :
    R d (d.makeDirectories path).2 := by
  unfold makeDirectories
  split
  · exact hrefl d
  · split
    · exact hrefl d
    · next hmissing =>
      obtain ⟨hr, hrest⟩ := related_of_missingDirectories hrefl hmake hmissing
      refine htrans _ _ _ hr (related_makeInOrder hrefl htrans _ _ fun p hp => ?_)
      exact hmake p ((hrest p hp).resolve_left List.not_mem_nil)

end

theorem grows_makeDirectory (hs : d.Standing) (h : d.makeDirectory path = .ok d') : d.Grows d' := by
  obtain ⟨target, name, hl, -, -, rfl⟩ := makeDirectory_eq h
  obtain ⟨t, ht⟩ := directory_of_locate hl
  have hkept : ∀ p u, d.node? p = some (.directory u) →
      ∃ u, (d.put (target.dir ++ [name]) (.directory d.clock)).node? p = some (.directory u) := by
    intro p u hu
    rw [node?_put]
    split
    · exact ⟨_, rfl⟩
    · exact ⟨u, hu⟩
  refine ⟨fun q m hq => ?_, ⟨fun p x node hx => ?_, ?_⟩⟩
  · rw [node?_put] at hq
    split at hq
    · cases hq
    · exact hq
  · rw [node?_put] at hx
    split at hx
    · next hp =>
      obtain ⟨rfl, -⟩ := List.append_inj' hp.1 rfl
      exact hkept _ t ht
    · obtain ⟨u, hu⟩ := hs.rooted p x node hx
      exact hkept p u hu
  · obtain ⟨u, hu⟩ := hs.here
    exact hkept d.here u hu

/-- **Making a directory and all above it** brings no file. -/
theorem grows_makeDirectories (hs : d.Standing) (path : String) :
    d.Grows (d.makeDirectories path).2 :=
  related_makeDirectories (R := fun d d' => d.Standing → d.Grows d') (fun _ => .refl)
    (fun _ _ _ h h' hs => (h hs).trans (h' (h hs).standing)) d path
    (fun _ _ _ _ h hs => grows_makeDirectory hs h) hs

end DeviceGateway.Disk
