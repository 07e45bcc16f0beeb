import Mathlib.Data.List.Nodup
import DeviceGateway.Proofs.FileSystem.Below

/-!
# Disks that are alike below a directory

Two disks may differ in everything but what stands below one directory of each (`SameTree`). Whoever
names paths below that directory cannot tell them apart: a path is refused on both for the same
reason, or leads to the same on both (`SameTree.find`), and what is listed, read or removed is the
same.
-/

namespace DeviceGateway

/-- **Two answers agree**: something is refused for the same reason, or comes to the same. -/
inductive Agree {ε α β : Type} (same : α → β → Prop) : Except ε α → Except ε β → Prop
  | error (e : ε) : Agree same (.error e) (.error e)
  | ok {a : α} {b : β} (h : same a b) : Agree same (.ok a) (.ok b)

theorem Agree.imp {ε α β : Type} {same same' : α → β → Prop} {a : Except ε α} {b : Except ε β}
    (h : Agree same a b) (himp : ∀ a b, same a b → same' a b) : Agree same' a b := by
  cases h with
  | error e => exact .error e
  | ok h => exact .ok (himp _ _ h)

namespace Disk

variable {d d' : Disk} {path root : String} {place place' : Place} {names front : List String}
  {m : Int}

/-! ## What stands below a directory -/

/-- **What stands at a place**, for whoever asks what it holds: a file is known by its content, and not
by its number. -/
inductive Entry where
  | directory (modified : Int)
  | file (body : FileBody)
  deriving DecidableEq, Repr

def entry (d : Disk) : Node → Entry
  | .directory m => .directory m
  | .file n => .file (d.body n)

def standing? (d : Disk) (place : Place) : Option Entry := (d.node? place).map d.entry

/-- Nodes of two disks that are of one kind and hold the same. -/
inductive SameNode (d d' : Disk) : Node → Node → Prop
  | directory (m m' : Int) : SameNode d d' (.directory m) (.directory m')
  | file {n n' : Nat} (h : d.body n = d'.body n') : SameNode d d' (.file n) (.file n')

theorem sameNode_of_standing? (h : d.standing? place = d'.standing? place') :
    Option.Rel (SameNode d d') (d.node? place) (d'.node? place') := by
  unfold standing? at h
  cases hn : d.node? place with
  | none =>
      rw [hn] at h
      rw [Option.map_eq_none_iff.1 h.symm]
      exact .none
  | some node =>
      rw [hn] at h
      obtain ⟨node', hn', hentry⟩ := Option.map_eq_some_iff.1 h.symm
      rw [hn']
      cases node with
      | directory m =>
          cases node' with
          | directory m' => exact .some (.directory m m')
          | file n' => cases hentry
      | file n =>
          cases node' with
          | directory m' => cases hentry
          | file n' =>
              injection hentry with hbody
              exact .some (.file hbody.symm)

/-- No place is in the table of a disk twice. -/
def Distinct (d : Disk) : Prop := (d.nodes.map (·.1)).Nodup

instance (d : Disk) : Decidable d.Distinct := inferInstanceAs (Decidable (List.Nodup _))

/-- A directory stands at a place. -/
def HasDirectory (d : Disk) (place : Place) : Prop := ∃ m, d.node? place = some (.directory m)

/-- **Two disks are alike below a directory**: what stands below it is the same on both. On each of
them the directory is there, wherever that is, and all else may differ. -/
structure SameTree (root : String) (place place' : Place) (d d' : Disk) : Prop where
  found : ∃ m, d.find root = .ok (place, .directory m)
  found' : ∃ m, d'.find root = .ok (place', .directory m)
  distinct : d.Distinct
  distinct' : d'.Distinct
  below : ∀ names, names ≠ [] → d.standing? (place ++ names) = d'.standing? (place' ++ names)

/-! ### Children -/

theorem lookup_eq_some_iff_mem {α β : Type} [BEq α] [LawfulBEq α] {l : List (α × β)}
    (h : (l.map (·.1)).Nodup) {k : α} {v : β} : l.lookup k = some v ↔ (k, v) ∈ l := by
  induction l with
  | nil => simp
  | cons e l ih =>
      obtain ⟨a, b⟩ := e
      obtain ⟨hnew, hl⟩ := List.nodup_cons.1 h
      rw [List.lookup_cons, List.mem_cons]
      by_cases hk : k = a
      · subst hk
        have hno : (k, v) ∉ l := fun hmem => hnew (List.mem_map_of_mem (f := (·.1)) hmem)
        simp [hno, eq_comm]
      · simp [beq_eq_false_iff_ne.2 hk, hk, ih hl]

/-- The name of something in a directory, with the node. -/
def asChild (dir : Place) : Place × Node → Option (String × Node)
  | (place, node) =>
    match place.getLast? with
    | some name => if place.dropLast = dir then some (name, node) else none
    | none => none

theorem asChild_eq_some_iff {dir q : Place} {name : String} {node node' : Node} :
    asChild dir (q, node') = some (name, node) ↔ q = dir ++ [name] ∧ node' = node := by
  constructor
  · intro h
    unfold asChild at h
    dsimp only at h
    split at h
    · next last hlast =>
      obtain ⟨front, rfl⟩ := List.getLast?_eq_some_iff.1 hlast
      rw [List.dropLast_concat] at h
      split at h
      · next hfront =>
        cases h
        exact ⟨by rw [hfront], rfl⟩
      · cases h
    · cases h
  · rintro ⟨rfl, rfl⟩
    simp [asChild]

theorem mem_childrenAt (h : d.Distinct) {dir : Place} {name : String} {node : Node} :
    (name, node) ∈ d.childrenAt dir ↔ d.node? (dir ++ [name]) = some node := by
  rw [node?, if_neg (by simp), lookup_eq_some_iff_mem h,
    show d.childrenAt dir = d.nodes.filterMap (asChild dir) from rfl, List.mem_filterMap]
  constructor
  · rintro ⟨⟨q, node'⟩, hmem, hchild⟩
    obtain ⟨rfl, rfl⟩ := asChild_eq_some_iff.1 hchild
    exact hmem
  · intro hmem
    exact ⟨_, hmem, asChild_eq_some_iff.2 ⟨rfl, rfl⟩⟩

/-- **No two children have one name.** -/
theorem nodup_childrenAt (h : d.Distinct) (dir : Place) :
    ((d.childrenAt dir).map (·.1)).Nodup := by
  rw [show d.childrenAt dir = d.nodes.filterMap (asChild dir) from rfl, List.nodup_iff_pairwise_ne,
    List.pairwise_map]
  refine (List.pairwise_map.1 h).filterMap _ ?_
  rintro ⟨q, node⟩ ⟨q', node'⟩ hne ⟨name, n⟩ hchild ⟨name', n'⟩ hchild' rfl
  obtain ⟨rfl, -⟩ := asChild_eq_some_iff.1 hchild
  obtain ⟨rfl, -⟩ := asChild_eq_some_iff.1 hchild'
  exact hne rfl

/-- What a listing says of what stands under a name. -/
def Entry.info (name : String) : Entry → EntryInfo
  | .directory m => ⟨name, 0, true, m⟩
  | .file b => ⟨name, b.data.length, false, b.modified⟩

/-- What a directory lists. -/
def listed (d : Disk) (dir : Place) : List EntryInfo :=
  (d.childrenAt dir).map fun (name, node) => d.info name node

theorem info_eq (d : Disk) (name : String) (node : Node) :
    d.info name node = (d.entry node).info name := by
  cases node <;> rfl

theorem name_info (d : Disk) (name : String) (node : Node) : (d.info name node).name = name := by
  cases node <;> rfl

theorem nodup_listed (h : d.Distinct) (dir : Place) : ((d.listed dir).map (·.name)).Nodup := by
  have hnames : (d.listed dir).map (·.name) = (d.childrenAt dir).map (·.1) := by
    rw [listed, List.map_map]
    refine List.map_congr_left fun e _ => ?_
    exact d.name_info e.1 e.2
  rw [hnames]
  exact nodup_childrenAt h dir

/-- **What is listed depends on what stands in the directory**, and on nothing else. -/
theorem mem_listed (h : d.Distinct) {dir : Place} {i : EntryInfo} :
    i ∈ d.listed dir ↔ ∃ name entry, d.standing? (dir ++ [name]) = some entry ∧ entry.info name = i := by
  rw [listed, List.mem_map]
  constructor
  · rintro ⟨⟨name, node⟩, hmem, rfl⟩
    refine ⟨name, d.entry node, ?_, (d.info_eq name node).symm⟩
    rw [standing?, (mem_childrenAt h).1 hmem]
    rfl
  · rintro ⟨name, entry, hentry, rfl⟩
    obtain ⟨node, hnode, rfl⟩ := Option.map_eq_some_iff.1 hentry
    exact ⟨(name, node), (mem_childrenAt h).2 hnode, d.info_eq name node⟩

theorem perm_listed (h : d.Distinct) (h' : d'.Distinct) {dir dir' : Place}
    (hsame : ∀ name, d.standing? (dir ++ [name]) = d'.standing? (dir' ++ [name])) :
    (d.listed dir).Perm (d'.listed dir') := by
  refine (List.perm_ext_iff_of_nodup (List.Nodup.of_map _ (nodup_listed h dir))
    (List.Nodup.of_map _ (nodup_listed h' dir'))).2 fun i => ?_
  simp only [mem_listed h, mem_listed h', hsame]

namespace SameTree

theorem sameNode (h : SameTree root place place' d d') (names : List String) (hne : names ≠ []) :
    Option.Rel (SameNode d d') (d.node? (place ++ names)) (d'.node? (place' ++ names)) :=
  sameNode_of_standing? (h.below names hne)

/-- **Walking on from the directory** comes to the same on both disks. -/
theorem walk (h : SameTree root place place' d d') (front : List String)
    (hnames : ∀ n ∈ names, Path.Proper n) (hd : d.HasDirectory (place ++ front))
    (hd' : d'.HasDirectory (place' ++ front)) :
    Agree (fun q q' => q = place ++ (front ++ names) ∧ q' = place' ++ (front ++ names) ∧
        d.HasDirectory q ∧ d'.HasDirectory q')
      (d.walk (place ++ front) names) (d'.walk (place' ++ front) names) := by
  -- Each name that is walked moves on to the front.
  induction names generalizing front with
  | nil =>
      rw [List.append_nil]
      exact .ok ⟨rfl, rfl, hd, hd'⟩
  | cons name rest ih =>
      have hname := hnames name List.mem_cons_self
      have hrest : ∀ n ∈ rest, Path.Proper n := fun n hn => hnames n (List.mem_cons_of_mem _ hn)
      rw [walk_name hname.ne_dot hname.not_up,
        walk_name hname.ne_dot hname.not_up, child, child, List.append_assoc,
        List.append_assoc]
      by_cases hlong : maxName < name.utf8ByteSize
      · rw [if_pos hlong, if_pos hlong]
        exact .error _
      · rw [if_neg hlong, if_neg hlong]
        have hsame := h.sameNode (front ++ [name]) (by simp)
        generalize hn : d.node? (place ++ (front ++ [name])) = node at hsame
        generalize hn' : d'.node? (place' ++ (front ++ [name])) = node' at hsame
        cases hsame with
        | none => exact .error _
        | some hsame =>
            cases hsame with
            | file => exact .error _
            | directory m m' =>
                have hmore := ih _ hrest ⟨m, hn⟩ ⟨m', hn'⟩
                rw [List.append_assoc] at hmore
                exact hmore

/-! ### Looking up a path -/

theorem hasDirectory (h : SameTree root place place' d d') :
    d.HasDirectory place ∧ d'.HasDirectory place' := by
  obtain ⟨m, hm⟩ := h.found
  obtain ⟨m', hm'⟩ := h.found'
  exact ⟨⟨m, (walk_of_find hm).2⟩, ⟨m', (walk_of_find hm').2⟩⟩

/-- **A path below the directory is looked up** in the same one, under the same name. -/
theorem locate {name : String} (h : SameTree root place place' d d')
    (hnames : ∀ n ∈ front ++ [name], Path.Proper n) :
    Agree (fun t t' => t = ⟨place ++ front, .name name, false⟩ ∧
        t' = ⟨place' ++ front, .name name, false⟩)
      (d.locate (Path.below root (front ++ [name]))) (d'.locate (Path.below root (front ++ [name]))) := by
  have hname := hnames name (by simp)
  have hfront : ∀ n ∈ front, Path.Proper n := fun n hn => hnames n (List.mem_append_left _ hn)
  have hparts := Path.segments_below root hnames
  have hlast : Path.endsInSlash (Path.below root (front ++ [name])) = false := by
    rw [Path.below_concat]
    exact Path.endsInSlash_join hname
  have walk_to : ∀ {e : Disk} {q : Place} {m : Int}, e.find root = .ok (q, .directory m) →
      e.walk (e.origin root) ((Path.segments root).filter (· != "") ++ front) = e.walk q front :=
    fun he => walk_append (walk_of_find he).1 front
  obtain ⟨hd, hd'⟩ := h.hasDirectory
  obtain ⟨m, hm⟩ := h.found
  obtain ⟨m', hm'⟩ := h.found'
  have hwalk := h.walk [] hfront (by rwa [List.append_nil]) (by rwa [List.append_nil])
  rw [List.append_nil, List.append_nil, ← walk_to hm, ← walk_to hm'] at hwalk
  unfold Disk.locate
  split
  · exact .error _
  · split
    · exact .error _
    · split
      · exact .error _
      · dsimp only
        rw [hparts, Path.isAbsolute_below root hnames, hlast, ← List.append_assoc, List.dropLast_concat,
          List.getLast?_concat, ofSegment?_name hname.ne_dot hname.not_up]
        unfold origin at hwalk
        generalize Disk.walk d _ _ = found at hwalk
        generalize Disk.walk d' _ _ = found' at hwalk
        cases hwalk with
        | error e => exact .error e
        | ok hwalk =>
            obtain ⟨rfl, rfl, ⟨t, ht⟩, ⟨t', ht'⟩⟩ := hwalk
            rw [List.nil_append] at ht ht' ⊢
            simp only [ht, ht']
            exact .ok ⟨rfl, rfl⟩

/-- **A path below the directory names the same**, or is refused for the same reason. -/
theorem find (h : SameTree root place place' d d') (hnames : ∀ n ∈ names, Path.Proper n) :
    Agree (fun e e' => e.1 = place ++ names ∧ e'.1 = place' ++ names ∧ SameNode d d' e.2 e'.2)
      (d.find (Path.below root names)) (d'.find (Path.below root names)) := by
  induction names using List.reverseRecOn with
  | nil =>
      obtain ⟨m, hm⟩ := h.found
      obtain ⟨m', hm'⟩ := h.found'
      rw [show Path.below root [] = root from rfl, hm, hm', List.append_nil, List.append_nil]
      exact .ok ⟨rfl, rfl, .directory m m'⟩
  | append_singleton front name _ =>
      have ht := h.locate hnames
      have hsame := h.sameNode (front ++ [name]) (by simp)
      unfold Disk.find
      generalize Disk.locate d _ = t at ht
      generalize Disk.locate d' _ = t' at ht
      cases ht with
      | error e => exact .error e
      | ok ht =>
          obtain ⟨rfl, rfl⟩ := ht
          simp only [look, child, List.append_assoc]
          by_cases hlong : maxName < name.utf8ByteSize
          · rw [if_pos hlong, if_pos hlong]
            exact .error _
          · rw [if_neg hlong, if_neg hlong]
            generalize d.node? _ = node at hsame
            generalize d'.node? _ = node' at hsame
            cases hsame with
            | none => exact .error _
            | some hsame =>
                have hboth := hsame
                cases hsame <;> exact .ok ⟨rfl, rfl, hboth⟩

/-! ### Listing and removing -/

/-- **A directory below lists the same**, in some order. -/
theorem readDirectory (h : SameTree root place place' d d') (hnames : ∀ n ∈ names, Path.Proper n) :
    Agree (fun l l' => l.Perm l' ∧ (l.map (·.name)).Nodup)
      (d.readDirectory (Path.below root names)) (d'.readDirectory (Path.below root names)) := by
  have hfind := h.find hnames
  unfold Disk.readDirectory
  generalize Disk.find d _ = e at hfind
  generalize Disk.find d' _ = e' at hfind
  cases hfind with
  | error e => exact .error e
  | @ok e e' hfind =>
      obtain ⟨q, node⟩ := e
      obtain ⟨q', node'⟩ := e'
      obtain ⟨rfl, rfl, hnode⟩ := hfind
      cases hnode with
      | file => exact .error _
      | directory m m' =>
          refine .ok ⟨perm_listed h.distinct h.distinct' fun name => ?_, nodup_listed h.distinct _⟩
          rw [List.append_assoc, List.append_assoc]
          exact h.below (names ++ [name]) (by simp)

theorem removeFile_of_directory {q : Place} (hf : d.find path = .ok (q, .directory m)) :
    d.removeFile path = .error .isDirectory := by
  obtain ⟨t, ht, hl⟩ := look_of_find hf
  simp only [Disk.removeFile, ht]
  split
  · rw [hl]
  · rfl

/-- **A file below is removed on both disks**, or on neither for the same reason. -/
theorem removeFile (h : SameTree root place place' d d') (hnames : ∀ n ∈ names, Path.Proper n) :
    Agree (fun e e' => e = d.erase (place ++ names) ∧ e' = d'.erase (place' ++ names) ∧ names ≠ [] ∧
        (∃ n, d.node? (place ++ names) = some (.file n)) ∧
        ∃ n, d'.node? (place' ++ names) = some (.file n))
      (d.removeFile (Path.below root names)) (d'.removeFile (Path.below root names)) := by
  -- The root itself is refused for being a directory, whatever its path ends in.
  induction names using List.reverseRecOn with
  | nil =>
      obtain ⟨m, hm⟩ := h.found
      obtain ⟨m', hm'⟩ := h.found'
      rw [show Path.below root [] = root from rfl, removeFile_of_directory hm,
        removeFile_of_directory hm']
      exact .error _
  | append_singleton front name _ =>
      have ht := h.locate hnames
      have hsame := h.sameNode (front ++ [name]) (by simp)
      unfold Disk.removeFile
      generalize Disk.locate d _ = t at ht
      generalize Disk.locate d' _ = t' at ht
      cases ht with
      | error e => exact .error e
      | ok ht =>
          obtain ⟨rfl, rfl⟩ := ht
          simp only [look, child, List.append_assoc]
          by_cases hlong : maxName < name.utf8ByteSize
          · rw [if_pos hlong, if_pos hlong]
            exact .error _
          · rw [if_neg hlong, if_neg hlong]
            generalize hn : d.node? _ = node at hsame ⊢
            generalize hn' : d'.node? _ = node' at hsame ⊢
            cases hsame with
            | none => exact .error _
            | some hsame =>
                cases hsame with
                | directory => exact .error _
                | @file n n' _ => exact .ok ⟨rfl, rfl, by simp, ⟨n, rfl⟩, ⟨n', rfl⟩⟩

/-! ### Afterwards -/

theorem standing?_erase (d : Disk) (place q : Place) (hq : q ≠ []) :
    (d.erase place).standing? q = if q = place then none else d.standing? q := by
  rw [standing?, node?_erase]
  split
  · next hcase => rw [if_pos hcase.1, Option.map_none]
  · next hcase =>
    rw [if_neg fun hplace => hcase ⟨hplace, hq⟩]
    rfl

/-- **Two disks stay alike** when the same file is removed on both. -/
theorem erase (h : SameTree root place place' d d')
    (hn : ∃ n, d.node? (place ++ names) = some (.file n))
    (hn' : ∃ n, d'.node? (place' ++ names) = some (.file n)) :
    SameTree root place place' (d.erase (place ++ names)) (d'.erase (place' ++ names)) := by
  have stays : ∀ {e : Disk} {q r : Place}, (∃ m, e.find root = .ok (q, .directory m)) →
      (∃ n, e.node? r = some (.file n)) → ∃ m, (e.erase r).find root = .ok (q, .directory m) := by
    rintro e q r ⟨m, hm⟩ ⟨n, hn⟩
    refine ⟨m, find_of_same (sameDirectories_erase fun t ht => ?_) hm⟩
    cases hn.symm.trans ht
  have fewer : ∀ {e : Disk}, e.Distinct → ∀ r, (e.erase r).Distinct :=
    fun he r => (List.Sublist.map _ List.filter_sublist).nodup he
  refine ⟨stays h.found hn, stays h.found' hn', fewer h.distinct _, fewer h.distinct' _, ?_⟩
  intro names' hne'
  rw [standing?_erase _ _ _ (List.append_ne_nil_of_right_ne_nil _ hne'),
    standing?_erase _ _ _ (List.append_ne_nil_of_right_ne_nil _ hne'), h.below names' hne']
  simp only [List.append_cancel_left_eq]

end SameTree

/-- **All that has happened to a disk is that files below a place were removed.** Their contents are
kept for whoever has them open. -/
structure RemovedBelow (place : Place) (d d' : Disk) : Prop where
  bodies : d'.bodies = d.bodies
  here : d'.here = d.here
  clock : d'.clock = d.clock
  node : ∀ q, d'.node? q = d.node? q ∨
    (∃ names, names ≠ [] ∧ q = place ++ names) ∧ (∃ n, d.node? q = some (.file n)) ∧
      d'.node? q = none

namespace RemovedBelow

theorem refl (place : Place) (d : Disk) : RemovedBelow place d d :=
  ⟨rfl, rfl, rfl, fun _ => .inl rfl⟩

/-- What was open can be read on. -/
theorem body (h : RemovedBelow place d d') (n : Nat) : d'.body n = d.body n := by
  rw [Disk.body, h.bodies, Disk.body]

theorem erase (h : RemovedBelow place d d') (hne : names ≠ [])
    (hn : ∃ n, d'.node? (place ++ names) = some (.file n)) :
    RemovedBelow place d (d'.erase (place ++ names)) := by
  refine ⟨h.bodies, h.here, h.clock, fun q => ?_⟩
  rw [node?_erase]
  split
  · next hq =>
    obtain ⟨n, hn⟩ := hn
    refine .inr ⟨⟨names, hne, hq.1⟩, ?_, rfl⟩
    rcases h.node q with hsame | ⟨-, hfile, -⟩
    · exact ⟨n, by rw [← hsame, hq.1, hn]⟩
    · exact hfile
  · exact h.node q

end RemovedBelow

/-- Nodes that hold the same held the same before. -/
theorem SameNode.before {e e' : Disk} {node node' : Node} (h : SameNode d d' node node')
    (hr : RemovedBelow place e d) (hr' : RemovedBelow place' e' d') : SameNode e e' node node' := by
  cases h with
  | directory m m' => exact .directory m m'
  | file h =>
      rw [hr.body, hr'.body] at h
      exact .file h

end Disk

end DeviceGateway
