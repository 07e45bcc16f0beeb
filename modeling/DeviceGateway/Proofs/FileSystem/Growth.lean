import DeviceGateway.Proofs.FileSystem.Above
import DeviceGateway.Proofs.FileSystem.Leftovers
import DeviceGateway.Proofs.FileSystem.Subtree

/-!
# What comes to a disk, and where

A disk is compared by what stands where and what the files hold (`shape?`); times do not matter.
Making a directory and copying a file bring one thing more, at the place that the path says
(`brings_makeDirectory`, `brings_copyFile`). Making a directory and all above it brings directories,
and if the path does not lead up again, only above the place that it says or there
(`node?_makeDirectories`).
-/

namespace DeviceGateway.Disk

variable {d d' : Disk} {path source target : String} {place q : Place} {n : Nat} {m : Int}

/-! ## Shapes -/

/-- **What stands at a place**, times aside. -/
inductive Shape where
  | directory
  | file (data : Bytes)
  deriving DecidableEq, Repr

def shape (d : Disk) : Node → Shape
  | .directory _ => .directory
  | .file n => .file (d.body n).data

def shape? (d : Disk) (place : Place) : Option Shape := (d.node? place).map d.shape

theorem shape?_of_node (h : d.node? q = some node) : d.shape? q = some (d.shape node) := by
  rw [shape?, h, Option.map_some]

theorem shape?_eq_none_iff : d.shape? q = none ↔ d.node? q = none := Option.map_eq_none_iff

theorem shape?_eq_directory_iff : d.shape? q = some .directory ↔ d.HasDirectory q := by
  unfold shape? HasDirectory
  cases hn : d.node? q with
  | none => simp
  | some node => cases node <;> simp [shape]

/-- **What stood somewhere is still there** when nothing is lost. -/
theorem Adds.shape? (h : d.Adds d') (hm : d.Made) {s : Shape} (hs : d.shape? q = some s) :
    d'.shape? q = some s := by
  obtain ⟨node, hn, rfl⟩ := Option.map_eq_some_iff.1 hs
  rw [shape?_of_node (h.node q node hn)]
  cases node with
  | directory m => rfl
  | file n =>
      have hb := List.getElem?_eq_getElem (hm q n hn)
      have hb' := h.body n _ hb
      simp only [shape, Disk.body, List.getD_eq_getElem?_getD, hb, hb']

/-- What was found is found for as long as the directories and the thing itself stay. -/
theorem KeepsDirectories.find {node : Node} (h : KeepsDirectories d d')
    (hf : d.find path = .ok (place, node)) (hn : d'.node? place = some node) :
    d'.find path = .ok (place, node) := by
  obtain ⟨t, ht, hl⟩ := look_of_find hf
  have hl' := look_elsewhere hl d'
  rw [hn] at hl'
  simp only [Disk.find, ht, hl] at hf
  simp only [Disk.find, h.locate ht, hl']
  cases node with
  | directory m => rfl
  | file n => exact hf

theorem Adds.find {node : Node} (h : d.Adds d') (hf : d.find path = .ok (place, node)) :
    d'.find path = .ok (place, node) := by
  obtain ⟨t, ht, hl⟩ := look_of_find hf
  exact KeepsDirectories.find ⟨h.here, fun q _ => h.node q _⟩ hf (h.node _ _ (node?_of_look hl))

/-! ## One thing more -/

/-- **One thing has come**, where nothing stood. -/
structure Brings (d : Disk) (place : Place) (s : Shape) (d' : Disk) : Prop where
  free : d.node? place = none
  shape : ∀ q, d'.shape? q = if q = place then some s else d.shape? q
  here : d'.here = d.here
  made : d'.Made

/-- Where nothing stands is not the root. -/
theorem ne_root_of_nothing (h : d.node? place = none) : place ≠ [] := by
  rintro rfl
  cases h.symm.trans (node?_root d)

theorem brings_makeDirectory (hm : d.Made) (h : d.makeDirectory path = .ok d') :
    d.Brings (d.placeOf path) .directory d' := by
  obtain ⟨t, name, ht, -, hl, rfl⟩ := makeDirectory_eq h
  have hnothing := node?_of_look hl
  have hroot := ne_root_of_nothing hnothing
  rw [place_of_look ht hl] at hnothing hroot ⊢
  refine ⟨hnothing, fun q => ?_, rfl, fun q k hq => ?_⟩
  · unfold shape?
    rw [node?_put]
    by_cases hq : q = d.placeOf path
    · rw [if_pos ⟨hq, hq ▸ hroot⟩, if_pos hq]
      rfl
    · rw [if_neg fun h => hq h.1, if_neg hq]
      rfl
  · rw [node?_put] at hq
    split at hq
    · cases hq
    · exact hm q k hq

theorem brings_storeData {data : Bytes} (hm : d.Made) (hfree : d.pathExists path = false)
    (h : d.storeData path data = .ok d') :
    d.Brings (d.placeOf path) (.file data) d' ∧
      ∃ n, d'.find path = .ok (d.placeOf path, .file n) := by
  unfold storeData at h
  split at h
  · cases h
  · next n d₁ hopen =>
    obtain ⟨hnothing, hmade, hfind⟩ := openForWriting_of_absent hfree hopen
    cases h
    have hd₁ : d₁ = (d.makeFile (d.placeOf path)).2 := congrArg Prod.snd hmade
    have hn : n = d.bodies.length := congrArg Prod.fst hmade
    have hlast : n < d₁.bodies.length := by
      rw [hd₁, length_makeFile, hn]
      exact Nat.lt_succ_self _
    have hnodes : ∀ q, d₁.node? q =
        if q = d.placeOf path then some (.file n) else d.node? q := by
      intro q
      rw [hd₁, node?_makeFile, hn]
      by_cases hq : q = d.placeOf path
      · rw [if_pos ⟨hq, hq ▸ ne_root_of_nothing hnothing⟩, if_pos hq]
      · rw [if_neg fun h => hq h.1, if_neg hq]
    refine ⟨⟨hnothing, fun q => ?_, ?_, ?_⟩, n, ?_⟩
    · unfold shape? writeAt
      rw [node?_modifyBody, hnodes]
      by_cases hq : q = d.placeOf path
      · have hempty : (d₁.body n).data = [] := by
          rw [hd₁, hn, body_makeFile_new]
        simp only [if_pos hq, Option.map_some, shape, body_modifyBody _ _ _ hlast, if_true, hempty]
        rw [show splice [] 0 data = [] ++ data from splice_at_end [] data, List.nil_append]
      · -- All other files were there before, so they have other numbers.
        rw [if_neg hq, if_neg hq]
        cases hq' : d.node? q with
        | none => rfl
        | some node =>
            cases node with
            | directory m => rfl
            | file k =>
                have hk := hm q k hq'
                have hkn : k ≠ n := by
                  rw [hn]
                  exact Nat.ne_of_lt hk
                simp only [Option.map_some, shape, body_modifyBody _ _ _ hlast, if_neg hkn]
                rw [hd₁, body_makeFile_of_lt _ hk]
    · rw [hd₁]
      rfl
    · rw [hd₁]
      exact (hm.makeFile _).modifyBody _ _
    · refine (sameDirectories_modifyBody d₁ n _).keeps.find hfind ?_
      rw [node?_modifyBody, hnodes, if_pos rfl]

theorem brings_copyFile (hm : d.Made) (hfree : d.pathExists target = false)
    (h : d.copyFile source target = .ok d') :
    ∃ n, d.find source = .ok (d.placeOf source, .file n) ∧
      d.Brings (d.placeOf target) (.file (d.body n).data) d' ∧
      ∃ k, d'.find target = .ok (d.placeOf target, .file k) := by
  unfold copyFile at h
  split at h
  · cases h
  · next data hdata =>
    unfold fileData at hdata
    split at hdata
    · cases hdata
    · cases hdata
    · next place n hf =>
      cases hdata
      obtain rfl := place_of_find hf
      exact ⟨n, hf, brings_storeData hm hfree h⟩

/-! ## Regular disks -/

/-- **A disk on which no place is told twice**, and all names can stand in a directory. -/
structure Regular (d : Disk) : Prop where
  tidy : d.Tidy
  distinct : d.Distinct
  proper : ∀ q node, d.node? q = some node → ∀ name ∈ q, Path.Proper name

/-- The last part of a path can stand in a directory if it is a name. -/
theorem proper_of_last {t : Target} {name : String} (ht : d.locate path = .ok t)
    (hname : t.last = .name name) : Path.Proper name := by
  have hlast := (locate_eq_ok.1 ht).last
  rw [hname] at hlast
  unfold LastPart.ofSegment? at hlast
  split at hlast
  · cases hlast
  · cases hlast
  · cases hlast
  · next part hdot hup hpart =>
    cases hlast
    obtain ⟨hmem, hne⟩ := List.mem_filter.1 (List.mem_of_getLast? hpart)
    refine ⟨?_, hup, Path.no_slash_of_mem_segments hmem⟩
    rw [Path.isName, hne, Bool.true_and]
    exact bne_iff_ne.2 hdot

theorem regular_makeDirectory (hr : d.Regular) (h : d.makeDirectory path = .ok d') : d'.Regular := by
  have htidy := hr.tidy.of_widens (widens_makeDirectory h)
    (grows_makeDirectory hr.tidy.standing h).standing
  obtain ⟨t, name, ht, hname, hl, rfl⟩ := makeDirectory_eq h
  refine ⟨htidy, ?_, ?_⟩
  · -- The place is told once, as it is told anew.
    show List.Nodup (List.map _ (List.filter _ d.nodes ++ [(t.dir ++ [name], _)]))
    rw [List.map_append, List.map_singleton, ← List.concat_eq_append, List.nodup_concat]
    refine ⟨?_, hr.distinct.sublist (List.filter_sublist.map _)⟩
    intro hmem
    obtain ⟨e, he, heq⟩ := List.mem_map.1 hmem
    exact bne_iff_ne.1 (List.mem_filter.1 he).2 heq
  · intro q node hq n hn
    rw [node?_put] at hq
    split at hq
    · next hplace =>
      rw [hplace.1] at hn
      rcases List.mem_append.1 hn with hn | hn
      · obtain ⟨m, hm⟩ := directory_of_locate ht
        exact hr.proper _ _ hm n hn
      · rw [List.mem_singleton.1 hn]
        exact proper_of_last ht hname
    · exact hr.proper q node hq n hn

/-- **Making a directory and all above it** keeps a disk regular. -/
theorem regular_makeDirectories (hr : d.Regular) (path : String) :
    (d.makeDirectories path).2.Regular :=
  related_makeDirectories (R := fun d d' => d.Regular → d'.Regular) (fun _ => id)
    (fun _ _ _ h h' hr => h' (h hr)) d path (fun _ _ _ _ h hr => regular_makeDirectory hr h) hr

/-! ### Regular by the table -/

def isDirectoryNode : Node → Bool
  | .directory _ => true
  | .file _ => false

/-- **What makes a disk regular**, read off its table. -/
def InOrder (d : Disk) : Prop :=
  d.Distinct ∧ (d.node? d.here).any isDirectoryNode = true ∧
    (∀ e ∈ d.nodes, (d.node? e.1.dropLast).any isDirectoryNode = true) ∧
    (∀ e ∈ d.nodes, e.2 ∉ (List.range d.bodies.length).map Node.file → isDirectoryNode e.2 = true) ∧
    (∀ e ∈ d.nodes, ∀ e' ∈ d.nodes, e.2 = e'.2 → isDirectoryNode e.2 = false → e.1 = e'.1) ∧
    ∀ e ∈ d.nodes, ∀ name ∈ e.1, Path.isName name = true ∧ name ≠ ".." ∧ '/' ∉ name.toList

instance (d : Disk) : Decidable d.InOrder := inferInstanceAs (Decidable (_ ∧ _))

theorem hasDirectory_of_any (h : (d.node? place).any isDirectoryNode = true) :
    d.HasDirectory place := by
  cases hn : d.node? place with
  | none =>
      rw [hn] at h
      cases h
  | some node =>
      cases node with
      | directory m => exact ⟨m, hn⟩
      | file n =>
          rw [hn] at h
          cases h

theorem InOrder.regular (h : d.InOrder) : d.Regular := by
  obtain ⟨hdistinct, hhere, hrooted, hmade, halone, hproper⟩ := h
  have mem {q : Place} {node : Node} (hq : q ≠ []) (hn : d.node? q = some node) :
      (q, node) ∈ d.nodes := by
    rwa [node?, if_neg hq, lookup_eq_some_iff_mem hdistinct] at hn
  -- The root is a directory, so a file stands elsewhere.
  have mem_file {q : Place} {n : Nat} (hn : d.node? q = some (.file n)) : (q, .file n) ∈ d.nodes := by
    refine mem ?_ hn
    rintro rfl
    cases hn.symm.trans (node?_root d)
  refine ⟨⟨⟨fun place name node hn => ?_, hasDirectory_of_any hhere⟩, fun q n hn => ?_,
    fun q q' n hn hn' => ?_⟩, hdistinct, fun q node hn name hname => ?_⟩
  · have habove := hrooted _ (mem (by simp) hn)
    rw [List.dropLast_concat] at habove
    exact hasDirectory_of_any habove
  · refine Decidable.byContradiction fun hlarge => ?_
    have hdirectory := hmade _ (mem_file hn) (by simpa using hlarge)
    cases hdirectory
  · exact halone _ (mem_file hn) _ (mem_file hn') rfl rfl
  · have hq : q ≠ [] := by
      rintro rfl
      cases hname
    obtain ⟨hisName, hup, hslash⟩ := hproper _ (mem hq hn) name hname
    exact ⟨hisName, hup, hslash⟩

/-! ## Directories above a path -/

/-- **Only above the place that a path says, or there,** something comes when the path is made, if it
does not lead up again. -/
theorem node?_makeDirectories (hup : ".." ∉ Path.segments path) (q : Place) :
    (d.makeDirectories path).2.node? q = d.node? q ∨ q <+: d.placeOf path := by
  have hall := related_makeDirectories (R := fun d₁ d₂ => d₁.here = d.here →
      d₂.here = d.here ∧ ∀ q, d₂.node? q = d₁.node? q ∨ q <+: d.placeOf path)
    (fun _ h => ⟨h, fun _ => .inl rfl⟩) ?_ d path ?_
  · exact (hall rfl).2 q
  · intro d₁ d₂ d₃ h h' hhere
    obtain ⟨hhere₂, hnode₂⟩ := h hhere
    obtain ⟨hhere₃, hnode₃⟩ := h' hhere₂
    refine ⟨hhere₃, fun q => ?_⟩
    rcases hnode₃ q with hsame | habove
    · rw [hsame]
      exact hnode₂ q
    · exact .inr habove
  · intro p hp d₁ d₂ hmade hhere
    obtain ⟨t, name, ht, -, hl, rfl⟩ := makeDirectory_eq hmade
    refine ⟨hhere, fun q => ?_⟩
    rw [node?_put, place_of_look ht hl, placeOf_of_here hhere]
    split
    · next hq =>
      right
      rw [hq.1]
      rcases List.mem_cons.1 hp with rfl | habove
      · exact List.prefix_rfl
      · exact placeOf_above d hup habove
    · exact .inl rfl

/-- Every place above a directory is one. -/
theorem HasDirectory.above (hd : d.HasDirectory place) (hr : d.Rooted) (hq : q <+: place) :
    d.HasDirectory q := by
  obtain ⟨below, rfl⟩ := hq
  by_cases hbelow : below = []
  · rwa [hbelow, List.append_nil] at hd
  · obtain ⟨m, hm⟩ := hd
    exact hr.directory_above hbelow hm

theorem prefix_of_foldl_stepTo {parts : List String} (hup : ".." ∉ parts) (place : Place) :
    place <+: parts.foldl stepTo place := by
  induction parts generalizing place with
  | nil => exact List.prefix_rfl
  | cons part rest ih =>
      rw [List.mem_cons, not_or] at hup
      refine List.IsPrefix.trans ?_ (ih hup.2 _)
      rw [stepTo, if_neg (Ne.symm hup.1)]
      split
      · exact List.prefix_rfl
      · exact List.prefix_append _ _

theorem walk_of_hasDirectory (hr : d.Rooted) {names : List String} (hup : ".." ∉ names)
    {start : Place} (hw : d'.walk start names = .ok place) (hd : d.HasDirectory place) :
    d.walk start names = .ok place := by
  induction names generalizing start with
  | nil => exact hw
  | cons name rest ih =>
      rw [List.mem_cons, not_or] at hup
      by_cases hsame : name = "."
      · subst hsame
        exact ih hup.2 hw
      · obtain ⟨hfits, -, hrest⟩ := (walk_name_eq_ok hsame (Ne.symm hup.1)).1 hw
        refine (walk_name_eq_ok hsame (Ne.symm hup.1)).2 ⟨hfits, ?_, ih hup.2 hrest⟩
        -- The walk goes on from there and does not come back.
        refine hd.above hr ?_
        rw [walk_eq hrest]
        exact prefix_of_foldl_stepTo hup.2 _

/-- **A directory that is found on a disk is found on another one** where it stands as well, if the
path does not lead up. -/
theorem pathExists_of_hasDirectory (hr : d.Rooted) (hhere : d'.here = d.here)
    (hup : ".." ∉ Path.segments path) (hf : d'.find path = .ok (place, .directory m))
    (hd : d.HasDirectory place) : d.pathExists path = true := by
  have hup' : ".." ∉ (Path.segments path).filter (· != "") := fun h =>
    hup (List.mem_of_mem_filter h)
  obtain ⟨t, ht, hl⟩ := look_of_find hf
  have hlocated := locate_eq_ok.1 ht
  -- The directory of the last part is above the place, or is the place itself.
  obtain ⟨rest, hrest⟩ := List.dropLast_prefix ((Path.segments path).filter (· != ""))
  have habove : t.dir <+: place := by
    rw [place_of_look ht hl, placeOf, ← hrest, List.foldl_append, ← walk_eq hlocated.walk]
    refine prefix_of_foldl_stepTo (fun h => hup' ?_) _
    rw [← hrest]
    exact List.mem_append_right _ h
  have hdir := hd.above hr habove
  have hwalk := walk_of_hasDirectory hr (fun h => hup' (List.dropLast_subset _ h))
    hlocated.walk hdir
  rw [hhere] at hwalk
  have hl' := look_elsewhere hl d
  obtain ⟨k, hk⟩ := hd
  rw [hk] at hl'
  have hfind := find_directory_iff.2
    ⟨t, locate_eq_ok.2 { hlocated with walk := hwalk, directory := hdir }, hl'⟩
  rw [pathExists, hfind]
  rfl

end DeviceGateway.Disk
