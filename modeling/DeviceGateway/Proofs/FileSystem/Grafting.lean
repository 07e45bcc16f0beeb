import DeviceGateway.Proofs.FileSystem.Growth

/-!
# A copy of a tree

A copy lists what stands below the source and brings each thing that is listed to the place below the
target that has the same names (`Grafts`). A directory that is there already is left, and a file that is
there stops the copy. So a copy that comes to its end has grafted all that stood below the source,
nothing that was there has changed, and nothing else has come (`grafts_copyTree`).
-/

namespace DeviceGateway.Disk

variable {d d' d'' : Disk} {source target : String} {src tgt place q : Place}
  {names : List String} {listed more : List (List String)}

/-! ## Paths below a directory -/

section

variable (hnames : ∀ n ∈ names, Path.Proper n)
include hnames

theorem placeOf_below (d : Disk) (root : String) :
    d.placeOf (Path.below root names) = d.placeOf root ++ names := by
  rw [placeOf, Path.segments_below root hnames, Path.isAbsolute_below root hnames,
    List.foldl_append, foldl_stepTo_proper hnames, placeOf]

/-- **The counterpart of a path below the source** is the path below the target with the same names. -/
theorem counterpart_below (source target : String) (hne : names ≠ []) :
    counterpart source target (Path.below source names) = Path.below target names := by
  rw [counterpart, Path.components_below source hnames, List.drop_left, Path.below_eq target hnames,
    if_neg hne]

end

theorem node?_of_pathExists (h : d.pathExists source = true) :
    ∃ node, d.find source = .ok (d.placeOf source, node) ∧
      d.node? (d.placeOf source) = some node := by
  unfold pathExists at h
  cases hf : d.find source with
  | error e =>
      rw [hf] at h
      cases h
  | ok found =>
      obtain ⟨place, node⟩ := found
      obtain rfl := place_of_find hf
      obtain ⟨t, ht, hl⟩ := look_of_find hf
      exact ⟨node, rfl, node?_of_look hl⟩

/-- A path that names a directory says where one stands. -/
theorem shape?_of_find_directory {m : Int} (h : d.find source = .ok (place, .directory m)) :
    d.shape? place = some .directory := by
  obtain ⟨t, ht, hl⟩ := look_of_find h
  exact shape?_eq_directory_iff.2 ⟨m, node?_of_look hl⟩

/-! ## Grafts -/

/-- **What stands below one place under some names has come below another one**, under the same names,
where nothing stood. -/
structure Grafts (src tgt : Place) (listed : List (List String)) (d d' : Disk) : Prop where
  here : d'.here = d.here
  made : d'.Made
  elsewhere : ∀ q, (∀ names ∈ listed, q ≠ tgt ++ names) → d'.shape? q = d.shape? q
  grafted : ∀ names ∈ listed,
    d'.shape? (tgt ++ names) = (d.shape? (tgt ++ names)).or (d.shape? (src ++ names))

namespace Grafts

theorem nil (src tgt : Place) (hm : d.Made) : Grafts src tgt [] d d :=
  ⟨rfl, hm, fun _ _ => rfl, fun _ h => absurd h List.not_mem_nil⟩

/-- **What stood somewhere** is still there. -/
theorem keeps (h : Grafts src tgt listed d d') {s : Shape} (hs : d.shape? q = some s) :
    d'.shape? q = some s := by
  by_cases hq : ∃ names ∈ listed, q = tgt ++ names
  · obtain ⟨names, hmem, rfl⟩ := hq
    rw [h.grafted names hmem, hs, Option.some_or]
  · rw [h.elsewhere q fun names hmem heq => hq ⟨names, hmem, heq⟩, hs]

/-- One graft after another, of things that were there before the first. -/
theorem trans (h : Grafts src tgt listed d d') (h' : Grafts src tgt more d' d'')
    (hsrc : ∀ names ∈ more, (d.shape? (src ++ names)).isSome = true) :
    Grafts src tgt (listed ++ more) d d'' where
  here := h'.here.trans h.here
  made := h'.made
  elsewhere q hq := by
    rw [h'.elsewhere q fun names hmem => hq names (List.mem_append_right _ hmem),
      h.elsewhere q fun names hmem => hq names (List.mem_append_left _ hmem)]
  grafted names hmem := by
    have hfirst : d'.shape? (tgt ++ names) = d.shape? (tgt ++ names) ∨
        d'.shape? (tgt ++ names) = (d.shape? (tgt ++ names)).or (d.shape? (src ++ names)) := by
      by_cases hin : names ∈ listed
      · exact .inr (h.grafted names hin)
      · refine .inl (h.elsewhere _ fun names' hin' heq => hin ?_)
        rwa [List.append_cancel_left heq]
    by_cases hin : names ∈ more
    · obtain ⟨s, hs⟩ := Option.isSome_iff_exists.1 (hsrc names hin)
      rw [h'.grafted names hin, h.keeps hs, hs]
      rcases hfirst with heq | heq
      · rw [heq]
      · rw [heq, hs, Option.or_assoc, Option.some_or]
    · have hlast : d''.shape? (tgt ++ names) = d'.shape? (tgt ++ names) := by
        refine h'.elsewhere _ fun names' hin' heq => hin ?_
        rwa [List.append_cancel_left heq]
      rw [hlast, h.grafted names ((List.mem_append.1 hmem).resolve_right hin)]

theorem of_there (hm : d.Made) (h : (d.shape? (tgt ++ names)).isSome = true) :
    Grafts src tgt [names] d d where
  here := rfl
  made := hm
  elsewhere _ _ := rfl
  grafted names' hmem := by
    obtain ⟨s, hs⟩ := Option.isSome_iff_exists.1 h
    rw [List.mem_singleton.1 hmem, hs, Option.some_or]

theorem of_brings {s : Shape} (h : d.Brings (tgt ++ names) s d')
    (hs : d.shape? (src ++ names) = some s) : Grafts src tgt [names] d d' where
  here := h.here
  made := h.made
  elsewhere q hq := by rw [h.shape, if_neg (hq names List.mem_cons_self)]
  grafted names' hmem := by
    rw [List.mem_singleton.1 hmem, h.shape, if_pos rfl, shape?_eq_none_iff.2 h.free, hs,
      Option.none_or]

section

variable (h : Grafts src tgt listed d d') (hin : ¬ src <+: tgt) (hout : ¬ tgt <+: src)
include h hin hout

/-- Unless one place is above the other one, the first tree stays as it was. -/
theorem keeps_source (names : List String) : d'.shape? (src ++ names) = d.shape? (src ++ names) := by
  refine h.elsewhere _ fun names' _ heq => ?_
  rcases List.prefix_or_prefix_of_prefix (List.prefix_append src names)
    (heq ▸ List.prefix_append tgt names') with hinside | habove
  · exact hin hinside
  · exact hout habove

/-- **A whole tree that is grafted** to a directory below which nothing stood is there twice. -/
theorem same (hsrc : d.shape? src = some .directory) (htgt : d.shape? tgt = some .directory)
    (hlisted : ∀ names, names ∈ listed ↔ names ≠ [] ∧ (d.shape? (src ++ names)).isSome = true)
    (hbelow : ∀ names, names ≠ [] → d.shape? (tgt ++ names) = none) (names : List String) :
    d'.shape? (tgt ++ names) = d'.shape? (src ++ names) := by
  rw [h.keeps_source hin hout]
  by_cases hnames : names = []
  · rw [hnames, List.append_nil, List.append_nil, h.keeps htgt, hsrc]
  · have hnothing := hbelow names hnames
    by_cases hthere : (d.shape? (src ++ names)).isSome = true
    · rw [h.grafted names ((hlisted names).2 ⟨hnames, hthere⟩), hnothing, Option.none_or]
    · have hno : d.shape? (src ++ names) = none := by simpa using hthere
      rw [hno, ← hnothing]
      refine h.elsewhere _ fun names' hmem heq => ?_
      obtain rfl := List.append_cancel_left heq
      exact hthere ((hlisted names).1 hmem).2

end

end Grafts

/-! ## Copying what is listed -/

/-- Proper names below the source, under which something stands. -/
structure Listed (d : Disk) (source : String) (names : List String) : Prop where
  nonempty : names ≠ []
  proper : ∀ n ∈ names, Path.Proper n
  there : (d.shape? (d.placeOf source ++ names)).isSome = true

theorem Listed.kept (h : d.Listed source names) (hg : Grafts src tgt more d d') :
    d'.Listed source names where
  nonempty := h.nonempty
  proper := h.proper
  there := by
    obtain ⟨s, hs⟩ := Option.isSome_iff_exists.1 h.there
    rw [placeOf_of_here hg.here, hg.keeps hs]
    rfl

theorem grafts_copyDirectories (hm : d.Made) (hlisted : ∀ names ∈ listed, d.Listed source names)
    (hdirectory : ∀ names ∈ listed, d.shape? (d.placeOf source ++ names) = some .directory)
    (h : d.copyDirectories source target (listed.map (Path.below source)) = (none, d')) :
    Grafts (d.placeOf source) (d.placeOf target) listed d d' := by
  induction listed generalizing d with
  | nil =>
      cases h
      exact .nil _ _ hm
  | cons names rest ih =>
      have hnames := hlisted names List.mem_cons_self
      have hplace := placeOf_below hnames.proper d target
      -- What one step has brought, the steps after it go on with.
      have hstep : ∀ {d₁ : Disk}, Grafts (d.placeOf source) (d.placeOf target) [names] d d₁ →
          d₁.copyDirectories source target (rest.map (Path.below source)) = (none, d') →
          Grafts (d.placeOf source) (d.placeOf target) (names :: rest) d d' := by
        intro d₁ hg hrest
        have hmore := ih hg.made
          (fun n hn => (hlisted n (List.mem_cons_of_mem _ hn)).kept hg)
          (fun n hn => by
            rw [placeOf_of_here hg.here]
            exact hg.keeps (hdirectory n (List.mem_cons_of_mem _ hn))) hrest
        rw [placeOf_of_here hg.here, placeOf_of_here hg.here] at hmore
        exact hg.trans hmore fun n hn => (hlisted n (List.mem_cons_of_mem _ hn)).there
      have hcounter := counterpart_below hnames.proper source target hnames.nonempty
      rw [List.map_cons] at h
      by_cases hthere : d.pathExists (Path.below target names) = true
      · rw [copyDirectories_of_exists d source target _ (by rwa [hcounter])] at h
        obtain ⟨node, -, hnode⟩ := node?_of_pathExists hthere
        rw [hplace] at hnode
        exact hstep (.of_there hm (by rw [shape?_of_node hnode]; rfl)) h
      · cases hmade : d.makeDirectory (Path.below target names) with
        | ok d₁ =>
            rw [copyDirectories_of_made d source target _ (by rwa [hcounter])
              (by rw [hcounter, hmade])] at h
            have hbrings := brings_makeDirectory hm hmade
            rw [hplace] at hbrings
            exact hstep (.of_brings hbrings (hdirectory names List.mem_cons_self)) h
        | error e =>
            rw [copyDirectories_of_fault d source target _ (by rwa [hcounter])
              (by rw [hcounter, hmade])] at h
            cases h

theorem grafts_copyFiles (hm : d.Made) (hlisted : ∀ names ∈ listed, d.Listed source names)
    (h : d.copyFiles source target (listed.map (Path.below source)) = (none, d')) :
    Grafts (d.placeOf source) (d.placeOf target) listed d d' := by
  induction listed generalizing d with
  | nil =>
      cases h
      exact .nil _ _ hm
  | cons names rest ih =>
      have hnames := hlisted names List.mem_cons_self
      rw [List.map_cons] at h
      unfold copyFiles at h
      rw [counterpart_below hnames.proper source target hnames.nonempty] at h
      dsimp only at h
      split at h
      · cases h
      · split at h
        · cases h
        · split at h
          · cases h
          · next hfree =>
            split at h
            · next d₁ hcopied =>
              obtain ⟨n, hf, hbrings, -⟩ := brings_copyFile hm (eq_false_of_ne_true hfree) hcopied
              obtain ⟨t, ht, hl⟩ := look_of_find hf
              have hsource := shape?_of_node (node?_of_look hl)
              rw [placeOf_below hnames.proper] at hsource hbrings
              have hg := Grafts.of_brings hbrings hsource
              have hmore := ih hg.made
                (fun n hn => (hlisted n (List.mem_cons_of_mem _ hn)).kept hg) h
              rw [placeOf_of_here hg.here, placeOf_of_here hg.here] at hmore
              exact hg.trans hmore fun n hn => (hlisted n (List.mem_cons_of_mem _ hn)).there
            · cases h

/-! ## The listing -/

/-- What stands below a place, by the names from there. -/
def entriesBelow (d : Disk) (place : Place) : List (Place × Node) :=
  d.nodes.filterMap fun (p, n) =>
    if place.isPrefixOf p && p != place then some (p.drop place.length, n) else none

theorem mem_entriesBelow (hd : d.Distinct) {node : Node} :
    (names, node) ∈ d.entriesBelow place ↔ names ≠ [] ∧ d.node? (place ++ names) = some node := by
  have hlookup : names ≠ [] →
      (d.node? (place ++ names) = some node ↔ (place ++ names, node) ∈ d.nodes) := by
    intro hne
    rw [node?, if_neg (List.append_ne_nil_of_right_ne_nil _ hne), lookup_eq_some_iff_mem hd]
  unfold entriesBelow
  rw [List.mem_filterMap]
  constructor
  · rintro ⟨⟨p, n⟩, hmem, hsome⟩
    dsimp only at hsome
    split at hsome
    · next hbelow =>
      cases hsome
      rw [Bool.and_eq_true, List.isPrefixOf_iff_prefix, bne_iff_ne] at hbelow
      obtain ⟨⟨below, rfl⟩, hne⟩ := hbelow
      rw [List.drop_left] at hlookup ⊢
      have hbelow : below ≠ [] := by
        rintro rfl
        exact hne (List.append_nil _)
      exact ⟨hbelow, (hlookup hbelow).2 hmem⟩
    · cases hsome
  · rintro ⟨hne, hnode⟩
    refine ⟨(place ++ names, node), (hlookup hne).1 hnode, ?_⟩
    dsimp only
    rw [if_pos, List.drop_left]
    rw [Bool.and_eq_true, List.isPrefixOf_iff_prefix, bne_iff_ne]
    refine ⟨List.prefix_append _ _, fun heq => hne ?_⟩
    exact List.append_cancel_left (heq.trans (List.append_nil place).symm)

/-- What stands below a place, in the order of a listing. -/
def sortedBelow (d : Disk) (place : Place) : List (Place × Node) :=
  (d.entriesBelow place).mergeSort fun a b => "/".intercalate a.1 ≤ "/".intercalate b.1

def asDirectory : Place × Node → Option Place
  | (p, .directory _) => some p
  | (_, .file _) => none

def asFile : Place × Node → Option Place
  | (_, .directory _) => none
  | (p, .file _) => some p

theorem listTree_eq (d : Disk) (source : String) (place : Place) :
    d.listTree source place =
      ⟨source :: ((d.sortedBelow place).filterMap asDirectory).map (Path.below source),
        ((d.sortedBelow place).filterMap asFile).map (Path.below source)⟩ := by
  rw [List.map_filterMap, List.map_filterMap]
  show TreeListing.mk (source :: List.filterMap _ (d.sortedBelow place))
    (List.filterMap _ (d.sortedBelow place)) = _
  congr 2
  · refine congrArg (fun f => List.filterMap f (d.sortedBelow place)) (funext fun e => ?_)
    obtain ⟨p, node⟩ := e
    cases node <;> rfl
  · funext e
    obtain ⟨p, node⟩ := e
    cases node <;> rfl

/-- Entries that stand in order are listed as they stand. -/
theorem listTree_of_sorted (h : (d.entriesBelow place).Pairwise fun a b =>
    decide ("/".intercalate a.1 ≤ "/".intercalate b.1) = true) :
    d.listTree source place =
      ⟨source :: ((d.entriesBelow place).filterMap asDirectory).map (Path.below source),
        ((d.entriesBelow place).filterMap asFile).map (Path.below source)⟩ := by
  rw [listTree_eq, sortedBelow, List.mergeSort_of_pairwise h]

theorem mem_directories (hd : d.Distinct) :
    names ∈ (d.sortedBelow place).filterMap asDirectory ↔
      names ≠ [] ∧ d.shape? (place ++ names) = some .directory := by
  rw [shape?_eq_directory_iff, List.mem_filterMap]
  constructor
  · rintro ⟨⟨p, node⟩, hmem, hsome⟩
    cases node with
    | file n => cases hsome
    | directory m =>
        cases hsome
        obtain ⟨hne, hnode⟩ := (mem_entriesBelow hd).1 (List.mem_mergeSort.1 hmem)
        exact ⟨hne, m, hnode⟩
  · rintro ⟨hne, m, hnode⟩
    exact ⟨(names, .directory m), List.mem_mergeSort.2 ((mem_entriesBelow hd).2 ⟨hne, hnode⟩), rfl⟩

theorem mem_files (hd : d.Distinct) :
    names ∈ (d.sortedBelow place).filterMap asFile ↔
      names ≠ [] ∧ ∃ n, d.node? (place ++ names) = some (.file n) := by
  rw [List.mem_filterMap]
  constructor
  · rintro ⟨⟨p, node⟩, hmem, hsome⟩
    cases node with
    | directory m => cases hsome
    | file n =>
        cases hsome
        obtain ⟨hne, hnode⟩ := (mem_entriesBelow hd).1 (List.mem_mergeSort.1 hmem)
        exact ⟨hne, n, hnode⟩
  · rintro ⟨hne, n, hnode⟩
    exact ⟨(names, .file n), List.mem_mergeSort.2 ((mem_entriesBelow hd).2 ⟨hne, hnode⟩), rfl⟩

/-- **All that stands below a place is listed.** -/
theorem mem_listing (hd : d.Distinct) :
    names ∈ (d.sortedBelow place).filterMap asDirectory ++ (d.sortedBelow place).filterMap asFile ↔
      names ≠ [] ∧ (d.shape? (place ++ names)).isSome = true := by
  rw [List.mem_append, mem_directories hd, mem_files hd]
  constructor
  · rintro (⟨hne, hshape⟩ | ⟨hne, n, hnode⟩)
    · exact ⟨hne, by rw [hshape]; rfl⟩
    · exact ⟨hne, by rw [shape?_of_node hnode]; rfl⟩
  · rintro ⟨hne, hthere⟩
    obtain ⟨s, hs⟩ := Option.isSome_iff_exists.1 hthere
    obtain ⟨node, hnode, -⟩ := Option.map_eq_some_iff.1 hs
    cases node with
    | directory k => exact .inl ⟨hne, shape?_of_node hnode⟩
    | file n => exact .inr ⟨hne, n, hnode⟩

theorem Regular.lists (hr : d.Regular) (hne : names ≠ [])
    (hthere : (d.shape? (d.placeOf source ++ names)).isSome = true) : d.Listed source names := by
  refine ⟨hne, fun n hn => ?_, hthere⟩
  obtain ⟨s, hs⟩ := Option.isSome_iff_exists.1 hthere
  obtain ⟨node, hnode, -⟩ := Option.map_eq_some_iff.1 hs
  exact hr.proper _ node hnode n (List.mem_append_right _ hn)

/-! ## The whole copy -/

/-- A slash behind a path does not lead anywhere. -/
theorem placeOf_join_empty (d : Disk) (path : String) :
    d.placeOf (Path.join path "") = d.placeOf path := by
  rw [Path.join_relative path rfl]
  split
  · rw [String.append_empty]
  · next hopen =>
    rw [not_or] at hopen
    rw [String.append_empty, placeOf, Path.segments_endsInSlash, List.filter_append,
      Path.isAbsolute_append hopen.1]
    exact congrArg (List.foldl stepTo _) (List.append_nil _)

/-- The first directory that is listed is the source itself, and its counterpart is there. -/
theorem copyDirectories_source {rest : List String} {m : Int}
    (hf : d.find target = .ok (tgt, .directory m)) (hm : d.Made)
    (h : d.copyDirectories source target (source :: rest) = (none, d')) :
    d.copyDirectories source target rest = (none, d') := by
  have hcounter : counterpart source target source = Path.join target "" := by
    rw [counterpart, List.drop_length]
    rfl
  by_cases hthere : d.pathExists (Path.join target "") = true
  · rwa [copyDirectories_of_exists d source target _ (by rwa [hcounter])] at h
  · cases hmade : d.makeDirectory (Path.join target "") with
    | ok d₁ =>
        have hfree := (brings_makeDirectory hm hmade).free
        obtain ⟨t, ht, hl⟩ := look_of_find hf
        rw [placeOf_join_empty, ← place_of_look ht hl, node?_of_look hl] at hfree
        cases hfree
    | error e =>
        rw [copyDirectories_of_fault d source target _ (by rwa [hcounter])
          (by rw [hcounter, hmade])] at h
        cases h

/-- **A copy that comes to its end**: all that stood below the source stands below the target as well,
if nothing was there before, and nothing else has come. -/
theorem grafts_copyContents (hr : d.Regular) {m : Int}
    (hf : d.find target = .ok (tgt, .directory m))
    (h : d.copyContents source target = (none, d')) :
    (∃ k, d.find source = .ok (d.placeOf source, .directory k)) ∧
      ∃ listed, Grafts (d.placeOf source) tgt listed d d' ∧
        ∀ names, names ∈ listed ↔
          names ≠ [] ∧ (d.shape? (d.placeOf source ++ names)).isSome = true := by
  unfold copyContents at h
  split at h
  · cases h
  · cases h
  · next place k hsource =>
    obtain rfl := place_of_find hsource
    obtain rfl := place_of_find hf
    refine ⟨⟨k, hsource⟩, ?_⟩
    have hm := hr.tidy.made
    dsimp only at h
    rw [listTree_eq] at h
    split at h
    · cases h
    · next d₁ hdirs =>
      have hlisted : ∀ names ∈ (d.sortedBelow (d.placeOf source)).filterMap asDirectory ++
          (d.sortedBelow (d.placeOf source)).filterMap asFile, d.Listed source names := by
        intro names hmem
        obtain ⟨hne, hthere⟩ := (mem_listing hr.distinct).1 hmem
        exact hr.lists hne hthere
      have hg := grafts_copyDirectories hm (fun n hn => hlisted n (List.mem_append_left _ hn))
        (fun names hmem => ((mem_directories hr.distinct).1 hmem).2)
        (copyDirectories_source hf hm hdirs)
      have hg' := grafts_copyFiles hg.made
        (fun n hn => (hlisted n (List.mem_append_right _ hn)).kept hg) h
      rw [placeOf_of_here hg.here, placeOf_of_here hg.here] at hg'
      exact ⟨_, hg.trans hg' fun n hn => (hlisted n (List.mem_append_right _ hn)).there,
        fun names => mem_listing hr.distinct⟩

/-- What a copy comes to when the directories above it have been made and its own can be. -/
theorem copyTree_of_listed {d₁ : Disk} {listing : TreeListing} (source : String) (place : Place)
    (m : Int) (hmade : d.makeDirectories target = (none, d₁))
    (hf : d₁.find source = .ok (place, .directory m)) (hlisted : d₁.listTree source place = listing)
    (hdirs : (d₁.copyDirectories source target listing.directories).1.isNone = true) :
    let copied := (d₁.copyDirectories source target listing.directories).2.copyFiles source target
      listing.files
    (d.copyTree source target).1.isNone = copied.1.isNone ∧
      (d.copyTree source target).2 = copied.2 := by
  have hcontents : d₁.copyContents source target =
      (d₁.copyDirectories source target listing.directories).2.copyFiles source target
        listing.files := by
    simp only [copyContents, hf, hlisted]
    split
    · next e d₂ hd₂ =>
      rw [hd₂] at hdirs
      cases hdirs
    · next d₂ hd₂ => rw [hd₂]
  simp only [copyTree, hmade, hcontents]
  split
  · next e d₃ hfiles =>
    rw [hfiles]
    exact ⟨rfl, rfl⟩
  · next d₃ hfiles =>
    rw [hfiles]
    exact ⟨rfl, rfl⟩

/-! ## The same tree twice -/

/-- **A copy**: both paths lead somewhere, and unless the second place is inside the first, the same
things stand there, under the same names. -/
structure Copied (d : Disk) (source target : String) (src tgt : Place) : Prop where
  source : ∃ node, d.find source = .ok (src, node)
  target : ∃ node, d.find target = .ok (tgt, node)
  same : ¬ src <+: tgt → ∀ names, d.shape? (tgt ++ names) = d.shape? (src ++ names)

/-- Below a place where no directory stands there is nothing. -/
theorem shape?_below_nothing (hr : d.Rooted) (h : ¬ d.HasDirectory place) (hne : names ≠ []) :
    d.shape? (place ++ names) = none := by
  rw [shape?_eq_none_iff, Option.eq_none_iff_forall_ne_some]
  intro node hnode
  exact h (hr.directory_above hne hnode)

/-- **A file that was copied.** -/
theorem copied_of_copyFile (hr : d.Regular) (hfree : d.pathExists target = false)
    (h : d.copyFile source target = .ok d') : ∃ src tgt, d'.Copied source target src tgt := by
  obtain ⟨n, hf, hbrings, k, hf'⟩ := brings_copyFile hr.tidy.made hfree h
  have hadds := adds_copyFile hfree h
  obtain ⟨t, ht, hl⟩ := look_of_find hf
  have hfile := node?_of_look hl
  refine ⟨_, _, ⟨_, hadds.find hf⟩, ⟨_, hf'⟩, fun hapart names => ?_⟩
  have hsrc : d'.shape? (d.placeOf source ++ names) = d.shape? (d.placeOf source ++ names) := by
    rw [hbrings.shape, if_neg]
    exact fun heq => hapart ⟨names, heq⟩
  by_cases hnames : names = []
  · subst hnames
    rw [hsrc, hbrings.shape, List.append_nil, List.append_nil, if_pos rfl, shape?_of_node hfile]
    rfl
  · -- There is nothing below a file, nor below a place where nothing stood.
    have hno : ¬ d.HasDirectory (d.placeOf target) := by
      rintro ⟨m, hm⟩
      cases hbrings.free.symm.trans hm
    have hno' : ¬ d.HasDirectory (d.placeOf source) := by
      rintro ⟨m, hm⟩
      cases hfile.symm.trans hm
    have hrooted := hr.tidy.standing.rooted
    rw [hsrc, hbrings.shape, if_neg (by simpa using hnames), shape?_below_nothing hrooted hno hnames,
      shape?_below_nothing hrooted hno' hnames]

theorem locate_empty (d : Disk) : d.locate "" = .error .missing := by
  unfold locate
  rw [if_neg (by decide), if_pos rfl]

/-- The empty path names no directory that could hold a copy. -/
theorem copyDirectories_empty (rest : List String) :
    d.copyDirectories source "" (source :: rest) = (some FileFault.missing.message, d) := by
  have hcounter : counterpart source "" source = "" := by
    rw [counterpart, List.drop_length]
    rfl
  refine copyDirectories_of_fault d source "" rest ?_ ?_
  · rw [hcounter]
    simp only [pathExists, find, locate_empty, Except.toOption, Option.isSome_none,
      Bool.false_eq_true, not_false_eq_true]
  · rw [hcounter]
    simp only [makeDirectory, locate_empty]

theorem ne_empty_of_copyContents (h : d.copyContents source target = (none, d')) : target ≠ "" := by
  intro hempty
  unfold copyContents at h
  split at h
  · cases h
  · cases h
  · next place m hf =>
    have hdirs : d.copyDirectories source target (d.listTree source place).directories =
        (some FileFault.missing.message, d) := by
      rw [listTree_eq, hempty]
      exact copyDirectories_empty _
    dsimp only at h
    rw [hdirs] at h
    cases h

/-- If no directory stood at the place that a path says, nothing stands below it when directories have
been made on the way there. -/
theorem shape?_below_made (hr : d.Rooted) (hup : ".." ∉ Path.segments target)
    (hno : ¬ d.HasDirectory (d.placeOf target)) (names : List String) (hne : names ≠ []) :
    (d.makeDirectories target).2.shape? (d.placeOf target ++ names) = none := by
  rw [shape?_eq_none_iff]
  rcases node?_makeDirectories hup (d.placeOf target ++ names) with hsame | habove
  · rw [hsame, ← shape?_eq_none_iff]
    exact shape?_below_nothing hr hno hne
  · have hle := habove.length_le
    rw [List.length_append] at hle
    exact absurd (List.length_eq_zero_iff.1 (by omega)) hne

/-- **A tree that was copied** to a path that does not lead up. -/
theorem copied_of_copyTree (hr : d.Regular) {m : Int} (hf : d.find source = .ok (src, .directory m))
    (hfree : d.pathExists target = false) (hup : ".." ∉ Path.segments target)
    (h : d.copyTree source target = (none, d')) : ∃ tgt, d'.Copied source target src tgt := by
  have hrooted := hr.tidy.standing.rooted
  have hr₁ := regular_makeDirectories hr target
  have hwidens := widens_makeDirectories d target
  have hbelow := @shape?_below_made d target hrooted hup
  have hprovided := @provided_of_made d target
  unfold copyTree at h
  split at h
  · cases h
  · next d₁ hmade =>
    rw [hmade] at hr₁ hwidens hbelow hprovided
    have hadds := hwidens.adds
    split at h
    · cases h
    · next d₂ hcopied =>
      cases h
      have hthere := (hprovided rfl).resolve_left (ne_empty_of_copyContents hcopied)
      obtain ⟨t, tgt, k, ht, hl⟩ := isDirectory_eq_true_iff.1 hthere
      have hf' := find_directory_iff.2 ⟨t, ht, hl⟩
      have htgt : tgt = d.placeOf target :=
        (place_of_find hf').trans (placeOf_of_here hadds.here target)
      -- Nothing stood at the target, or the path would have led there.
      have hno : ¬ d.HasDirectory tgt := by
        intro hd
        have hexists := pathExists_of_hasDirectory hrooted hadds.here hup hf' hd
        rw [hfree] at hexists
        cases hexists
      have hout : ¬ tgt <+: src := by
        obtain ⟨t', ht', hl'⟩ := look_of_find hf
        exact fun habove => hno (HasDirectory.above ⟨m, node?_of_look hl'⟩ hrooted habove)
      rw [← htgt] at hbelow
      obtain ⟨-, listed, hg, hlisted⟩ := grafts_copyContents hr₁ hf' hcopied
      have hsource := hadds.find hf
      rw [← place_of_find hsource] at hg hlisted
      have hcontents := adds_copyContents d₁ source target
      rw [hcopied] at hcontents
      refine ⟨tgt, ⟨_, hcontents.find hsource⟩, ⟨_, hcontents.find hf'⟩, fun hin => ?_⟩
      exact hg.same hin hout (shape?_of_find_directory hsource) (shape?_of_find_directory hf')
        hlisted (hbelow hno)

end DeviceGateway.Disk
