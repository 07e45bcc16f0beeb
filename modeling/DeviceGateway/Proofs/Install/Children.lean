import DeviceGateway.Proofs.FileSystem.Confinement
import DeviceGateway.Proofs.Install.Names

/-!
# Packages stay in their directories

Read component by component, a path ends in a name exactly if it has a file name
(`Path.fileName?_eq_some_iff`), and that name is all that a package takes from what its sender calls
it. A name that can stand in a directory, joined to a path, leads to a child of the directory that the
path leads to, by its text and on every disk (`Path.childOf_join`).

So a package is staged and installed under children of the two directories, whatever the sender calls
it (`packages_stay_in_their_directories`).
-/

namespace DeviceGateway

namespace Path

variable {path name : String} {parts : List String}

/-! ## Components -/

/-- What a path says at one point. -/
inductive Component where
  | root
  | here
  | up
  | named (name : String)
  deriving DecidableEq, Repr

namespace Component

def ofPart : String → Component
  | "." => here
  | ".." => up
  | n => named n

theorem ofPart_eq_named_iff {part n : String} :
    ofPart part = named n ↔ part = n ∧ n ≠ "." ∧ n ≠ ".." := by
  constructor
  · intro h
    unfold ofPart at h
    split at h
    · cases h
    · cases h
    · next hdot hup =>
      cases h
      exact ⟨rfl, hdot, hup⟩
  · rintro ⟨rfl, hdot, hup⟩
    unfold ofPart
    split
    · exact absurd rfl hdot
    · exact absurd rfl hup
    · rfl

end Component

/-- **A path component by component.** The root is one if the path starts there, and a dot only at the
very start. -/
def parse (path : String) : List Component :=
  (if isAbsolute path then [.root] else []) ++ (components path).map .ofPart

/-- A dot at the very start is all that the components have beside the names. -/
theorem components_eq_names (path : String) :
    components path = names path ∨ components path = "." :: names path := by
  obtain ⟨first, rest, hpath⟩ := List.exists_cons_of_ne_nil (segments_ne_nil path)
  rw [components_of_segments hpath, names, hpath]
  by_cases hfirst : first = "."
  · rw [if_pos hfirst, hfirst]
    exact .inr rfl
  · rw [if_neg hfirst, ← List.filter_append]
    exact .inl rfl

/-- The last component is a name if the last part is one. -/
theorem getLast?_parse_eq_named_iff :
    (parse path).getLast? = some (.named name) ↔
      (components path).getLast? = some name ∧ name ≠ "." ∧ name ≠ ".." := by
  have hroot : (if isAbsolute path then [Component.root] else []).getLast? ≠ some (.named name) := by
    split
    · exact fun h => by cases h
    · exact fun h => by cases h
  rw [parse, List.getLast?_append, List.getLast?_map]
  cases (components path).getLast? with
  | none =>
      constructor
      · exact fun h => absurd h hroot
      · exact fun h => by cases h.1
  | some part =>
      rw [Option.map_some, Option.some_or, Option.some.injEq, Option.some.injEq]
      exact Component.ofPart_eq_named_iff

/-- **The file name of a path is its last component**, if that is a name. -/
theorem fileName?_eq_some_iff : fileName? path = some name ↔
    (parse path).getLast? = some (.named name) := by
  have hlast : fileName? path = some name ↔
      (names path).getLast? = some name ∧ name ≠ ".." := by
    unfold fileName?
    split
    · next hup =>
      rw [hup]
      constructor
      · exact fun h => by cases h
      · rintro ⟨h, hne⟩
        exact absurd (Option.some.inj h).symm hne
    · next hup =>
      constructor
      · rintro h
        refine ⟨h, ?_⟩
        rintro rfl
        exact hup h
      · exact fun h => h.1
  rw [hlast, getLast?_parse_eq_named_iff]
  constructor
  · rintro ⟨h, hup⟩
    have hdot : name ≠ "." := by
      rintro rfl
      cases (List.mem_filter.1 (List.mem_of_getLast? h)).2
    refine ⟨?_, hdot, hup⟩
    rcases components_eq_names path with heq | heq
    · rw [heq, h]
    · rw [heq, List.getLast?_cons, h]
      rfl
  · rintro ⟨h, hdot, hup⟩
    refine ⟨?_, hup⟩
    rcases components_eq_names path with heq | heq
    · rw [← heq, h]
    · -- The dot at the start is not the last component, so there are names behind it.
      rw [heq, List.getLast?_cons] at h
      cases hnames : (names path).getLast? with
      | none =>
          rw [hnames] at h
          exact absurd (Option.some.inj h).symm hdot
      | some last =>
          rw [hnames] at h
          exact h

/-! ## Children -/

/-- **A path leads to a child of a directory**: component by component it is the path of the directory
and one name more, and on every disk it is looked up in that directory. -/
structure ChildOf (dir path name : String) : Prop where
  parsed : parse path = parse dir ++ [.named name]
  place : ∀ d : Disk, d.placeOf path = d.placeOf dir ++ [name]
  located : ∀ (d : Disk) (t : Disk.Target), d.locate path = .ok t →
    t = ⟨d.placeOf dir, .name name, false⟩

theorem parse_join (dir : String) (hname : Proper name) :
    parse (join dir name) = parse dir ++ [.named name] := by
  have hlast : Component.ofPart name = .named name :=
    Component.ofPart_eq_named_iff.2 ⟨rfl, hname.ne_dot, hname.not_up⟩
  rw [parse, isAbsolute_join hname, components_join dir hname, List.map_append, List.map_singleton,
    hlast, ← List.append_assoc, parse]

theorem placeOf_join (d : Disk) (dir : String) (hname : Proper name) :
    d.placeOf (join dir name) = d.placeOf dir ++ [name] := by
  rw [Disk.placeOf, segments_join hname, isAbsolute_join hname, List.foldl_append]
  show Disk.stepTo _ name = _
  rw [Disk.stepTo, if_neg hname.ne_dot, if_neg hname.not_up]
  rfl

theorem childOf_join (dir : String) (hname : Proper name) : ChildOf dir (join dir name) name where
  parsed := parse_join dir hname
  place d := placeOf_join d dir hname
  located _ _ h := Disk.locate_join hname h

end Path

/-! ## Packages -/

variable {label : Option String} {number : UInt64}

/-- A package keeps the name that its sender's path ends in. -/
theorem packageName_of_name {path name : String}
    (h : (Path.parse path).getLast? = some (.named name)) :
    packageName (some path) number = name := by
  rw [packageName, Option.bind_some, Path.fileName?_eq_some_iff.2 h, Option.getD_some]

/-- A package gets a name of its own when its sender gives none. -/
theorem packageName_of_no_name
    (h : ∀ path name, label = some path → (Path.parse path).getLast? ≠ some (.named name)) :
    packageName label number = s!"package-{number.toNat}.apk" := by
  have hnone : label.bind Path.fileName? = none := by
    refine Option.bind_eq_none_iff.2 fun path hpath => ?_
    refine Option.eq_none_iff_forall_ne_some.2 fun name hname => ?_
    exact h path name hpath (Path.fileName?_eq_some_iff.1 hname)
  rw [packageName, hnone, Option.getD_none]

namespace StagingDirectories

theorem installs_ensure (path : String) (w : Workspace StagingCounter) :
    ((ensure path).run w).2.installs = w.installs := rfl

/-- **A package that is staged** takes the next number, and both its paths come from its name. -/
theorem paths_of_stage {d : StagingDirectories} {w w' : Workspace StagingCounter} {p : StagedPackage}
    (h : (d.stage label).run w = (.ok p, w')) :
    p.staged = d.stagedPath (packageName label w.installs.next) w.installs.next ∧
      p.target = d.targetPath (packageName label w.installs.next) := by
  simp only [stage, Job.run_bind, Job.run_atOnce, Job.run_ask, StagingCounter.take] at h
  split at h
  · cases h
  · cases h
    exact ⟨rfl, rfl⟩

theorem paths_of_begin {d : StagingDirectories} {w w' : Workspace StagingCounter} {p : StagedPackage}
    (h : (d.begin label).run w = (.ok p, w')) :
    p.staged = d.stagedPath (packageName label w.installs.next) w.installs.next ∧
      p.target = d.targetPath (packageName label w.installs.next) := by
  simp only [begin, Job.run_bind] at h
  split at h
  · cases h
  · rw [Job.run_bind] at h
    split at h
    · cases h
    · have hpaths := paths_of_stage h
      rwa [installs_ensure, installs_ensure] at hpaths

end StagingDirectories

/-- **Packages stay in their directories**, whatever their senders call them. The name of a package
can stand in a directory: it is the last component of what the sender calls it if that is a name, and
made up from the number of the transaction otherwise. So a package that begins is staged and installed
under children of the two directories. -/
theorem packages_stay_in_their_directories (staging install : String) (process : UInt32)
    (label : Option String) (number : UInt64) :
    let d : StagingDirectories := ⟨staging, install, toString process.toNat⟩
    let name := packageName label number
    (name ≠ "" ∧ '/' ∉ name.toList ∧ name ≠ "." ∧ name ≠ "..") ∧
    (∀ path last, label = some path → (Path.parse path).getLast? = some (.named last) →
      name = last) ∧
    ((∀ path last, label = some path → (Path.parse path).getLast? ≠ some (.named last)) →
      name = s!"package-{number.toNat}.apk") ∧
    Path.ChildOf staging (d.stagedPath name number) (d.stagedName name number) ∧
    Path.ChildOf install (d.targetPath name) name ∧
    ∀ w p w', w.installs.next = number → (d.begin label).run w = (.ok p, w') →
      p.staged = d.stagedPath name number ∧ p.target = d.targetPath name := by
  intro d name
  have hname : Path.Proper name := proper_packageName label number
  have hprocess : '/' ∉ d.process.toList := not_mem_toString _ (by decide)
  refine ⟨⟨hname.ne_empty, hname.no_slash, hname.ne_dot, hname.not_up⟩, ?_, ?_, ?_, ?_, ?_⟩
  · rintro path last rfl h
    exact packageName_of_name h
  · exact packageName_of_no_name
  · exact Path.childOf_join staging (StagingDirectories.proper_stagedName hprocess hname)
  · exact Path.childOf_join install hname
  · rintro w p w' rfl h
    exact StagingDirectories.paths_of_begin h

end DeviceGateway
