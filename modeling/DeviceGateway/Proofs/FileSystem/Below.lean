import Mathlib.Data.List.Induction
import DeviceGateway.Proofs.FileSystem.Lexical

/-!
# Paths below a directory

A path that is resolved against a root is the root with proper names after it (`resolveUnder_eq_ok`),
so it is looked up by walking to the root and on from there: where a path leads to a directory, the
walk along all its parts leads there as well (`walk_of_find`).
-/

namespace DeviceGateway

namespace Path

/-- **The path of something below a directory**, name by name. -/
def below (root : String) (names : List String) : String := names.foldl join root

theorem below_concat (root : String) (names : List String) (name : String) :
    below root (names ++ [name]) = join (below root names) name := by
  rw [below, List.foldl_append]
  rfl

theorem proper_of_mem_names {path name : String} (hup : (segments path).contains ".." = false)
    (h : name ∈ names path) : Proper name := by
  obtain ⟨hmem, hname⟩ := List.mem_filter.1 h
  refine ⟨hname, ?_, no_slash_of_mem_segments hmem⟩
  rintro rfl
  rw [List.contains_iff_mem.2 hmem] at hup
  cases hup

/-- **A path that is resolved stands below the root**, under proper names. -/
theorem resolveUnder_eq_ok {root requested path : String}
    (h : resolveUnder root requested = .ok path) :
    ∃ names, (∀ n ∈ names, Proper n) ∧ path = below root names := by
  unfold resolveUnder at h
  split at h
  · cases h
  · next hup =>
    cases h
    exact ⟨names requested, fun n hn => proper_of_mem_names (eq_false_of_ne_true hup) hn, rfl⟩

section

variable (root : String) {names : List String} (hnames : ∀ n ∈ names, Proper n)
include hnames

theorem isAbsolute_below : isAbsolute (below root names) = isAbsolute root := by
  induction names using List.reverseRecOn with
  | nil => rfl
  | append_singleton front name ih =>
      rw [below_concat, isAbsolute_join (hnames name (by simp))]
      exact ih fun n hn => hnames n (List.mem_append_left _ hn)

theorem segments_below :
    (segments (below root names)).filter (· != "") = (segments root).filter (· != "") ++ names := by
  induction names using List.reverseRecOn with
  | nil => exact (List.append_nil _).symm
  | append_singleton front name ih =>
      rw [below_concat, segments_join (hnames name (by simp)),
        ih fun n hn => hnames n (List.mem_append_left _ hn), List.append_assoc]

end

/-- A path without parts is the root. -/
theorem isAbsolute_of_no_parts {path : String} (hne : path ≠ "")
    (h : (segments path).filter (· != "") = []) : isAbsolute path = true := by
  have hnone : ∀ segment ∈ segments path, segment = "" := by
    intro segment hmem
    simpa using List.filter_eq_nil_iff.1 h segment hmem
  by_cases hslash : '/' ∈ path.toList
  · obtain ⟨front, rest, hpath, hfront⟩ := List.eq_append_cons_of_mem hslash
    have hfirst : String.ofList front ∈ segments path := by
      rw [segments, hpath, List.splitOn_append_cons_self_of_not_mem hfront]
      exact List.mem_cons_self
    have hnil : front = [] := by
      rw [← String.toList_ofList (l := front), hnone _ hfirst]
      rfl
    rw [isAbsolute, hpath, hnil]
    rfl
  · have honly : path ∈ segments path := by
      rw [segments, List.splitOn_eq_singleton hslash, List.map_singleton, String.ofList_toList]
      exact List.mem_cons_self
    exact absurd (hnone path honly) hne

end Path

namespace Disk

variable {d : Disk} {path : String} {place start : Place} {names : List String} {m : Int}

/-! ## Walking -/

theorem walk_append (h : d.walk start names = .ok place) (more : List String) :
    d.walk start (names ++ more) = d.walk place more := by
  induction names generalizing start with
  | nil =>
      cases h
      rfl
  | cons name rest ih =>
      by_cases hsame : name = "."
      · subst hsame
        exact ih h
      · by_cases hup : name = ".."
        · subst hup
          exact ih h
        · rw [walk_name hsame hup] at h
          rw [List.cons_append, walk_name hsame hup]
          split at h
          · cases h
          · cases h
          · cases h
          · exact ih h

/-- Where the walk along a path begins. -/
def origin (d : Disk) (path : String) : Place := if Path.isAbsolute path then [] else d.here

theorem walk_of_locate {t : Target} (h : d.locate path = .ok t) :
    path ≠ "" ∧
      d.walk (d.origin path) ((Path.segments path).filter (· != "")).dropLast = .ok t.dir ∧
      t.last = .ofSegment? ((Path.segments path).filter (· != "")).getLast? := by
  have hl := locate_eq_ok.1 h
  exact ⟨hl.nonempty, hl.walk, hl.last⟩

/-- Where a directory is found does not depend on the files. -/
theorem find_of_same (h : SameDirectories d d') (hf : d.find path = .ok (place, .directory m)) :
    d'.find path = .ok (place, .directory m) := by
  obtain ⟨t, ht, hl⟩ := look_of_find hf
  have hl' := look_elsewhere hl d'
  rw [(h.directory place m).2 (node?_of_look hl)] at hl'
  exact find_directory_iff.2 ⟨t, h.keeps.locate ht, hl'⟩

/-- The last part of the path of a directory can be walked like the others. -/
theorem walk_last {dir : Place} {part : String} {slash : Bool}
    (h : d.look ⟨dir, .ofSegment? (some part), slash⟩ = .ok (place, some (.directory m))) :
    d.walk dir [part] = .ok place := by
  by_cases hsame : part = "."
  · subst hsame
    exact congrArg (Except.map Prod.fst) h
  · by_cases hup : part = ".."
    · subst hup
      exact congrArg (Except.map Prod.fst) h
    · rw [ofSegment?_name hsame hup] at h
      rw [walk_name hsame hup, show d.child dir part = _ from h]
      rfl

/-- **The path of a directory can be walked to its end.** -/
theorem walk_of_find (h : d.find path = .ok (place, .directory m)) :
    d.walk (d.origin path) ((Path.segments path).filter (· != "")) = .ok place ∧
      d.node? place = some (.directory m) := by
  obtain ⟨⟨dir, last, slash⟩, ht, hl⟩ := look_of_find h
  obtain ⟨hne, hw, hlast⟩ := walk_of_locate ht
  dsimp only at hw hlast
  subst hlast
  -- The lookup walks all parts but the last, which is looked at in its own way.
  cases hparts : ((Path.segments path).filter (· != "")).getLast? with
  | none =>
      have hnone := List.getLast?_eq_none_iff.1 hparts
      have habs := Path.isAbsolute_of_no_parts hne hnone
      have hnode := node?_of_look hl
      rw [hnone] at hl ⊢
      cases hl
      refine ⟨?_, hnode⟩
      rw [origin, if_pos habs]
      rfl
  | some part =>
      obtain ⟨front, hfront⟩ := List.getLast?_eq_some_iff.1 hparts
      rw [hparts] at hl
      rw [hfront, List.dropLast_concat] at hw
      rw [hfront, walk_append hw]
      exact ⟨walk_last hl, node?_of_look hl⟩

/-- **What is looked up stands where the path says**, whatever it is. -/
theorem place_of_look {t : Target} {node : Option Node} (ht : d.locate path = .ok t)
    (hl : d.look t = .ok (place, node)) : place = d.placeOf path := by
  obtain ⟨hne, hw, hlast⟩ := walk_of_locate ht
  obtain ⟨dir, last, slash⟩ := t
  dsimp only at hw hlast
  subst hlast
  have hdir := walk_eq hw
  unfold placeOf
  cases hparts : ((Path.segments path).filter (· != "")).getLast? with
  | none =>
      have hnone := List.getLast?_eq_none_iff.1 hparts
      rw [hparts] at hl
      cases hl
      rw [hnone, if_pos (Path.isAbsolute_of_no_parts hne hnone)]
      rfl
  | some part =>
      obtain ⟨front, hfront⟩ := List.getLast?_eq_some_iff.1 hparts
      rw [hparts] at hl
      rw [hfront, List.dropLast_concat] at hdir
      rw [hfront, List.foldl_append, List.foldl_cons, List.foldl_nil, ← origin, ← hdir]
      by_cases hsame : part = "."
      · subst hsame
        cases hl
        rfl
      · by_cases hup : part = ".."
        · subst hup
          cases hl
          rfl
        · rw [ofSegment?_name hsame hup] at hl
          rw [stepTo, if_neg hsame, if_neg hup]
          simp only [look, child] at hl
          split at hl
          · cases hl
          · cases hl
            rfl

theorem place_of_find {node : Node} (h : d.find path = .ok (place, node)) :
    place = d.placeOf path := by
  obtain ⟨t, ht, hl⟩ := look_of_find h
  exact place_of_look ht hl

end Disk

end DeviceGateway
