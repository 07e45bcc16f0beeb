import Mathlib.Logic.Relation
import DeviceGateway.Proofs.FileSystem.Below

/-!
# Exact confinement

What a request names stands behind the root and nothing else does. The text of a resolved path is
the root with the names of the request after it (`below_eq`), and so are its components
(`components_below`). Blank segments say nothing (`names_of_noise`), and the part below the root,
asked for again, names the same things (`names_intercalate`, `exists_rest`). The main result is
`resolveUnder_confines`: a request is refused exactly when it goes up, and otherwise the path is
`Confined` to the root.
-/

namespace DeviceGateway.Path

variable {root requested path name : String} {parts : List String}

/-! ## Names -/

theorem names_slash (front rest : String) :
    names (front ++ "/" ++ rest) = names front ++ names rest := by
  simp only [names, segments_slash, List.filter_append]

/-- The way up is a name like any other to the parser. -/
theorem up_mem_names_iff : ".." ∈ names path ↔ ".." ∈ segments path := by
  constructor
  · intro h
    exact (List.mem_filter.1 h).1
  · intro h
    exact List.mem_filter.2 ⟨h, rfl⟩

theorem proper_names (hup : ".." ∉ segments requested) : ∀ n ∈ names requested, Proper n := by
  intro n hn
  refine proper_of_mem_names ?_ hn
  rw [Bool.eq_false_iff]
  intro h
  exact hup (List.contains_iff_mem.1 h)

/-- **Parts written out one behind the other** are read as the same parts. -/
theorem names_intercalate_parts (hparts : ∀ p ∈ parts, '/' ∉ p.toList) :
    names ("/".intercalate parts) = parts.filter isName := by
  induction parts with
  | nil => rfl
  | cons first rest ih =>
      have hfirst : names first = [first].filter isName := by
        rw [names, segments_of_no_slash (hparts first (by simp))]
      have hrest := ih fun p hp => hparts p (by simp [hp])
      cases rest with
      | nil => rw [String.intercalate_singleton, hfirst]
      | cons second more =>
          rw [String.intercalate_cons_cons, names_slash, hfirst, hrest, ← List.filter_append]
          rfl

theorem names_intercalate (hparts : ∀ n ∈ parts, Proper n) :
    names ("/".intercalate parts) = parts := by
  rw [names_intercalate_parts fun n hn => (hparts n hn).no_slash]
  exact List.filter_eq_self.2 fun n hn => (hparts n hn).isName

/-! ## Components -/

theorem segments_ne_nil (path : String) : segments path ≠ [] := by
  intro hnil
  exact List.splitOn_ne_nil '/' path.toList (List.map_eq_nil_iff.1 hnil)

/-- Of the dots only one at the very start is a component. -/
theorem components_of_segments {first : String} (h : segments path = first :: parts) :
    components path =
      (if first = "." then ["."] else [first].filter isName) ++ parts.filter isName := by
  rw [components, h]
  split
  · next heq =>
    cases heq
    rw [if_pos rfl]
    rfl
  · next hdot =>
    have hfirst : first ≠ "." := by
      rintro rfl
      exact hdot parts rfl
    rw [if_neg hfirst, ← List.filter_append]
    rfl

theorem components_of_append (h : segments path = segments root ++ parts) :
    components path = components root ++ parts.filter isName := by
  obtain ⟨first, rest, hroot⟩ := List.exists_cons_of_ne_nil (segments_ne_nil root)
  rw [hroot, List.cons_append] at h
  rw [components_of_segments h, components_of_segments hroot, List.filter_append, List.append_assoc]

theorem components_proper (hname : Proper name) : components name = [name] := by
  rw [components_of_segments (segments_proper hname), if_neg hname.ne_dot]
  simp [hname.isName]

theorem components_slash (front : String) (hname : Proper name) :
    components (front ++ "/" ++ name) = components front ++ [name] := by
  have hsegments : segments (front ++ "/" ++ name) = segments front ++ [name] := by
    rw [segments_slash, segments_proper hname]
  rw [components_of_append hsegments]
  simp [hname.isName]

theorem components_join (dir : String) (hname : Proper name) :
    components (join dir name) = components dir ++ [name] := by
  unfold join
  rw [isAbsolute_proper hname, if_neg Bool.false_ne_true]
  split
  · next hdir =>
    rcases hdir with rfl | hslash
    · rw [String.empty_append, components_proper hname]
      rfl
    · -- The empty segment behind the last slash is no component.
      obtain ⟨front, rfl⟩ := exists_front_of_endsInSlash hslash
      rw [components_slash front hname, components_of_append (segments_endsInSlash front)]
      simp [isName]
  · exact components_slash dir hname

/-! ## The path below the root -/

theorem isAbsolute_append {front : String} (hne : front ≠ "") (rest : String) :
    isAbsolute (front ++ rest) = isAbsolute front := by
  obtain ⟨c, more, hcons⟩ := List.exists_cons_of_ne_nil (toList_ne_nil hne)
  simp [isAbsolute, String.toList_append, hcons]

theorem isAbsolute_intercalate_parts (hparts : ∀ p ∈ parts, p ≠ "" ∧ '/' ∉ p.toList) :
    isAbsolute ("/".intercalate parts) = false := by
  cases parts with
  | nil => rfl
  | cons first rest =>
      obtain ⟨hne, hfirst⟩ := hparts first (by simp)
      cases rest with
      | nil =>
          rw [String.intercalate_singleton]
          exact isAbsolute_of_no_slash hfirst
      | cons second more =>
          rw [String.intercalate_cons_cons, String.append_assoc, isAbsolute_append hne]
          exact isAbsolute_of_no_slash hfirst

theorem isAbsolute_intercalate (hparts : ∀ n ∈ parts, Proper n) :
    isAbsolute ("/".intercalate parts) = false :=
  isAbsolute_intercalate_parts fun n hn => ⟨(hparts n hn).ne_empty, (hparts n hn).no_slash⟩

theorem join_relative (root : String) (h : isAbsolute path = false) :
    join root path = if root = "" ∨ endsInSlash root then root ++ path else root ++ "/" ++ path := by
  rw [join, h, if_neg Bool.false_ne_true]

theorem join_join (root : String) (hname : Proper name) (h : isAbsolute path = false) :
    join (join root name) path = join root (name ++ "/" ++ path) := by
  have hrelative : isAbsolute (name ++ "/" ++ path) = false := by
    rw [String.append_assoc, isAbsolute_append hname.ne_empty]
    exact isAbsolute_proper hname
  have hopen : ¬(join root name = "" ∨ endsInSlash (join root name) = true) := by
    rintro (hempty | hslash)
    · have hnone := components_join root hname
      rw [hempty] at hnone
      exact List.append_ne_nil_of_right_ne_nil _ (List.cons_ne_nil name []) hnone.symm
    · rw [endsInSlash_join hname] at hslash
      cases hslash
  rw [join_relative _ h, if_neg hopen, join_relative _ (isAbsolute_proper hname),
    join_relative _ hrelative]
  split
  · simp only [String.append_assoc]
  · simp only [String.append_assoc]

section

variable (root) (hparts : ∀ n ∈ parts, Proper n)
include hparts

/-- **The root leads by components**, and behind it stand the names. -/
theorem components_below : components (below root parts) = components root ++ parts := by
  induction parts using List.reverseRecOn with
  | nil => exact (List.append_nil _).symm
  | append_singleton front name ih =>
      rw [below_concat, components_join _ (hparts name (by simp)),
        ih fun n hn => hparts n (List.mem_append_left _ hn), List.append_assoc]

/-- **The text of a path below a root.** -/
theorem below_eq :
    below root parts = if parts = [] then root else join root ("/".intercalate parts) := by
  induction parts generalizing root with
  | nil => rfl
  | cons first rest ih =>
      have hrest : ∀ n ∈ rest, Proper n := fun n hn => hparts n (by simp [hn])
      rw [if_neg (List.cons_ne_nil _ _)]
      show below (join root first) rest = _
      rw [ih (join root first) hrest]
      cases rest with
      | nil => rw [if_pos rfl, String.intercalate_singleton]
      | cons second more =>
          rw [if_neg (List.cons_ne_nil _ _), String.intercalate_cons_cons,
            join_join root (hparts first (by simp)) (isAbsolute_intercalate hrest)]

/-- **What stands behind the root's text** names what is below the root. -/
theorem exists_rest : ∃ rest, below root parts = root ++ rest ∧ names rest = parts := by
  have hread := names_intercalate hparts
  rw [below_eq root hparts]
  split
  · next hnil =>
    refine ⟨"", (String.append_empty).symm, ?_⟩
    rw [hnil]
    rfl
  · rw [join_relative root (isAbsolute_intercalate hparts)]
    split
    · exact ⟨_, rfl, hread⟩
    · refine ⟨"/" ++ "/".intercalate parts, String.append_assoc, ?_⟩
      have hslash := names_slash "" ("/".intercalate parts)
      rw [String.empty_append, hread] at hslash
      exact hslash

end

/-! ## Noise -/

/-- **A blank segment more**, in front of a request, behind it or between two of its segments. -/
inductive Noise : String → String → Prop
  | before (blank : String) (h : blank = "" ∨ blank = ".") (path : String) :
      Noise path (blank ++ "/" ++ path)
  | after (blank : String) (h : blank = "" ∨ blank = ".") (path : String) :
      Noise path (path ++ "/" ++ blank)
  | between (blank : String) (h : blank = "" ∨ blank = ".") (front rest : String) :
      Noise (front ++ "/" ++ rest) (front ++ "/" ++ blank ++ "/" ++ rest)

theorem names_blank {blank : String} (h : blank = "" ∨ blank = ".") : names blank = [] := by
  rcases h with rfl | rfl
  · rfl
  · rfl

theorem names_of_noise {other : String} (h : Noise requested other) :
    names other = names requested := by
  cases h with
  | before blank h path => rw [names_slash, names_blank h, List.nil_append]
  | after blank h path => rw [names_slash, names_blank h, List.append_nil]
  | between blank h front rest =>
      rw [names_slash, names_slash, names_slash, names_blank h, List.append_nil]

theorem names_of_eqvGen {other : String} (h : Relation.EqvGen Noise requested other) :
    names other = names requested := by
  induction h with
  | rel _ _ h => exact names_of_noise h
  | refl _ => rfl
  | symm _ _ _ ih => exact ih.symm
  | trans _ _ _ _ _ ih ih' => exact ih'.trans ih

/-! ## Resolving -/

theorem resolveUnder_up (root : String) (hup : ".." ∈ segments requested) :
    resolveUnder root requested =
      .error (.protocol ("path " ++ Text.quote requested ++ " leaves the media root")) :=
  if_pos (List.contains_iff_mem.2 hup)

theorem resolveUnder_below (root : String) (hup : ".." ∉ segments requested) :
    resolveUnder root requested = .ok (below root (names requested)) :=
  if_neg fun h => hup (List.contains_iff_mem.1 h)

/-- **Only the names of a request count.** -/
theorem resolveUnder_of_names {other : String} (root : String)
    (h : names other = names requested) :
    (resolveUnder root other).toOption = (resolveUnder root requested).toOption := by
  have hiff : ".." ∈ segments other ↔ ".." ∈ segments requested := by
    rw [← up_mem_names_iff, ← up_mem_names_iff, h]
  by_cases hup : ".." ∈ segments requested
  · rw [resolveUnder_up root hup, resolveUnder_up root (hiff.2 hup)]
    rfl
  · rw [resolveUnder_below root hup, resolveUnder_below root fun h => hup (hiff.1 h), h]

/-- Names that were resolved once are resolved again in any spelling. -/
theorem resolveUnder_again {rest : String} (root : String) (hparts : ∀ n ∈ parts, Proper n)
    (h : names rest = parts) : resolveUnder root rest = .ok (below root parts) := by
  have hup : ".." ∉ segments rest := by
    intro hmem
    rw [← up_mem_names_iff, h] at hmem
    exact (hparts _ hmem).not_up rfl
  rw [resolveUnder_below root hup, h]

/-- **What a request leads to when it does not go up.** Behind the root stand the names of the
request in order, by text and by components, and none of them leads up. What stands below the root,
written out as names or cut out of the text, leads to the same path again. -/
structure Confined (root requested path : String) : Prop where
  text : path =
    if names requested = [] then root else join root ("/".intercalate (names requested))
  absolute : isAbsolute path = isAbsolute root
  parts : components path = components root ++ names requested
  proper : ∀ name ∈ names requested, Proper name
  names_again :
    resolveUnder root ("/".intercalate ((components path).drop (components root).length)) = .ok path
  text_again : ∃ rest, path = root ++ rest ∧ resolveUnder root rest = .ok path

theorem confined_below (root : String) (hup : ".." ∉ segments requested) :
    Confined root requested (below root (names requested)) := by
  have hproper := proper_names hup
  have hparts := components_below root hproper
  obtain ⟨rest, htext, hrest⟩ := exists_rest root hproper
  constructor
  · exact below_eq root hproper
  · exact isAbsolute_below root hproper
  · exact hparts
  · exact hproper
  · rw [hparts, List.drop_left]
    exact resolveUnder_again root hproper (names_intercalate hproper)
  · exact ⟨rest, htext, resolveUnder_again root hproper hrest⟩

/-- **Resolving is exact lexical confinement.** A request is refused, with its text in the message,
exactly when one of its segments is the way up; else it leads to a path confined to the root, and to
the same one whatever blank segments are put in or left out. -/
theorem resolveUnder_confines (root requested : String) :
    (∀ e, resolveUnder root requested = .error e ↔
      ".." ∈ segments requested ∧
        e = .protocol ("path " ++ Text.quote requested ++ " leaves the media root")) ∧
    (".." ∉ segments requested →
      ∃ path, resolveUnder root requested = .ok path ∧ Confined root requested path) ∧
    ∀ other, Relation.EqvGen Noise requested other →
      (resolveUnder root other).toOption = (resolveUnder root requested).toOption := by
  refine ⟨?_, ?_, ?_⟩
  · intro e
    constructor
    · intro h
      by_cases hup : ".." ∈ segments requested
      · rw [resolveUnder_up root hup] at h
        exact ⟨hup, (Except.error.inj h).symm⟩
      · rw [resolveUnder_below root hup] at h
        cases h
    · rintro ⟨hup, rfl⟩
      exact resolveUnder_up root hup
  · intro hup
    exact ⟨_, resolveUnder_below root hup, confined_below root hup⟩
  · intro other h
    exact resolveUnder_of_names root (names_of_eqvGen h)

end DeviceGateway.Path
