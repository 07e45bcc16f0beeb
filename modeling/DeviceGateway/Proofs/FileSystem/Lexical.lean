import DeviceGateway.Proofs.FileSystem.Places

/-!
# Where a path leads by its text

Since there are no links, a path that leads anywhere leads where its parts say (`walk_eq`). So the
place of a directory can be read off its path before the directory is there (`placeOf`), and what is
put into a directory under a name stands at that place behind the name (`locate_join`), whatever
happens to the disk meanwhile.
-/

namespace DeviceGateway

/-! ## Names -/

namespace Path

/-- **A name that can stand in a directory.** -/
structure Proper (name : String) : Prop where
  isName : isName name = true
  not_up : name ≠ ".."
  no_slash : '/' ∉ name.toList

theorem Proper.ne_empty {name : String} (h : Proper name) : name ≠ "" := by
  rintro rfl
  cases h.isName

theorem Proper.ne_dot {name : String} (h : Proper name) : name ≠ "." := by
  rintro rfl
  cases h.isName

theorem toList_ne_nil {text : String} (h : text ≠ "") : text.toList ≠ [] := fun hnil =>
  h (String.toList_inj.1 hnil)

/-- There are no slashes in the parts of a path. -/
theorem no_slash_of_mem_segments {path segment : String} (h : segment ∈ segments path) :
    '/' ∉ segment.toList := by
  obtain ⟨part, hpart, rfl⟩ := List.mem_map.1 h
  rw [String.toList_ofList]
  generalize hn : path.toList.length = n
  generalize path.toList = text at hpart hn
  induction n using Nat.strongRecOn generalizing text with
  | ind n ih =>
  by_cases hslash : '/' ∈ text
  · obtain ⟨front, rest, rfl, hfront⟩ := List.eq_append_cons_of_mem hslash
    rw [List.splitOn_append_cons_self_of_not_mem hfront] at hpart
    rcases List.mem_cons.1 hpart with rfl | hpart
    · exact hfront
    · refine ih rest.length ?_ rest hpart rfl
      simp only [List.length_append, List.length_cons] at hn
      omega
  · rw [List.splitOn_eq_singleton hslash, List.mem_singleton] at hpart
    rw [hpart]
    exact hslash

/-- **A slash parts a path.** -/
theorem segments_slash (front rest : String) :
    segments (front ++ "/" ++ rest) = segments front ++ segments rest := by
  have htext : (front ++ "/" ++ rest).toList = front.toList ++ '/' :: rest.toList := by
    rw [String.toList_append, String.toList_append, List.append_assoc]
    rfl
  rw [segments, htext, List.splitOn_append_cons_self, List.map_append]
  rfl

theorem segments_endsInSlash (front : String) : segments (front ++ "/") = segments front ++ [""] := by
  rw [← String.append_empty (s := front ++ "/"), segments_slash]
  rfl

theorem exists_front_of_endsInSlash {path : String} (h : endsInSlash path = true) :
    ∃ front, path = front ++ "/" := by
  obtain ⟨front, hfront⟩ := List.getLast?_eq_some_iff.1 (eq_of_beq h)
  refine ⟨String.ofList front, String.toList_inj.1 ?_⟩
  rw [hfront, String.toList_append, String.toList_ofList]
  rfl

/-- The last name of a path can stand in a directory. -/
theorem proper_of_fileName? {path name : String} (h : fileName? path = some name) :
    Proper name := by
  unfold fileName? at h
  split at h
  · cases h
  · next hup =>
    have hmem := List.mem_filter.1 (List.mem_of_getLast? h)
    refine ⟨hmem.2, ?_, no_slash_of_mem_segments hmem.1⟩
    rintro rfl
    exact hup h

section

variable {part : String} (h : '/' ∉ part.toList)
include h

theorem isAbsolute_of_no_slash : isAbsolute part = false := by
  unfold isAbsolute
  rw [beq_eq_false_iff_ne]
  intro hhead
  exact h (List.mem_of_mem_head? hhead)

/-- Without a slash there is one part. -/
theorem segments_of_no_slash : segments part = [part] := by
  rw [segments, List.splitOn_eq_singleton h, List.map_singleton, String.ofList_toList]

end

/-! ## Joining -/

section

variable {dir name : String} (hname : Proper name)
include hname

theorem isAbsolute_proper : isAbsolute name = false := isAbsolute_of_no_slash hname.no_slash

theorem segments_proper : segments name = [name] := segments_of_no_slash hname.no_slash

theorem endsInSlash_join : endsInSlash (join dir name) = false := by
  have hne := toList_ne_nil hname.ne_empty
  have hlast : (join dir name).toList.getLast? = name.toList.getLast? := by
    unfold join
    rw [isAbsolute_proper hname, if_neg Bool.false_ne_true]
    have hsome := List.getLast?_eq_some_getLast hne
    split
    · rw [String.toList_append, List.getLast?_append, hsome, Option.some_or]
    · rw [String.toList_append, List.getLast?_append, hsome, Option.some_or]
  rw [endsInSlash, hlast, beq_eq_false_iff_ne]
  exact fun h => hname.no_slash (List.mem_of_getLast? h)

theorem isAbsolute_join : isAbsolute (join dir name) = isAbsolute dir := by
  unfold join
  rw [isAbsolute_proper hname, if_neg Bool.false_ne_true]
  by_cases hdir : dir = ""
  · subst hdir
    rw [if_pos (.inl rfl), String.empty_append]
    exact isAbsolute_proper hname
  · have hne := toList_ne_nil hdir
    obtain ⟨c, rest, hcons⟩ := List.exists_cons_of_ne_nil hne
    unfold isAbsolute
    split
    · rw [String.toList_append, hcons, List.cons_append, List.head?_cons, List.head?_cons]
    · rw [String.toList_append, String.toList_append, hcons, List.cons_append, List.cons_append,
        List.head?_cons, List.head?_cons]

/-- The parts of a path in a directory. -/
theorem segments_join :
    (segments (join dir name)).filter (· != "") = (segments dir).filter (· != "") ++ [name] := by
  have hlast : [name].filter (· != "") = [name] := by
    simp [hname.ne_empty]
  have hsplit : ∀ front : String, (segments (front ++ "/" ++ name)).filter (· != "") =
      (segments front).filter (· != "") ++ [name] := by
    intro front
    rw [segments_slash, List.filter_append, segments_proper hname, hlast]
  unfold join
  rw [isAbsolute_proper hname, if_neg Bool.false_ne_true]
  split
  · next hdir =>
    rcases hdir with rfl | hslash
    · rw [String.empty_append, segments_proper hname, hlast]
      rfl
    · -- The slash is there already, and behind it there is nothing else.
      obtain ⟨front, rfl⟩ := exists_front_of_endsInSlash hslash
      rw [hsplit, segments_endsInSlash, List.filter_append]
      exact congrArg (· ++ [name]) (List.append_nil _).symm
  · exact hsplit dir

end

/-- What is joined to a directory can be told from the path. -/
theorem join_inj {dir name name' : String} (h : '/' ∉ name.toList) (h' : '/' ∉ name'.toList)
    (heq : join dir name = join dir name') : name = name' := by
  unfold join at heq
  rw [isAbsolute_of_no_slash h, isAbsolute_of_no_slash h', if_neg Bool.false_ne_true,
    if_neg Bool.false_ne_true] at heq
  split at heq
  · exact (String.append_right_inj dir).1 heq
  · exact (String.append_right_inj _).1 heq

end Path

/-! ## Places -/

namespace Disk

variable {d d' : Disk} {path dir name : String} {place : Place}

/-- One part of a path, without a look at the disk. -/
def stepTo (place : Place) (part : String) : Place :=
  if part = "." then place else if part = ".." then place.dropLast else place ++ [part]

/-- **The place that a path says**, whether there is anything or not. -/
def placeOf (d : Disk) (path : String) : Place :=
  ((Path.segments path).filter (· != "")).foldl stepTo (if Path.isAbsolute path then [] else d.here)

/-- **Walking leads where the parts say.** -/
theorem walk_eq {parts : List String} {start : Place} (h : d.walk start parts = .ok place) :
    place = parts.foldl stepTo start := by
  induction parts generalizing start with
  | nil =>
      cases h
      rfl
  | cons part rest ih =>
      rw [List.foldl_cons]
      by_cases hsame : part = "."
      · subst hsame
        exact ih h
      · by_cases hup : part = ".."
        · subst hup
          exact ih h
        · obtain ⟨-, -, hrest⟩ := (walk_name_eq_ok hsame hup).1 h
          rw [stepTo, if_neg hsame, if_neg hup]
          exact ih hrest

theorem placeOf_of_here (h : d'.here = d.here) (path : String) : d'.placeOf path = d.placeOf path := by
  unfold placeOf
  rw [h]

/-- **Something in a directory** is looked up at the place of the directory. -/
theorem locate_join (hname : Path.Proper name) {t : Target}
    (h : d.locate (Path.join dir name) = .ok t) : t = ⟨d.placeOf dir, .name name, false⟩ := by
  obtain ⟨-, -, -, hw, -, hlast, hslash⟩ := locate_eq_ok.1 h
  obtain ⟨start, last, slash⟩ := t
  rw [Path.segments_join hname, Path.isAbsolute_join hname, List.dropLast_concat] at hw
  rw [Path.segments_join hname, List.getLast?_concat] at hlast
  rw [Path.endsInSlash_join hname] at hslash
  have hdir : start = d.placeOf dir := walk_eq hw
  dsimp only at hlast hslash
  rw [hdir, hlast, ofSegment?_name hname.ne_dot hname.not_up, hslash]

/-- A file in a directory stands at the place of the directory, behind it its name. -/
theorem filePlace?_join (hname : Path.Proper name)
    (h : d.filePlace? (Path.join dir name) = some place) : place = d.placeOf dir ++ [name] := by
  obtain ⟨start, last, ht, -, rfl⟩ := filePlace?_eq_some_iff.1 h
  cases locate_join hname ht
  rfl

end Disk

end DeviceGateway
