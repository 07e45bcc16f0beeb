import DeviceGateway.Proofs.FileSystem.Confinement

/-!
# The directories above a path

The paths above a path are spelled with the first of its names (`names_of_above`). If the path nowhere
leads up again, the place that it says is where it starts and behind it the names, so the places of
the paths above are above that place (`Disk.placeOf_above`).
-/

namespace DeviceGateway

namespace Path

variable {path p : String}

theorem mem_components (h : p ∈ components path) : p ∈ segments path ∧ p ≠ "" := by
  obtain ⟨first, rest, hpath⟩ := List.exists_cons_of_ne_nil (segments_ne_nil path)
  rw [components_of_segments hpath, List.mem_append] at h
  rw [hpath]
  have named : ∀ {l : List String}, p ∈ l.filter isName → p ∈ l ∧ p ≠ "" := by
    intro l hp
    obtain ⟨hmem, hname⟩ := List.mem_filter.1 hp
    refine ⟨hmem, ?_⟩
    rintro rfl
    cases hname
  rcases h with h | h
  · split at h
    · next hdot =>
      rw [List.mem_singleton.1 h, hdot]
      exact ⟨List.mem_cons_self, by decide⟩
    · obtain ⟨hmem, hne⟩ := named h
      rw [List.mem_singleton.1 hmem] at hne ⊢
      exact ⟨List.mem_cons_self, hne⟩
  · obtain ⟨hmem, hne⟩ := named h
    exact ⟨List.mem_cons_of_mem _ hmem, hne⟩

theorem names_eq_components (path : String) : names path = (components path).filter isName := by
  obtain ⟨first, rest, hpath⟩ := List.exists_cons_of_ne_nil (segments_ne_nil path)
  rw [components_of_segments hpath, names, hpath]
  simp only [List.filter_append, List.filter_filter, Bool.and_self]
  split
  · next hdot =>
    rw [hdot]
    rfl
  · simp only [List.filter_filter, Bool.and_self]
    rw [← List.filter_append]
    rfl

/-- **A path above another one** starts where that one starts, and goes on with the first of its names. -/
theorem names_of_above (h : p ∈ above path) :
    names p <+: names path ∧ isAbsolute p = isAbsolute path := by
  obtain ⟨n, hn, rfl⟩ := List.mem_map.1 h
  obtain ⟨hlt, hroot⟩ := List.mem_filter.1 hn
  rw [List.mem_reverse, List.mem_range] at hlt
  have hparts : ∀ q ∈ (components path).take n, q ≠ "" ∧ '/' ∉ q.toList := by
    intro q hq
    obtain ⟨hmem, hne⟩ := mem_components (List.mem_of_mem_take hq)
    exact ⟨hne, no_slash_of_mem_segments hmem⟩
  have hnames := names_intercalate_parts fun q hq => (hparts q hq).2
  have hfirst : ((components path).take n).filter isName <+: names path := by
    rw [names_eq_components]
    exact (List.take_prefix n _).filter isName
  by_cases habs : isAbsolute path = true
  · rw [if_pos habs, habs]
    refine ⟨?_, ?_⟩
    · have hslash := names_slash "" ("/".intercalate ((components path).take n))
      rw [String.empty_append, hnames] at hslash
      rw [hslash]
      exact hfirst
    · rw [isAbsolute_append (by decide)]
      rfl
  · rw [if_neg habs, String.empty_append, hnames, eq_false_of_ne_true habs]
    exact ⟨hfirst, isAbsolute_intercalate_parts hparts⟩

end Path

namespace Disk

variable {path p : String}

/-- Empty parts and dots lead nowhere. -/
theorem foldl_stepTo_filter (parts : List String) (place : Place) :
    (parts.filter (· != "")).foldl stepTo place = (parts.filter Path.isName).foldl stepTo place := by
  induction parts generalizing place with
  | nil => rfl
  | cons part rest ih =>
      by_cases hempty : part = ""
      · subst hempty
        exact ih place
      · by_cases hdot : part = "."
        · subst hdot
          exact ih place
        · have hname : Path.isName part = true := by
            simp [Path.isName, hempty, hdot]
          have hkept : (part != "") = true := bne_iff_ne.2 hempty
          rw [List.filter_cons_of_pos (p := (· != "")) hkept, List.filter_cons_of_pos hname,
            List.foldl_cons, List.foldl_cons, ih]

theorem placeOf_eq_names (d : Disk) (path : String) :
    d.placeOf path = (Path.names path).foldl stepTo (d.origin path) :=
  foldl_stepTo_filter (Path.segments path) _

theorem foldl_stepTo_proper {names : List String} (h : ∀ n ∈ names, Path.Proper n) (place : Place) :
    names.foldl stepTo place = place ++ names := by
  induction names generalizing place with
  | nil => exact (List.append_nil _).symm
  | cons name rest ih =>
      have hname := h name List.mem_cons_self
      rw [List.foldl_cons, ih (fun n hn => h n (List.mem_cons_of_mem _ hn)), stepTo,
        if_neg hname.ne_dot, if_neg hname.not_up, List.append_assoc]
      rfl

/-- **A path that does not lead up** says the place of its names, behind where it starts. -/
theorem placeOf_of_not_up (d : Disk) (hup : ".." ∉ Path.segments path) :
    d.placeOf path = d.origin path ++ Path.names path := by
  rw [placeOf_eq_names, foldl_stepTo_proper (Path.proper_names hup)]

theorem placeOf_above (d : Disk) (hup : ".." ∉ Path.segments path) (h : p ∈ Path.above path) :
    d.placeOf p <+: d.placeOf path := by
  obtain ⟨hnames, habs⟩ := Path.names_of_above h
  have hup' : ".." ∉ Path.segments p := by
    rw [← Path.up_mem_names_iff] at hup ⊢
    exact fun hmem => hup (hnames.subset hmem)
  rw [placeOf_of_not_up d hup, placeOf_of_not_up d hup', origin, origin, habs]
  exact (List.prefix_append_right_inj _).2 hnames

end Disk

end DeviceGateway
