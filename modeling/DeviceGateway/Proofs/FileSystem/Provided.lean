import DeviceGateway.Proofs.FileSystem.Sparing

/-!
# Directories that are provided

Making a directory and all above it provides the path: a directory is there (`provided_of_made`). It
stays for as long as directories stay, and making it again does nothing
(`Provided.makeDirectories`).
-/

namespace DeviceGateway.Disk

variable {d d' : Disk} {path : String} {place : Place} {t : Target}

/-! ## Directories under a path -/

theorem isDirectory_eq_true_iff : d.isDirectory path = true ↔
    ∃ t place m, d.locate path = .ok t ∧ d.look t = .ok (place, some (.directory m)) := by
  unfold isDirectory
  split
  · next place m hf =>
    obtain ⟨t, ht, hl⟩ := find_directory_iff.1 hf
    exact ⟨fun _ => ⟨t, place, m, ht, hl⟩, fun _ => rfl⟩
  · next hno =>
    constructor
    · intro h
      cases h
    · rintro ⟨t, place, m, ht, hl⟩
      exact absurd (find_directory_iff.2 ⟨t, ht, hl⟩) (hno place m)

/-- A directory that is found is found for as long as directories stay. -/
theorem KeepsDirectories.isDirectory (h : KeepsDirectories d d')
    (hd : d.isDirectory path = true) : d'.isDirectory path = true := by
  obtain ⟨t, place, m, hl, hk⟩ := isDirectory_eq_true_iff.1 hd
  refine isDirectory_eq_true_iff.2 ⟨t, place, m, h.locate hl, ?_⟩
  rw [look_elsewhere hk d', h.directory place m (node?_of_look hk)]

/-! ## Making one directory -/

/-- **A directory that is there** is not made again. -/
theorem makeDirectory_of_isDirectory (h : d.isDirectory path = true) :
    d.makeDirectory path = .error .occupied := by
  obtain ⟨t, place, m, hl, hk⟩ := isDirectory_eq_true_iff.1 h
  simp only [makeDirectory, hl]
  split
  · rw [hk]
  · rfl

/-- **A directory that was made** is there. -/
theorem isDirectory_of_makeDirectory (h : d.makeDirectory path = .ok d') :
    d'.isDirectory path = true := by
  have hkeeps := (widens_makeDirectory h).1.keeps
  unfold makeDirectory at h
  split at h
  · cases h
  · next t hl =>
    split at h
    · next name hlast =>
      split at h
      · cases h
      · cases h
      · next place hk =>
        cases h
        refine isDirectory_eq_true_iff.2 ⟨t, place, d.clock, hkeeps.locate hl, ?_⟩
        rw [look_elsewhere hk, node?_put, if_pos]
        refine ⟨rfl, ?_⟩
        rintro rfl
        cases (node?_of_look hk).symm.trans (node?_root d)
    · cases h

/-! ## Making directories in order -/

theorem isDirectory_of_makeInOrder {paths : List String} (h : d.makeInOrder paths = (none, d')) :
    ∀ path ∈ paths, d'.isDirectory path = true := by
  induction paths generalizing d with
  | nil => nofun
  | cons first rest ih =>
      -- The first one is there before the others are made.
      have hfirst : ∀ {d₁ : Disk}, d₁.isDirectory first = true → d₁.makeInOrder rest = (none, d') →
          ∀ path ∈ first :: rest, d'.isDirectory path = true := by
        intro d₁ hd hrest path hpath
        rcases List.mem_cons.1 hpath with rfl | hpath
        · have hkeeps := (widens_makeInOrder d₁ rest).1.keeps
          rw [hrest] at hkeeps
          exact hkeeps.isDirectory hd
        · exact ih hrest path hpath
      unfold makeInOrder at h
      split at h
      · next d₁ hmade => exact hfirst (isDirectory_of_makeDirectory hmade) h
      · split at h
        · next hthere => exact hfirst hthere.2 h
        · cases h

theorem mem_of_missingDirectories {found above rest : List String}
    (h : d.missingDirectories found above = .ok (rest, d')) : found ⊆ rest := by
  induction above generalizing found with
  | nil =>
      cases h
      exact List.Subset.refl _
  | cons path above ih =>
      unfold missingDirectories at h
      split at h
      · cases h
        exact List.Subset.refl _
      · exact fun p hp => ih h (List.mem_cons_of_mem _ hp)
      · split at h
        · cases h
          exact List.Subset.refl _
        · cases h
      · cases h

/-! ## Making a directory and all above it -/

/-- **Nothing has to be made for a path**: its directory is there. -/
def Provided (d : Disk) (path : String) : Prop := path = "" ∨ d.isDirectory path = true

theorem Provided.kept (h : d.Provided path) (hkeeps : KeepsDirectories d d') : d'.Provided path :=
  h.imp id hkeeps.isDirectory

/-- **A path is provided** when its directories have been made. -/
theorem provided_of_made (h : (d.makeDirectories path).1 = none) :
    (d.makeDirectories path).2.Provided path := by
  unfold makeDirectories at h ⊢
  split at h
  · next hempty => exact .inl hempty
  · next hpath =>
    rw [if_neg hpath]
    split at h
    · cases h
    · next rest d₁ hmissing =>
      have hkeeps := (widens_makeInOrder d₁ rest).1.keeps
      have hall := isDirectory_of_makeInOrder (d := d₁) (Prod.ext h rfl)
      unfold missingDirectories at hmissing
      split at hmissing
      · next hmade =>
        cases hmissing
        exact .inr (hkeeps.isDirectory (isDirectory_of_makeDirectory hmade))
      · exact .inr (hall path (mem_of_missingDirectories hmissing (List.mem_singleton.2 rfl)))
      · split at hmissing
        · next hthere =>
          cases hmissing
          exact .inr (hkeeps.isDirectory hthere)
        · cases hmissing
      · cases hmissing

/-- **Nothing is made for a path that is provided.** -/
theorem Provided.makeDirectories (h : d.Provided path) : d.makeDirectories path = (none, d) := by
  unfold Disk.makeDirectories
  split
  · rfl
  · next hpath =>
    have hd := h.resolve_left hpath
    simp only [missingDirectories, makeDirectory_of_isDirectory hd, hd, if_true]
    rfl

end DeviceGateway.Disk
