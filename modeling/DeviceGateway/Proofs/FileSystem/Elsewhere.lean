import DeviceGateway.Proofs.FileSystem.Places

/-!
# Changes at one place

Making, writing and removing one file leaves all other places alone: the same things stand there,
and the files among them hold what they held (`SameBut`). A new file has a number that no file had
before, so what is written to it is written to no other file.
-/

namespace DeviceGateway.Disk

variable {d d' d'' : Disk} {place q : Place} {n : Nat}

/-- **Every file that stands anywhere has been made.** -/
def Made (d : Disk) : Prop := ∀ q n, d.node? q = some (.file n) → n < d.bodies.length

theorem made_ofClock (seconds : Int) : (ofClock seconds).Made := by
  intro q n h
  unfold node? ofClock at h
  split at h
  · cases h
  · rw [List.lookup_cons] at h
    split at h <;> cases h

theorem Made.makeFile (hm : d.Made) (place : Place) : (d.makeFile place).2.Made := by
  intro q n h
  rw [length_makeFile]
  rw [node?_makeFile] at h
  split at h
  · cases h
    exact Nat.lt_succ_self _
  · exact Nat.lt_succ_of_lt (hm q n h)

theorem Made.modifyBody (hm : d.Made) (n : Nat) (f : FileBody → FileBody) :
    (d.modifyBody n f).Made := by
  intro q k h
  rw [length_modifyBody]
  exact hm q k h

/-- **Nothing differs but what stands at one place**, and what is held by the file there. -/
structure SameBut (place : Place) (d d' : Disk) : Prop where
  directories : d.SameDirectories d'
  node : ∀ q, q ≠ place → d'.node? q = d.node? q
  body : ∀ q n, q ≠ place → d.node? q = some (.file n) → d'.body n = d.body n

namespace SameBut

theorem trans (h : SameBut place d d') (h' : SameBut place d' d'') : SameBut place d d'' where
  directories := h.directories.trans h'.directories
  node q hq := (h'.node q hq).trans (h.node q hq)
  body q n hq hn := (h'.body q n hq ((h.node q hq).trans hn)).trans (h.body q n hq hn)

/-- The path of a file elsewhere leads to the same file, with the same data. -/
theorem fileData (h : SameBut place d d') {path : String} (hp : d.filePlace? path = some q)
    (hq : q ≠ place) : d'.fileData path = d.fileData path := by
  have hp' : d'.filePlace? path = some q := (filePlace?_of_same h.directories path).trans hp
  simp only [Disk.fileData, find_of_filePlace? hp, find_of_filePlace? hp', h.node q hq]
  cases hn : d.node? q with
  | none => rfl
  | some node =>
      cases node with
      | directory m => rfl
      | file n => simp only [h.body q n hq hn]

end SameBut

theorem sameBut_makeFile (hm : d.Made) (hn : ∀ m, d.node? place ≠ some (.directory m)) :
    SameBut place d (d.makeFile place).2 where
  directories := sameDirectories_makeFile hn
  node q hq := by rw [node?_makeFile, if_neg fun h => hq h.1]
  body q n _ hq := body_makeFile_of_lt place (hm q n hq)

theorem sameBut_erase (hn : ∀ m, d.node? place ≠ some (.directory m)) :
    SameBut place d (d.erase place) where
  directories := sameDirectories_erase hn
  node q hq := by rw [node?_erase, if_neg fun h => hq h.1]
  body _ _ _ _ := rfl

/-- Writing to a file that stands nowhere else. -/
theorem sameBut_modifyBody (hn : n < d.bodies.length)
    (halone : ∀ q, q ≠ place → d.node? q ≠ some (.file n)) (f : FileBody → FileBody) :
    SameBut place d (d.modifyBody n f) where
  directories := sameDirectories_modifyBody d n f
  node _ _ := rfl
  body q k hq hk := by
    rw [body_modifyBody d k f hn, if_neg]
    rintro rfl
    exact halone q hq hk

end DeviceGateway.Disk
