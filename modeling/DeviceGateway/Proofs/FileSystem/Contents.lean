import DeviceGateway.Proofs.FileSystem.Sparing

/-!
# What the file at a place comes to hold

A change of one file is told by its place and by what the file there holds afterwards, if there is
still one (`Sets`). Making a file, writing to it and taking it away are such changes, and so is
opening its path for writing, which keeps what the file holds or empties it (`Tidy.opens`).
-/

namespace DeviceGateway.Disk

variable {d d' d'' : Disk} {path : String} {place q : Place} {n : Nat} {content content' : Option Bytes}

theorem content?_of_file (h : d.node? q = some (.file n)) : d.content? q = some (d.body n).data := by
  rw [content?, h]

theorem content?_of_nothing (h : d.node? q = none) : d.content? q = none := by
  rw [content?, h]

namespace SameBut

theorem refl (place : Place) (d : Disk) : SameBut place d d :=
  ⟨.refl d, fun _ _ => rfl, fun _ _ _ _ => rfl⟩

/-- **The files at other places** hold what they held. -/
theorem content? (h : SameBut place d d') (hq : q ≠ place) : d'.content? q = d.content? q := by
  unfold Disk.content?
  rw [h.node q hq]
  split
  · next n hn => rw [h.body q n hq hn]
  · rfl

end SameBut

/-- **A change of the file at one place.** Nothing differs but that file, and this is what it
holds; without a content there is no file. -/
structure Sets (d : Disk) (place : Place) (content : Option Bytes) (d' : Disk) : Prop where
  tidy : d'.Tidy
  same : SameBut place d d'
  content : d'.content? place = content

theorem Sets.trans (h : d.Sets place content d') (h' : d'.Sets place content' d'') :
    d.Sets place content' d'' := ⟨h'.tidy, h.same.trans h'.same, h'.content⟩

namespace Tidy

variable (ht : d.Tidy)
include ht

theorem sets_refl (place : Place) : d.Sets place (d.content? place) d := ⟨ht, .refl place d, rfl⟩

theorem sets_makeFile (hp : d.filePlace? path = some place) (hn : d.node? place = none) :
    d.Sets place (some []) (d.makeFile place).2 := by
  have hempties := empties_makeFile ht hp hn
  refine ⟨hempties.tidy, sameBut_makeFile ht.made fun m hm => ?_, ?_⟩
  · cases hn.symm.trans hm
  · rw [content?_of_file hempties.there, hempties.empty]

section

variable (hn : d.node? place = some (.file n))
include hn

theorem sets_modifyBody (f : FileBody → FileBody) :
    d.Sets place (some (f (d.body n)).data) (d.modifyBody n f) := by
  have hmade := ht.made place n hn
  refine ⟨ht.modifyBody n f, ?_, ?_⟩
  · exact sameBut_modifyBody hmade (fun q hq h => hq (ht.unlinked q place n h hn)) f
  · rw [content?_of_file (d := d.modifyBody n f) hn, body_modifyBody d n f hmade, if_pos rfl]

theorem sets_erase (hroot : place ≠ []) : d.Sets place none (d.erase place) := by
  have hfile : ∀ m, d.node? place ≠ some (.directory m) := by
    intro m hm
    cases hn.symm.trans hm
  refine ⟨ht.of_files (ht.standing.erase hfile) (Nat.le_refl _) (nothingNew_erase d place),
    sameBut_erase hfile, content?_of_nothing ?_⟩
  rw [node?_erase, if_pos ⟨rfl, hroot⟩]

end

end Tidy

/-! ## Opening for writing -/

/-- **What is left of a file that is opened for writing**, made if there was none. -/
def OpenMode.leaves : OpenMode → Option Bytes → Bytes
  | empty, _ => []
  | _, held => held.getD []

theorem openForWriting_of_file (hp : d.filePlace? path = some place)
    (hn : d.node? place = some (.file n)) :
    d.openForWriting .keep path = .ok (n, d) ∧
      d.openForWriting .empty path = .ok (n, d.modifyBody n fun _ => ⟨[], d.clock⟩) := by
  obtain ⟨dir, name, hl, hfits, rfl⟩ := filePlace?_eq_some_iff.1 hp
  simp only [openForWriting, hl, look, child, if_neg (Nat.not_lt.2 hfits), hn, Bool.false_eq_true,
    if_false, and_self]

/-- **Opening the path of a file for writing**, whether there is one or not, comes to an open file at
its place. -/
theorem Tidy.opens (ht : d.Tidy) (hp : d.filePlace? path = some place)
    (hfree : ∀ m, d.node? place ≠ some (.directory m)) (mode : OpenMode) (hmode : mode ≠ .new) :
    ∃ n d', d.openForWriting mode path = .ok (n, d') ∧
      d.Sets place (some (mode.leaves (d.content? place))) d' ∧ d'.node? place = some (.file n) := by
  cases hn : d.node? place with
  | none =>
      have hleaves : mode.leaves (d.content? place) = [] := by
        rw [content?_of_nothing hn]
        cases mode <;> rfl
      refine ⟨_, _, openForWriting_of_nothing hp hn mode, ?_, (empties_makeFile ht hp hn).there⟩
      rw [hleaves]
      exact ht.sets_makeFile hp hn
  | some node =>
      cases node with
      | directory m => exact absurd hn (hfree m)
      | file n =>
          have ⟨hkeep, hempty⟩ := openForWriting_of_file hp hn
          cases mode with
          | new => exact absurd rfl hmode
          | keep =>
              have hsame := ht.sets_refl place
              rw [content?_of_file hn] at hsame ⊢
              exact ⟨n, d, hkeep, hsame, hn⟩
          | empty => exact ⟨n, _, hempty, ht.sets_modifyBody hn fun _ => ⟨[], d.clock⟩, hn⟩

end DeviceGateway.Disk
