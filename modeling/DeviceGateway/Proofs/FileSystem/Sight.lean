import DeviceGateway.Install.Installer
import DeviceGateway.Proofs.FileSystem.Places

/-!
# What is seen of a path

What a path comes to on a disk is the place that it names as the path of a file, what stands there,
and what the file holds if it is one (`Disk.sight`). Nothing else is asked by those who work on
the file, and so nothing else has to stay as it is between their steps.
-/

namespace DeviceGateway

/-- **What is seen of a path.** -/
structure Sight where
  place : Option Place
  node : Option Node
  body : Option FileBody
  deriving DecidableEq, Repr

namespace Sight

/-- A file can be made: the path names a place, and no directory is there. -/
structure Creatable (s : Sight) : Prop where
  named : s.place.isSome = true
  free : ∀ m, s.node ≠ some (.directory m)

/-- The path names a place, and nothing is there. -/
structure Vacant (s : Sight) : Prop where
  named : s.place.isSome = true
  nothing : s.node = none

/-- **There is a file** with a number, and it holds some data. -/
structure Holds (s : Sight) (n : Nat) (data : Bytes) : Prop where
  named : s.place.isSome = true
  node : s.node = some (.file n)
  body : s.body.map (·.data) = some data

theorem Creatable.vacant {s : Sight} (h : s.Creatable) (hx : s.node.isSome = false) : s.Vacant :=
  ⟨h.named, Option.isNone_iff_eq_none.1 (Option.isSome_eq_false_iff.1 hx)⟩

end Sight

namespace Disk

/-- What the file holds that stands somewhere, if it is a file. -/
def bodyOf? (d : Disk) : Option Node → Option FileBody
  | some (.file n) => d.bodies[n]?
  | _ => none

def sight (d : Disk) (path : String) : Sight :=
  let node := (d.filePlace? path).bind d.node?
  ⟨d.filePlace? path, node, d.bodyOf? node⟩

variable {d d' : Disk} {path : String} {n : Nat} {data : Bytes} {place : Place}

theorem sight_of_filePlace? (hp : d.filePlace? path = some place) :
    d.sight path = ⟨some place, d.node? place, d.bodyOf? (d.node? place)⟩ := by
  simp only [sight, hp, Option.bind_some]

theorem filePlace?_of_named (h : (d.sight path).place.isSome = true) :
    ∃ place, d.filePlace? path = some place := Option.isSome_iff_exists.1 h

/-- A path that names a place has a name, which is not too long. -/
theorem path_of_named (h : (d.sight path).place.isSome = true) :
    path ≠ "" ∧ path.utf8ByteSize < maxPath := by
  obtain ⟨place, hp⟩ := filePlace?_of_named h
  obtain ⟨dir, name, hl, -, -⟩ := filePlace?_eq_some_iff.1 hp
  have hl := locate_eq_ok.1 hl
  exact ⟨hl.nonempty, hl.short⟩

/-! ## Making a file -/

theorem pathExists_of_named (h : (d.sight path).place.isSome = true) :
    d.pathExists path = (d.sight path).node.isSome := by
  obtain ⟨place, hp⟩ := filePlace?_of_named h
  rw [pathExists_of_filePlace? hp, sight_of_filePlace? hp]

/-- **The file that is in the way is removed.** -/
theorem removeFile_of_creatable (h : (d.sight path).Creatable)
    (hx : (d.sight path).node.isSome = true) :
    ∃ d', d.removeFile path = .ok d' ∧ (d'.sight path).Vacant := by
  obtain ⟨place, hp⟩ := filePlace?_of_named h.named
  have hfree := h.free
  rw [sight_of_filePlace? hp] at hfree hx
  have hsame := sameDirectories_erase hfree
  refine ⟨d.erase place, ?_, ?_⟩
  · rw [removeFile_of_filePlace? hp]
    cases hn : d.node? place with
    | none =>
        rw [hn] at hx
        cases hx
    | some node =>
        cases node with
        | directory m => exact absurd hn (hfree m)
        | file n => rfl
  · rw [sight_of_filePlace? ((filePlace?_of_same hsame path).trans hp)]
    exact ⟨rfl, by rw [node?_erase, if_pos ⟨rfl, ne_root_of_filePlace? hp⟩]⟩

/-- **An empty file is made** where nothing is. -/
theorem openForWriting_of_vacant (h : (d.sight path).Vacant) :
    ∃ n d', d.openForWriting .new path = .ok (n, d') ∧ (d'.sight path).Holds n [] := by
  obtain ⟨place, hp⟩ := filePlace?_of_named h.named
  have hn := h.nothing
  rw [sight_of_filePlace? hp] at hn
  have hfree : ∀ m, d.node? place ≠ some (.directory m) := by
    intro m
    rw [show d.node? place = none from hn]
    exact nofun
  refine ⟨(d.makeFile place).1, (d.makeFile place).2, openForWriting_of_nothing hp hn .new, ?_⟩
  rw [sight_of_filePlace? ((filePlace?_of_same (sameDirectories_makeFile hfree) path).trans hp),
    node?_makeFile, if_pos ⟨rfl, ne_root_of_filePlace? hp⟩]
  refine ⟨rfl, rfl, ?_⟩
  simp only [bodyOf?, makeFile, List.getElem?_concat_length, Option.map_some]

/-! ## Working on a file -/

theorem body_of_holds (h : (d.sight path).Holds n data) :
    ∃ b, d.bodies[n]? = some b ∧ b.data = data := by
  have hb := h.body
  rw [sight, show (d.filePlace? path).bind d.node? = some (.file n) from h.node] at hb
  exact Option.map_eq_some_iff.1 hb

theorem data_of_holds (h : (d.sight path).Holds n data) : (d.body n).data = data := by
  obtain ⟨b, hb, hd⟩ := body_of_holds h
  rw [body, List.getD_eq_getElem?_getD, hb]
  exact hd

theorem find_of_holds (h : (d.sight path).Holds n data) :
    ∃ place, d.find path = .ok (place, .file n) := by
  obtain ⟨place, hp⟩ := filePlace?_of_named h.named
  have hn := h.node
  rw [sight_of_filePlace? hp] at hn
  refine ⟨place, ?_⟩
  rw [find_of_filePlace? hp, show d.node? place = some (.file n) from hn]

/-- **Writing behind the end of a file.** -/
theorem holds_writeAt (h : (d.sight path).Holds n data) (more : Bytes) :
    ((d.writeAt n data.length more).sight path).Holds n (data ++ more) := by
  obtain ⟨place, hp⟩ := filePlace?_of_named h.named
  obtain ⟨b, hb, rfl⟩ := body_of_holds h
  have hn := h.node
  rw [sight_of_filePlace? hp] at hn
  have hp' : (d.writeAt n b.data.length more).filePlace? path = some place :=
    (filePlace?_of_same (sameDirectories_modifyBody d n _) path).trans hp
  rw [sight_of_filePlace? hp']
  refine ⟨rfl, hn, ?_⟩
  rw [writeAt, node?_modifyBody, show d.node? place = some (.file n) from hn]
  simp only [bodyOf?, modifyBody, List.getElem?_modify_eq, hb, Option.map_eq_map, Option.map_some,
    splice_at_end]

end Disk

/-- What is seen of a path in a workspace. -/
def Workspace.sight {ι : Type} (path : String) (w : Workspace ι) : Sight := w.disk.sight path

end DeviceGateway
