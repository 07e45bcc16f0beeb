import DeviceGateway.FileSystem.Copy
import DeviceGateway.Proofs.FileSystem.Provided

/-!
# How long paths are

A path that leads anywhere has fewer octets than the system allows. So whatever succeeds under a path
succeeds under a short one, and what is then said of it is short as well.
-/

namespace DeviceGateway.Disk

variable {d d' : Disk} {path source target : String} {mode : OpenMode} {n : Nat}

theorem short_of_locate {t : Target} (h : d.locate path = .ok t) : path.utf8ByteSize < maxPath :=
  (locate_eq_ok.1 h).short

theorem short_of_find {place : Place} {node : Node} (h : d.find path = .ok (place, node)) :
    path.utf8ByteSize < maxPath := by
  obtain ⟨t, ht, -⟩ := look_of_find h
  exact short_of_locate ht

theorem short_of_pathExists (h : d.pathExists path = true) : path.utf8ByteSize < maxPath := by
  unfold pathExists at h
  cases hf : d.find path with
  | ok found => exact short_of_find hf
  | error e =>
      rw [hf] at h
      cases h

theorem short_of_openForWriting (h : d.openForWriting mode path = .ok (n, d')) :
    path.utf8ByteSize < maxPath := by
  obtain ⟨t, ht, -⟩ := opening_of_openForWriting h
  exact short_of_locate ht

theorem short_of_removeFile (h : d.removeFile path = .ok d') : path.utf8ByteSize < maxPath := by
  unfold removeFile at h
  split at h
  · cases h
  · next t ht => exact short_of_locate ht

theorem short_of_rename (h : d.rename source target = .ok d') :
    source.utf8ByteSize < maxPath ∧ target.utf8ByteSize < maxPath := by
  obtain ⟨s, t, old, new, node, hs, ht, -⟩ := renaming_of_rename h
  exact ⟨short_of_locate hs, short_of_locate ht⟩

theorem short_of_copyFile (h : d.copyFile source target = .ok d') :
    target.utf8ByteSize < maxPath := by
  unfold copyFile storeData at h
  split at h
  · cases h
  · split at h
    · cases h
    · next hopen => exact short_of_openForWriting hopen

theorem short_of_makeDirectories (h : d.makeDirectories path = (none, d')) :
    path.utf8ByteSize < maxPath := by
  have hmade : (d.makeDirectories path).1 = none := by rw [h]
  rcases provided_of_made hmade with rfl | hthere
  · decide
  · obtain ⟨t, place, m, ht, -⟩ := isDirectory_eq_true_iff.1 hthere
    exact short_of_locate ht

theorem short_of_copyTree (h : d.copyTree source target = (none, d')) :
    target.utf8ByteSize < maxPath := by
  unfold copyTree at h
  split at h
  · cases h
  · next hmade => exact short_of_makeDirectories hmade

theorem short_of_removeTree (h : d.removeTree path = (none, d')) : path.utf8ByteSize < maxPath := by
  unfold removeTree at h
  split at h
  · cases h
  · cases h
  · next hf => exact short_of_find hf

end DeviceGateway.Disk
