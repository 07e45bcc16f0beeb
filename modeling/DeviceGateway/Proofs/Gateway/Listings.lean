import DeviceGateway.Gateway.Files
import DeviceGateway.Proofs.FileSystem.Subtree
import DeviceGateway.Proofs.Text.ByteOrder

/-!
# Listings of directories

A listing shows what stands in a directory, in the order of the names. There are no two entries with
one name, so there is one such order (`eq_of_perm_of_ordered`), and neither the order in which the
system returns the entries nor leaving out the hidden ones matters to it (`listing_of_perm`,
`listing_hidden`). What a listing holds is told by what stands on the disk
(`listings_are_exact`).
-/

namespace DeviceGateway.Files

variable {l l' : List DirEntry} {i i' : List Disk.EntryInfo} {d : Disk} {dir path : String}
  {place : Place}

/-! ## The order of the names -/

/-- **Entries in the order of their names.** -/
def Ordered (l : List DirEntry) : Prop := l.Pairwise fun a b => a.name ≤ b.name

theorem ordered_mergeSort (l : List DirEntry) : Ordered (l.mergeSort fun a b => a.name ≤ b.name) := by
  have hsorted : (l.mergeSort fun a b => a.name ≤ b.name).Pairwise
      fun a b => decide (a.name ≤ b.name) = true := by
    refine List.pairwise_mergeSort ?_ ?_ l
    · intro a b c hab hbc
      exact decide_eq_true (String.le_trans (of_decide_eq_true hab) (of_decide_eq_true hbc))
    · intro a b
      simpa using String.le_total a.name b.name
  exact hsorted.imp fun h => of_decide_eq_true h

/-- **There is one order of entries** whose names differ. -/
theorem eq_of_perm_of_ordered (h : l.Perm l') (hn : (l.map (·.name)).Nodup) (hl : Ordered l)
    (hl' : Ordered l') : l = l' := by
  refine List.Perm.eq_of_pairwise ?_ hl hl' h
  intro a b ha hb hab hba
  exact List.inj_on_of_nodup_map hn ha (h.mem_iff.2 hb) (String.le_antisymm hab hba)

/-- Names that differ are in strict order, octet by octet. -/
theorem increasing_of_ordered (hl : Ordered l) (hn : (l.map (·.name)).Nodup) :
    l.Pairwise fun a b => Text.Utf8.encode a.name < Text.Utf8.encode b.name := by
  refine List.Pairwise.imp ?_ (hl.and (List.pairwise_map.1 hn))
  rintro a b ⟨hle, hne⟩
  refine Text.Utf8.encode_lt_iff.2 (String.not_le.1 fun hge => ?_)
  exact hne (String.le_antisymm hle hge)

/-! ## Listings -/

theorem map_name_entryOf (dir : String) (i : List Disk.EntryInfo) :
    (i.map (entryOf dir)).map (·.name) = i.map (·.name) := by
  rw [List.map_map]
  rfl

/-- A listing shows the entries in some order. -/
theorem listing_perm (dir : String) (i : List Disk.EntryInfo) :
    (listing dir true i).entries.Perm (i.map (entryOf dir)) := by
  have hall : i.filter (fun e => true || !isHidden e.name) = i :=
    List.filter_eq_self.2 fun _ _ => rfl
  show (List.mergeSort (List.map _ (List.filter _ i)) _).Perm _
  rw [hall]
  exact List.mergeSort_perm _ _

section

variable (hn : (i.map (·.name)).Nodup)
include hn

theorem nodup_names_shown (dir : String) (p : Disk.EntryInfo → Bool) :
    (((i.filter p).map (entryOf dir)).map (·.name)).Nodup := by
  rw [map_name_entryOf]
  exact (List.Sublist.map _ List.filter_sublist).nodup hn

theorem nodup_names_listing (dir : String) (includeHidden : Bool) :
    ((listing dir includeHidden i).entries.map (·.name)).Nodup :=
  ((List.mergeSort_perm _ _).map _).nodup_iff.2 (nodup_names_shown hn dir _)

/-- **A reply shows the entries of a directory in one order**, whatever order they come in. -/
theorem listing_of_perm (h : i.Perm i') (dir : String) (includeHidden : Bool) :
    listing dir includeHidden i = listing dir includeHidden i' := by
  have hshown := (h.filter fun e => includeHidden || !isHidden e.name).map (entryOf dir)
  refine congrArg DirListing.mk (eq_of_perm_of_ordered ?_ ?_ (ordered_mergeSort _)
    (ordered_mergeSort _))
  · exact (List.mergeSort_perm _ _).trans (hshown.trans (List.mergeSort_perm _ _).symm)
  · exact nodup_names_listing hn dir includeHidden

/-- **Leaving out the hidden entries** leaves the others as they are. -/
theorem listing_hidden (dir : String) :
    (listing dir false i).entries =
      (listing dir true i).entries.filter fun e => !isHidden e.name := by
  have hfilter : (i.filter fun e => false || !isHidden e.name).map (entryOf dir) =
      (i.map (entryOf dir)).filter fun e => !isHidden e.name := by
    rw [List.filter_map]
    rfl
  have hall := (listing_perm dir i).filter fun e => !isHidden e.name
  refine eq_of_perm_of_ordered ?_ (nodup_names_listing hn dir false) (ordered_mergeSort _) ?_
  · refine (List.mergeSort_perm _ _).trans ?_
    rw [hfilter]
    exact hall.symm
  · exact List.Pairwise.filter _ (ordered_mergeSort _)

end

/-! ## What stands on the disk -/

/-- Whole seconds since the epoch; before it there are none. -/
def seconds (time : Int) : UInt64 :=
  if time < 0 then 0 else UInt64.ofNat (time / 1000000000).toNat

/-- **How something in a directory is listed**: with its path, its size, which is nothing for a
directory, and when it was written. -/
def shownAs (dir name : String) : Disk.Entry → DirEntry
  | .directory time => ⟨name, Path.join dir name, 0, true, seconds time⟩
  | .file body =>
    ⟨name, Path.join dir name, UInt64.ofNat body.data.length, false, seconds body.modified⟩

theorem seconds_eq (time : Int) : UInt64.ofNat (time.toNat / 1000000000) = seconds time := by
  unfold seconds
  split
  · next h =>
    rw [Int.toNat_of_nonpos (Int.le_of_lt h)]
    rfl
  · exact congrArg UInt64.ofNat (by omega)

theorem entryOf_info (dir name : String) (e : Disk.Entry) :
    entryOf dir (e.info name) = shownAs dir name e := by
  cases e with
  | directory time =>
      rw [shownAs, ← seconds_eq]
      rfl
  | file body =>
      rw [shownAs, ← seconds_eq]
      rfl

/-- **A listing of all that stands in a directory**: each thing once, in strictly increasing order of
the names as octets. -/
structure ListsAll (d : Disk) (dir : String) (place : Place) (all : List DirEntry) : Prop where
  mem : ∀ e, e ∈ all ↔ ∃ name entry, d.standing? (place ++ [name]) = some entry ∧
    e = shownAs dir name entry
  increasing : all.Pairwise fun a b => Text.Utf8.encode a.name < Text.Utf8.encode b.name

theorem listsAll_listing (h : d.Distinct) (dir : String) (place : Place) :
    ListsAll d dir place (listing dir true (d.listed place)).entries where
  mem e := by
    rw [(listing_perm dir _).mem_iff, List.mem_map]
    constructor
    · rintro ⟨info, hinfo, rfl⟩
      obtain ⟨name, entry, hentry, rfl⟩ := (Disk.mem_listed h).1 hinfo
      exact ⟨name, entry, hentry, entryOf_info dir name entry⟩
    · rintro ⟨name, entry, hentry, rfl⟩
      exact ⟨_, (Disk.mem_listed h).2 ⟨name, entry, hentry, rfl⟩, entryOf_info dir name entry⟩
  increasing := increasing_of_ordered (ordered_mergeSort _)
    (nodup_names_listing (Disk.nodup_listed h place) dir true)

theorem run_listDirectory {ι : Type} {w : Workspace ι} {m : Int}
    (hf : w.disk.find path = .ok (place, .directory m)) (includeHidden : Bool) :
    (listDirectory path includeHidden).run w =
      (.ok (listing path includeHidden (w.disk.listed place)), w) := by
  simp only [listDirectory, look, Job.run_bind, Job.run_ask, Disk.readDirectory, hf]
  rfl

/-- **Listings of directories are exact.** Listing a directory with the hidden entries shows each
thing in it once, by strictly increasing names, and changes nothing. Without them it shows the same
but for the names that start with a dot. The order in which the system returns the entries does not
matter. -/
theorem listings_are_exact {ι : Type} (w : Workspace ι) {m : Int} (h : w.disk.Distinct)
    (hf : w.disk.find path = .ok (place, .directory m)) :
    ∃ all, ListsAll w.disk path place all ∧
      (listDirectory path true).run w = (.ok ⟨all⟩, w) ∧
      (listDirectory path false).run w = (.ok ⟨all.filter fun e => !isHidden e.name⟩, w) ∧
      ∀ order, order.Perm (w.disk.listed place) → listing path true order = ⟨all⟩ ∧
        listing path false order = ⟨all.filter fun e => !isHidden e.name⟩ := by
  have hn := Disk.nodup_listed h place
  have hhidden := listing_hidden hn path
  refine ⟨_, listsAll_listing h path place, run_listDirectory hf true, ?_, fun order ho => ⟨?_, ?_⟩⟩
  · rw [run_listDirectory hf false, ← hhidden]
  · exact (listing_of_perm hn ho.symm path true).symm
  · rw [← hhidden]
    exact (listing_of_perm hn ho.symm path false).symm

/-- A directory with a file, a hidden file from before the epoch and a directory, in no order. -/
def unsorted : Workspace Unit where
  disk :=
    { nodes := [(["work"], .directory 0), (["work", "b.txt"], .file 0), (["work", ".old"], .file 1),
        (["work", "a"], .directory 9000000000)]
      bodies := [⟨[1, 2, 3, 4, 5], 7900000000⟩, ⟨[], -3⟩]
      here := ["work"]
      clock := 0 }
  installs := ()

/-- The directory is listed by names, with the hidden file and without it. -/
theorem unsorted_is_listed :
    unsorted.disk.Distinct ∧ unsorted.disk.find "." = .ok (["work"], .directory 0) ∧
    (listDirectory "." true).run unsorted =
      (.ok ⟨[⟨".old", "./.old", 0, false, 0⟩, ⟨"a", "./a", 0, true, 9⟩,
        ⟨"b.txt", "./b.txt", 5, false, 7⟩]⟩, unsorted) ∧
    (listDirectory "." false).run unsorted =
      (.ok ⟨[⟨"a", "./a", 0, true, 9⟩, ⟨"b.txt", "./b.txt", 5, false, 7⟩]⟩, unsorted) := by
  have hdistinct : unsorted.disk.Distinct := by decide
  have hfind : unsorted.disk.find "." = .ok (["work"], .directory 0) := by decide +kernel
  obtain ⟨all, -, htrue, hfalse, horder⟩ := listings_are_exact unsorted hdistinct hfind
  -- Any order will do, so the one by names is taken, in which nothing has to be sorted.
  obtain ⟨hall, -⟩ := horder [⟨".old", 0, false, -3⟩, ⟨"a", 0, true, 9000000000⟩, ⟨"b.txt", 5, false, 7900000000⟩]
    (by decide +kernel)
  dsimp only [listing] at hall
  rw [List.mergeSort_of_pairwise (by decide +kernel)] at hall
  obtain rfl := DirListing.mk.inj hall
  exact ⟨hdistinct, hfind, htrue, hfalse⟩

end DeviceGateway.Files
