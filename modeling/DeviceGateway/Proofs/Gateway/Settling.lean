import DeviceGateway.Gateway.Files
import DeviceGateway.Proofs.Call.Leading
import DeviceGateway.Proofs.FileSystem.Leftovers
import DeviceGateway.Proofs.FileSystem.PathLengths
import DeviceGateway.Proofs.Text.Utf8

/-!
# How operations on files come out

An operation that changes the disk is acknowledged, or it fails (`Settles`). An acknowledgement names
paths that were walked, so it is short. An operation that is one step leaves the disk as it was when it
fails. Of one in steps some of the work may be left: directories that were made, a directory that was
cleared and could not be removed, or what was copied of a directory.

All this holds for operations that are alone on the disk: each step finds the disk as the one before it
has left it.
-/

namespace DeviceGateway

namespace Files

/-- The most characters of an acknowledgement: two paths, and some words. -/
def ackLimit : Nat := 2 * Disk.maxPath + 100

/-- **How an operation on files comes out**: it has failed and left a disk of some kind, or is
acknowledged in few words. -/
inductive Settles (left : Disk → Prop) : Answer OperationStatus → Disk → Prop where
  | failed {d : Disk} (e : GatewayError) (hleft : left d) : Settles left (.error e) d
  | acknowledged {text : String} {d : Disk} (hshort : text.length ≤ ackLimit) :
      Settles left (done text) d

variable {ι : Type} {d : Disk} {left : Disk → Prop} {path : String}

/-! ### Steps -/

theorem leads_question {α : Type} (question : Disk → α) :
    (look question : Work ι α).Leads Workspace.disk (fun a d' => a = question d ∧ d' = d) d := by
  rintro w rfl
  exact ⟨rfl, rfl⟩

/-- A step that is refused leaves the disk as it was. -/
theorem leads_onDisk {α : Type} (step : Disk → Except FileFault (α × Disk)) :
    (Job.ask (Workspace.onDisk step) : Work ι _).Leads Workspace.disk (fun answer d' =>
      (∃ e, answer = .error e ∧ d' = d) ∨ ∃ a, answer = .ok a ∧ step d = .ok (a, d')) d := by
  rintro w rfl
  show (∃ e, (w.onDisk step).1 = .error e ∧ (w.onDisk step).2.disk = w.disk) ∨
    ∃ a, (w.onDisk step).1 = .ok a ∧ step w.disk = .ok (a, (w.onDisk step).2.disk)
  unfold Workspace.onDisk
  split
  · next a d' h => exact .inr ⟨a, rfl, h⟩
  · next e h => exact .inl ⟨e, rfl, rfl⟩

theorem leads_change (step : Disk → Except FileFault Disk) :
    (change step : Work ι _).Leads Workspace.disk (fun answer d' =>
      (∃ e, answer = .error e ∧ d' = d) ∨ answer = .ok () ∧ step d = .ok d') d := by
  apply (leads_onDisk _).mono
  rintro answer d' (hrefused | ⟨⟨⟩, rfl, hstep⟩)
  · exact .inl hrefused
  · refine .inr ⟨rfl, ?_⟩
    cases hd : step d with
    | error e =>
        rw [hd] at hstep
        cases hstep
    | ok d₁ =>
        rw [hd] at hstep
        cases hstep
        rfl

theorem leads_onDiskPartly {α : Type} (step : Disk → α × Disk) :
    (Job.ask (Workspace.onDiskPartly step) : Work ι _).Leads Workspace.disk
      (fun a d' => step d = (a, d')) d := by
  rintro w rfl
  rfl

/-! ### Acknowledgements -/

theorem length_le_of_short (hshort : path.utf8ByteSize < Disk.maxPath) :
    path.length < Disk.maxPath :=
  Nat.lt_of_le_of_lt (Text.Utf8.length_le_utf8ByteSize path) hshort

/-- **An acknowledgement names a path** behind a few words. -/
theorem Settles.of_path {words : String} (hwords : words.length ≤ 100)
    (hshort : path.utf8ByteSize < Disk.maxPath) : Settles left (done (words ++ path)) d := by
  refine .acknowledged ?_
  have hpath := length_le_of_short hshort
  rw [String.length_append, ackLimit]
  omega

theorem Settles.of_path_first {words : String} (hwords : words.length ≤ 100)
    (hshort : path.utf8ByteSize < Disk.maxPath) : Settles left (done (path ++ words)) d := by
  refine .acknowledged ?_
  have hpath := length_le_of_short hshort
  rw [String.length_append, ackLimit]
  omega

/-- **An acknowledgement names two paths**, and an arrow between them. -/
theorem Settles.of_arrow {front target : String} (hfront : front.length ≤ Disk.maxPath + 90)
    (htarget : target.utf8ByteSize < Disk.maxPath) :
    Settles left (done (front ++ " -> " ++ target)) d := by
  refine .acknowledged ?_
  have ht := length_le_of_short htarget
  have harrow : " -> ".length = 4 := by decide
  rw [String.length_append, String.length_append, harrow, ackLimit]
  omega

/-- How much has been written is said in few words. -/
theorem length_words_le (mode : TextMode) {n : Nat} (hn : n ≤ Frame.maxPayload) :
    (mode.verb ++ " " ++ toString n ++ " bytes to ").length ≤ 100 := by
  have hverb : mode.verb.length ≤ 8 := by cases mode <;> decide
  have hdigits : (toString n).length ≤ 7 :=
    (Nat.length_repr_le_iff (by decide)).2 (Nat.lt_of_le_of_lt hn (by decide))
  have hblank : " ".length = 1 := by decide
  have hbytes : " bytes to ".length = 10 := by decide
  rw [String.length_append, String.length_append, String.length_append, hblank, hbytes]
  omega

/-! ### Operations in steps -/

theorem settles_createDirectory (path : String) (hmade : ∀ d', d.Widens d' → left d') :
    (createDirectory path : Work ι _).Leads Workspace.disk (Settles left) d := by
  unfold createDirectory
  apply (leads_onDiskPartly _).bind
  intro fault d' hstep
  cases fault with
  | some e =>
      have hwidens := Disk.widens_makeDirectories d path
      rw [hstep] at hwidens
      exact .failed _ (hmade d' hwidens)
  | none => exact .of_path (by decide) (Disk.short_of_makeDirectories hstep)

section

variable (hsame : left d)
include hsame

/-! ### Operations that are done wholly or not at all -/

theorem settles_createFile (path : String) :
    (createFile path : Work ι _).Leads Workspace.disk (Settles left) d := by
  unfold createFile
  apply (leads_onDisk _).bind
  rintro answer d' (⟨e, rfl, rfl⟩ | ⟨n, rfl, hopen⟩)
  · exact .failed _ hsame
  · exact .of_path (by decide) (Disk.short_of_openForWriting hopen)

theorem settles_deleteFile (path : String) :
    (deleteFile path : Work ι _).Leads Workspace.disk (Settles left) d := by
  unfold deleteFile
  apply (leads_change _).bind
  rintro answer d' (⟨e, rfl, rfl⟩ | ⟨rfl, hremoved⟩)
  · exact .failed _ hsame
  · exact .of_path (by decide) (Disk.short_of_removeFile hremoved)

theorem settles_move (pair : PathPair) :
    (move pair : Work ι _).Leads Workspace.disk (Settles left) d := by
  unfold move
  apply (leads_question _).bind
  rintro there d' ⟨rfl, rfl⟩
  split
  · apply (leads_change _).bind
    rintro answer d' (⟨e, rfl, rfl⟩ | ⟨rfl, hmoved⟩)
    · exact .failed _ hsame
    · obtain ⟨hsource, htarget⟩ := Disk.short_of_rename hmoved
      have hfront := length_le_of_short hsource
      exact .of_arrow (Nat.le_trans (Nat.le_of_lt hfront) (Nat.le_add_right _ _)) htarget
  · exact .failed _ hsame

theorem settles_removeDirectory (path : String)
    (hcleared : ∀ place d', d.ClearsOut path place d' → left d') :
    (removeDirectory path : Work ι _).Leads Workspace.disk (Settles left) d := by
  unfold removeDirectory
  apply (leads_onDiskPartly _).bind
  intro fault d' hstep
  cases fault with
  | some e =>
      refine .failed _ ?_
      rcases Disk.removeTree_of_fault hstep with rfl | ⟨place, hclears⟩
      · exact hsame
      · exact hcleared place d' hclears
  | none => exact .of_path (by decide) (Disk.short_of_removeTree hstep)

/-- **Copying** loses nothing of a disk if a directory is copied, and changes nothing otherwise. -/
theorem settles_copyNode (pair : PathPair) (node : Node)
    (hsource : pair.source.utf8ByteSize < Disk.maxPath)
    (hcopied : (∃ m, node = .directory m) → ∀ d', d.Adds d' → left d') :
    (copyNode pair node : Work ι _).Leads Workspace.disk (Settles left) d := by
  have hs := length_le_of_short hsource
  have hfront : ("copied " ++ pair.source).length ≤ Disk.maxPath + 90 := by
    have hword : "copied ".length = 7 := by decide
    rw [String.length_append, hword]
    omega
  cases node with
  | file n =>
      apply (leads_change _).bind
      rintro answer d' (⟨e, rfl, rfl⟩ | ⟨rfl, hdone⟩)
      · exact .failed _ hsame
      · exact .of_arrow hfront (Disk.short_of_copyFile hdone)
  | directory m =>
      apply (leads_onDiskPartly _).bind
      intro fault d' hstep
      cases fault with
      | some e =>
          have hadds := Disk.adds_copyTree d pair.source pair.target
          rw [hstep] at hadds
          exact .failed _ (hcopied ⟨m, rfl⟩ d' hadds)
      | none => exact .of_arrow hfront (Disk.short_of_copyTree hstep)

theorem settles_copy (pair : PathPair)
    (hcopied : d.isDirectory pair.source = true → ∀ d', d.Adds d' → left d') :
    (copy pair : Work ι _).Leads Workspace.disk (Settles left) d := by
  unfold copy
  apply (leads_question _).bind
  rintro found d' ⟨rfl, rfl⟩
  split
  · exact .failed _ hsame
  · next place node hfound =>
    apply (leads_question _).bind
    rintro there d₁ ⟨rfl, rfl⟩
    split
    · next hthere =>
      exact .of_path_first (by decide) (Disk.short_of_pathExists hthere)
    · -- Nothing has changed since the source was looked at.
      apply settles_copyNode hsame pair node (Disk.short_of_find hfound)
      rintro ⟨m, rfl⟩
      apply hcopied
      rw [Disk.isDirectory, hfound]

theorem settles_writeText (mode : TextMode) (r : TextRequest)
    (hfits : (Text.Utf8.encode r.text).length ≤ Frame.maxPayload) :
    (writeText mode r : Work ι _).Leads Workspace.disk (Settles left) d := by
  unfold writeText
  apply (leads_onDisk _).bind
  rintro answer d' (⟨e, rfl, rfl⟩ | ⟨n, rfl, hopen⟩)
  · exact .failed _ hsame
  · have hshort := Disk.short_of_openForWriting hopen
    have hwords := length_words_le mode hfits
    exact fun w hw => .of_path hwords hshort

end

end Files

end DeviceGateway
