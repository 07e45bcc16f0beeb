import DeviceGateway.Proofs.FileSystem.Places
import DeviceGateway.Upload.Session

/-!
# Sessions that save

What one operation of a session that saves does, on a disk where everything stands in a directory.
Opening a path makes an empty file in place of the one that is there or changes nothing
(`run_replaceFile`); afterwards the file is known by its number, and the path is looked up no more
until the session is let go.
-/

namespace DeviceGateway.Upload

variable {ι τ : Type}

/-! ## Sessions that save -/

namespace Session

/-- A session in the middle of a file. -/
def saving (path : String) (number written chunks : Nat) : Session τ :=
  ⟨.save, some path, some (.file path number written), .receiving, written, chunks⟩

/-- **What a session that saves can be.** -/
inductive Saves : Session τ → Prop where
  | idle : Saves (.new .save)
  | saving (path : String) (number written chunks : Nat) :
      Saves (.saving path number written chunks)
  | failed (destination : Option String) (message : String) (written chunks : Nat) :
      Saves ⟨.save, destination, none, .failed message, written, chunks⟩

end Session

/-- Writes data from an offset on; no data is not written. -/
def writeSome (d : Disk) (number offset : Nat) (data : Bytes) : Disk :=
  if data.isEmpty then d else d.writeAt number offset data

section

variable (d : Disk) (number offset : Nat) (data : Bytes)

theorem writeSome_eq : ∃ f, writeSome d number offset data = d.modifyBody number f := by
  unfold writeSome
  split
  · exact ⟨id, by rw [Disk.modifyBody, List.modify_id]⟩
  · exact ⟨_, rfl⟩

theorem sameDirectories_writeSome : d.SameDirectories (writeSome d number offset data) := by
  obtain ⟨f, hf⟩ := writeSome_eq d number offset data
  rw [hf]
  exact Disk.sameDirectories_modifyBody d number f

@[simp] theorem node?_writeSome (place : Place) :
    (writeSome d number offset data).node? place = d.node? place := by
  obtain ⟨f, hf⟩ := writeSome_eq d number offset data
  rw [hf, Disk.node?_modifyBody]

@[simp] theorem length_writeSome :
    (writeSome d number offset data).bodies.length = d.bodies.length := by
  obtain ⟨f, hf⟩ := writeSome_eq d number offset data
  rw [hf, Disk.length_modifyBody]

variable {d number}

theorem body_writeSome_of_ne {k : Nat} (hn : number < d.bodies.length) (hk : k ≠ number) :
    (writeSome d number offset data).body k = d.body k := by
  obtain ⟨f, hf⟩ := writeSome_eq d number offset data
  rw [hf, Disk.body_modifyBody d k f hn, if_neg hk]

/-- Data that is written where the file ends goes behind what is there. -/
theorem data_writeSome (hn : number < d.bodies.length)
    (ho : (d.body number).data.length = offset) :
    ((writeSome d number offset data).body number).data = (d.body number).data ++ data := by
  subst ho
  unfold writeSome
  split
  · next he => rw [List.isEmpty_iff.1 he, List.append_nil]
  · rw [Disk.writeAt, Disk.body_modifyBody d number _ hn, if_pos rfl, Disk.splice_at_end]

end

/-! ## What the operations of a session do -/

/-- **Opening a path** that names a place where no directory is makes an empty file there, in place of
the one that is there. -/
theorem run_replaceFile_of_free {w : Workspace ι} {path : String} {place : Place}
    (hp : w.disk.filePlace? path = some place)
    (hn : ∀ m, w.disk.node? place ≠ some (.directory m)) :
    (Sink.replaceFile path : Work ι (Except GatewayError (Sink τ))).run w =
      (.ok (.file path w.disk.bodies.length 0), { w with disk := (w.disk.makeFile place).2 }) := by
  simp only [Sink.replaceFile, Job.run_bind, Job.run_ask, Disk.pathExists_of_filePlace? hp]
  cases hnode : w.disk.node? place with
  | none =>
      simp only [Option.isSome_none, Bool.false_eq_true, if_false, Job.run_pure, Job.run_bind,
        Job.run_ask, Workspace.onDisk, Disk.openForWriting_of_nothing hp hnode]
      rfl
  | some node =>
      cases node with
      | directory m => exact absurd hnode (hn m)
      | file n =>
          -- the path still names the place, and nothing is there any more
          have hp' : (w.disk.erase place).filePlace? path = some place :=
            (Disk.filePlace?_of_same (Disk.sameDirectories_erase hn) path).trans hp
          have hn' : (w.disk.erase place).node? place = none := by
            rw [Disk.node?_erase, if_pos ⟨rfl, Disk.ne_root_of_filePlace? hp⟩]
          have ho := Disk.openForWriting_of_nothing hp' hn' .new
          rw [Disk.makeFile_erase] at ho
          simp only [Option.isSome_some, if_true, Job.run_bind, Job.run_ask, Workspace.onDisk,
            Disk.removeFile_of_filePlace? hp, hnode, Except.map, ho]
          rfl

/-- **Opening a path** makes an empty file in place of the one that is there, or changes nothing. -/
theorem run_replaceFile {w : Workspace ι} (hr : w.disk.Rooted) (path : String) :
    (∃ e, (Sink.replaceFile path : Work ι (Except GatewayError (Sink τ))).run w = (.error e, w)) ∨
    ∃ place, w.disk.filePlace? path = some place ∧
      (∀ m, w.disk.node? place ≠ some (.directory m)) ∧
      (Sink.replaceFile path : Work ι (Except GatewayError (Sink τ))).run w =
        (.ok (.file path w.disk.bodies.length 0), { w with disk := (w.disk.makeFile place).2 }) := by
  by_cases hfree : ∃ place, w.disk.filePlace? path = some place ∧
      ∀ m, w.disk.node? place ≠ some (.directory m)
  · obtain ⟨place, hp, hn⟩ := hfree
    exact .inr ⟨place, hp, hn, run_replaceFile_of_free hp hn⟩
  · left
    simp only [Sink.replaceFile, Job.run_bind, Job.run_ask]
    by_cases hx : w.disk.pathExists path = true
    · simp only [hx, if_true, Job.run_bind, Job.run_ask, Workspace.onDisk]
      cases hrm : w.disk.removeFile path with
      | error e => exact ⟨_, rfl⟩
      | ok d' =>
          obtain ⟨place, n, hp, hn⟩ := Disk.filePlace?_of_removeFile hrm
          exact absurd ⟨place, hp, fun m => by rw [hn]; exact nofun⟩ hfree
    · simp only [hx, Bool.false_eq_true, if_false, Job.run_pure, Job.run_bind, Job.run_ask,
        Workspace.onDisk]
      cases ho : w.disk.openForWriting .new path with
      | error e => exact ⟨_, rfl⟩
      | ok opened =>
          obtain ⟨place, hp, hn⟩ := Disk.filePlace?_of_openForWriting hr ho
          exact absurd ⟨place, hp, fun m => by rw [hn]; exact nofun⟩ hfree

section

variable (i : Installer ι τ) (w : Workspace ι)

theorem run_take_saving (path : String) (number written chunks : Nat) (data : Bytes) :
    ((Session.saving path number written chunks).take i data).run w =
      ((.ok (), .saving path number (written + data.length) (chunks + 1)),
        { w with disk := writeSome w.disk number written data }) := by
  unfold Session.take writeSome
  split
  · next he =>
    rw [List.isEmpty_iff.1 he]
    rfl
  · rfl

theorem run_accept_saving (path : String) (number written chunks : Nat) (c : UploadChunk) :
    ((Session.saving path number written chunks).accept i c).run w =
      ((.ok (), .saving path number (written + c.data.length) (chunks + 1)),
        { w with disk := writeSome w.disk number written c.data }) :=
  run_take_saving i w path number written chunks c.data

/-- **The first chunk** opens the file that it names. -/
theorem run_accept_of_free {c : UploadChunk} {path : String} {place : Place} (hc : c.path = some path)
    (hp : w.disk.filePlace? path = some place)
    (hn : ∀ m, w.disk.node? place ≠ some (.directory m)) :
    ((Session.new .save).accept i c).run w =
      ((.ok (), .saving path w.disk.bodies.length c.data.length 1),
        { w with disk :=
          writeSome (w.disk.makeFile place).2 w.disk.bodies.length 0 c.data }) := by
  have hne : path ≠ "" := by
    rintro rfl
    cases hp
  simp only [Session.accept, Session.new, Session.openSink, hc, if_neg hne, Job.run_bind,
    run_replaceFile_of_free hp hn]
  have ht := run_take_saving i { w with disk := (w.disk.makeFile place).2 } path
    w.disk.bodies.length 0 0 c.data
  rw [Nat.zero_add, Nat.zero_add] at ht
  exact ht

/-- **The first chunk** opens the file that it names, or the session fails and nothing changes. -/
theorem run_accept_idle (hr : w.disk.Rooted) (c : UploadChunk) :
    (∃ e, ((Session.new .save).accept i c).run w =
      ((.error e, ⟨.save, none, none, .failed e.message, 0, 0⟩), w)) ∨
    ∃ path place, c.path = some path ∧ w.disk.filePlace? path = some place ∧
      (∀ m, w.disk.node? place ≠ some (.directory m)) ∧
      ((Session.new .save).accept i c).run w =
        ((.ok (), .saving path w.disk.bodies.length c.data.length 1),
          { w with disk :=
            writeSome (w.disk.makeFile place).2 w.disk.bodies.length 0 c.data }) := by
  cases hc : c.path with
  | none =>
      simp only [Session.accept, Session.new, hc, Job.run_bind]
      exact .inl ⟨_, rfl⟩
  | some path =>
      rcases run_replaceFile (τ := τ) hr path with ⟨e, hrun⟩ | ⟨place, hp, hn, -⟩
      · by_cases he : path = ""
        · simp only [Session.accept, Session.new, Session.openSink, hc, if_pos he]
          exact .inl ⟨.protocol "upload path is empty", rfl⟩
        · simp only [Session.accept, Session.new, Session.openSink, hc, if_neg he, Job.run_bind, hrun]
          exact .inl ⟨e, rfl⟩
      · exact .inr ⟨path, place, rfl, hp, hn, run_accept_of_free i w hc hp hn⟩

end

end DeviceGateway.Upload
