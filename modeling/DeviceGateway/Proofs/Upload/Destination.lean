import DeviceGateway.Install.Memory
import DeviceGateway.Proofs.FileSystem.Elsewhere
import DeviceGateway.Proofs.Upload.Whole

/-!
# Where a session saves

A session that saves touches one place on the disk, which is the one that its first chunk names. In
the end the place holds the data of all chunks, or nothing; and if no file could be made there, the
session has left everything as it was (`fate_of_whole`).
-/

namespace DeviceGateway.Upload

variable {ι τ : Type}

/-- **Where chunks are saved**: the path of the first one names a place, and no directory is there.
-/
structure Destined (d : Disk) (chunks : List UploadChunk) (path : String) (place : Place) : Prop where
  first : chunks.head?.bind (·.path) = some path
  named : d.filePlace? path = some place
  free : ∀ m, d.node? place ≠ some (.directory m)

/-- **What becomes of a session that saves**, and of the world. -/
inductive Fate (w : Workspace ι) (chunks : List UploadChunk) (complete : Bool) :
    Option Outcome × Workspace ι → Prop where
  /-- There is no place for the chunks, and everything is as it was. -/
  | untouched (hnowhere : ∀ path place, ¬ Destined w.disk chunks path place) :
      Fate w chunks complete (none, w)
  /-- The upload is complete, and its file holds the data of all chunks. -/
  | kept {path : String} {place : Place} {d : Disk} (hdest : Destined w.disk chunks path place)
      (hcomplete : complete = true) (hbut : w.disk.SameBut place d)
      (hdata : d.content? place = some (dataOf chunks)) :
      Fate w chunks complete
        (some ⟨.save, some path, (dataOf chunks).length, chunks.length⟩, { w with disk := d })
  /-- The upload is not complete, and there is no file. -/
  | gone {path : String} {place : Place} {d : Disk} (hdest : Destined w.disk chunks path place)
      (hincomplete : complete = false) (hbut : w.disk.SameBut place d)
      (hnothing : d.node? place = none) : Fate w chunks complete (none, { w with disk := d })

/-- **In the middle of a file**: how the disk differs from the one that the session found. -/
structure Amid (d : Disk) (path : String) (place : Place) (number : Nat) (data : Bytes)
    (d' : Disk) : Prop where
  named : d.filePlace? path = some place
  but : d.SameBut place d'
  node : d'.node? place = some (.file number)
  /-- The file is none of those that the session found. -/
  fresh : d.bodies.length ≤ number
  made : number < d'.bodies.length
  data : (d'.body number).data = data

namespace Amid

variable {d d' : Disk} {path : String} {place : Place} {number : Nat} {data : Bytes}

theorem makeFile (hm : d.Made) (hp : d.filePlace? path = some place)
    (hn : ∀ m, d.node? place ≠ some (.directory m)) :
    Amid d path place d.bodies.length [] (d.makeFile place).2 where
  named := hp
  but := Disk.sameBut_makeFile hm hn
  node := by rw [Disk.node?_makeFile, if_pos ⟨rfl, Disk.ne_root_of_filePlace? hp⟩]
  fresh := Nat.le_refl _
  made := by
    rw [Disk.length_makeFile]
    exact Nat.lt_succ_self _
  data := by rw [Disk.body_makeFile_new]

theorem write (hm : d.Made) (h : Amid d path place number data d') (more : Bytes) :
    Amid d path place number (data ++ more) (writeSome d' number data.length more) where
  named := h.named
  but := by
    obtain ⟨f, hf⟩ := writeSome_eq d' number data.length more
    rw [hf]
    -- the file stands nowhere else, for it was made after all that the session found
    refine h.but.trans (Disk.sameBut_modifyBody h.made (fun q hq hn => ?_) f)
    rw [h.but.node q hq] at hn
    exact Nat.not_lt.2 h.fresh (hm q number hn)
  node := by rw [node?_writeSome, h.node]
  fresh := h.fresh
  made := by
    rw [length_writeSome]
    exact h.made
  data := by rw [data_writeSome _ _ h.made (congrArg List.length h.data), h.data]

/-- **What is left when the file is given up.** -/
theorem discard (h : Amid d path place number data d') :
    d.SameBut place (d'.discard path) ∧ (d'.discard path).node? place = none := by
  have hp : d'.filePlace? path = some place :=
    (Disk.filePlace?_of_same h.but.directories path).trans h.named
  have herase : d'.discard path = d'.erase place := by
    rw [Disk.discard, Disk.removeFile_of_filePlace? hp, h.node]
    rfl
  rw [herase]
  refine ⟨h.but.trans (Disk.sameBut_erase fun m => ?_), ?_⟩
  · rw [h.node]
    exact nofun
  · rw [Disk.node?_erase, if_pos ⟨rfl, Disk.ne_root_of_filePlace? hp⟩]

end Amid

section

variable {i : Installer ι τ} {w : Workspace ι} {d : Disk} {path : String} {place : Place} {number : Nat}
  {e : Ending}

/-- **The rest of a session that has opened its file.** -/
theorem fate_of_saving (hm : w.disk.Made) (he : e = .finish ∨ e = .drop) (arrivals : List Arrival)
    {taken : List UploadChunk}
    (hdest : Destined w.disk (taken ++ chunksTaken arrivals e) path place)
    (h : Amid w.disk path place number (dataOf taken) d) :
    Fate w (taken ++ chunksTaken arrivals e) (isComplete arrivals e)
      ((Session.rest i e (.saving path number (dataOf taken).length taken.length) arrivals).run
        { w with disk := d }) := by
  induction arrivals generalizing taken d with
  | nil =>
      rcases he with rfl | rfl
      · have hall : taken ++ chunksTaken [] .finish = taken := List.append_nil taken
        rw [hall] at hdest ⊢
        refine .kept hdest rfl h.but ?_
        rw [Disk.content?, h.node, ← h.data]
      · obtain ⟨hbut, hnothing⟩ := h.discard
        exact .gone hdest rfl hbut hnothing
  | cons a more ih =>
      cases a with
      | chunk c =>
          have hall : taken ++ chunksTaken (.chunk c :: more) e = taken ++ [c] ++ chunksTaken more e :=
            (List.append_assoc taken [c] _).symm
          have hdata : dataOf (taken ++ [c]) = dataOf taken ++ c.data := by
            rw [dataOf, List.flatMap_append, List.flatMap_singleton, dataOf]
          have hnext := ih (hall ▸ hdest) (hdata ▸ h.write hm c.data)
          rw [hall]
          rw [hdata, List.length_append, List.length_append, List.length_singleton] at hnext
          rw [Session.run_rest_chunk, run_accept_saving]
          exact hnext
      | refusal fault =>
          obtain ⟨hbut, hnothing⟩ := h.discard
          rw [Session.run_rest_refusal]
          exact .gone hdest rfl hbut hnothing

theorem fate_of_plain (hr : w.disk.Rooted) (hm : w.disk.Made) (he : e = .finish ∨ e = .drop)
    (arrivals : List Arrival) :
    Fate w (chunksTaken arrivals e) (isComplete arrivals e)
      ((Session.whole i .save arrivals e).run w) := by
  cases arrivals with
  | nil =>
      have hnothing : chunksTaken [] e = [] := by rcases he with rfl | rfl <;> rfl
      have hrun : (Session.whole i .save [] e).run w = (none, w) := by
        rcases he with rfl | rfl <;> rfl
      rw [hrun, hnothing]
      exact .untouched fun path place h => nomatch h.first
  | cons a more =>
      cases a with
      | refusal fault =>
          rw [Session.whole, Session.run_rest_refusal]
          exact .untouched fun path place h => nomatch h.first
      | chunk c =>
          rw [Session.whole, Session.run_rest_chunk]
          by_cases hopen : ∃ path place, Destined w.disk (c :: chunksTaken more e) path place
          · obtain ⟨path, place, hdest⟩ := hopen
            have hamid := (Amid.makeFile hm hdest.named hdest.free).write hm c.data
            rw [run_accept_of_free i w hdest.first hdest.named hdest.free]
            have hone : dataOf [c] = c.data := List.append_nil c.data
            have hfirst : Amid w.disk path place w.disk.bodies.length (dataOf [c])
                (writeSome (w.disk.makeFile place).2 w.disk.bodies.length 0 c.data) := hone ▸ hamid
            have hrest := fate_of_saving (i := i) hm he more hdest hfirst
            rwa [hone] at hrest
          · have hnowhere : ∀ path place, ¬ Destined w.disk (c :: chunksTaken more e) path place :=
              fun path place hdest => hopen ⟨path, place, hdest⟩
            rcases run_accept_idle i w hr c with ⟨fault, hrun⟩ | ⟨path, place, hc, hp, hn, -⟩
            · rw [hrun, Session.run_rest_closed i _ ⟨rfl, .inr ⟨_, rfl⟩⟩]
              exact .untouched hnowhere
            · exact absurd ⟨hc, hp, hn⟩ (hnowhere path place)

/-- **A session that saves touches only its destination**, and leaves it in one of three ways.
Whatever the disk looks like, whatever chunks come, whenever the system refuses something, and
however the session is used up: if the first chunk names no place where a file can be made, the
session fails and nothing has changed; otherwise nothing has changed but at that place. There the
file holds the data of all chunks, and the outcome says how much it is, if the upload is complete,
and nothing is there if it is not. -/
theorem fate_of_whole (i : Installer ι τ) (hr : w.disk.Rooted) (hm : w.disk.Made)
    (arrivals : List Arrival) (e : Ending) :
    Fate w (chunksTaken arrivals e) (isComplete arrivals e)
      ((Session.whole i .save arrivals e).run w) := by
  obtain ⟨arrivals', e', he, hchunks, hcomplete, hrun⟩ := exists_plain arrivals e
  rw [hchunks, hcomplete, hrun]
  exact fate_of_plain hr hm he arrivals'

end

/-- An upload over a file that is there already, beside another one, which a later chunk names. A
message brings the last chunk, and the file is kept; where one more message cannot be read, it is
gone. -/
theorem saved_over_an_old_file :
    let a := ((Disk.ofClock 0).makeFile ["work", "a"]).2.modifyBody 0 fun _ => ⟨[9], 0⟩
    let d := (a.makeFile ["work", "b"]).2.modifyBody 1 fun _ => ⟨[7], 0⟩
    let w : Workspace MemoryStore := ⟨d, .new ⟨none, none, none⟩⟩
    let arrivals := [.chunk ⟨some "a", [65]⟩, .chunk ⟨some "b", []⟩, .chunk ⟨none, [66]⟩]
    let last := Payload.toBytes (⟨none, [67]⟩ : UploadChunk)
    let fate (e : Ending) := (Session.whole memoryInstaller .save arrivals e).run w
    let kept := fate (.consume [last])
    let lost := fate (.consume [last, [0]])
    (∀ e, Fate w (chunksTaken arrivals e) (isComplete arrivals e) (fate e)) ∧
      (kept.1 = some ⟨.save, some "a", 3, 4⟩ ∧ kept.2.disk.fileData "a" = .ok [65, 66, 67] ∧
        kept.2.disk.fileData "b" = .ok [7]) ∧
      lost.1 = none ∧ lost.2.disk.fileData "a" = .error .missing ∧
        lost.2.disk.fileData "b" = .ok [7] := by
  intro a d w arrivals last fate kept lost
  have hpa : (Disk.ofClock 0).filePlace? "a" = some ["work", "a"] := by decide +kernel
  have hpb : a.filePlace? "b" = some ["work", "b"] := by decide +kernel
  have hna : (Disk.ofClock 0).node? ["work", "a"] = none := by decide +kernel
  have hnb : a.node? ["work", "b"] = none := by decide +kernel
  have hra : a.Rooted := (Disk.rooted_ofClock 0).makeFile hpa fun m h => nomatch hna.symm.trans h
  have hr : w.disk.Rooted := Disk.Rooted.makeFile hra hpb fun m h => nomatch hnb.symm.trans h
  have hm : w.disk.Made :=
    ((((Disk.made_ofClock 0).makeFile _).modifyBody _ _).makeFile _).modifyBody _ _
  refine ⟨fate_of_whole memoryInstaller hr hm arrivals, ?_, ?_⟩
  · decide +kernel
  · decide +kernel

end DeviceGateway.Upload
