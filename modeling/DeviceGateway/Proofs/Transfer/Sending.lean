import DeviceGateway.Gateway.Handlers
import DeviceGateway.Proofs.Call.Course
import DeviceGateway.Proofs.FileSystem.Sight
import DeviceGateway.Proofs.Transfer.Pieces
import DeviceGateway.Proofs.Wire.Layouts

/-!
# Sending a file

A download looks at the file that its path names, and asks for nothing but its octets. As long as
the file holds the same data, what is left of the download is known at every point (`Left`), and
each step takes one message off it (`leads_nextMessage`). So a call that sends a file is on a course
whose answer is the transfer of the data (`sending_keptBy`).
-/

namespace DeviceGateway.Files

open Transfer

variable {ι : Type}

/-! ## Downloads, step by step -/

/-- **What is left to send** in a download of a file that holds some data. -/
inductive Left (n : Nat) (data : Bytes) : Download → List Bytes → Prop
  | mode : Left n data (.new (some (declaredLength data)) ⟨n, 0⟩) (messagesFor data)
  | length :
      Left n data ⟨.emitLength, some (declaredLength data), some ⟨n, 0⟩, 0⟩
        (Bytes.ofNatBE lengthSize (declaredLength data).toNat :: pieces data)
  | body (offset sent : Nat) :
      Left n data ⟨.streamBody, some (declaredLength data), some ⟨n, offset⟩, sent⟩
        (pieces (data.drop offset))

/-- One message is taken off what is left, or there is none. -/
inductive Next (n : Nat) (data : Bytes) : List Bytes → Answer (Option Bytes) × Download → Prop
  | message {m : Bytes} {rest : List Bytes} {f : Download} (hf : Left n data f rest) :
      Next n data (m :: rest) (.ok (some m), f)
  | exhausted {f : Download} : Next n data [] (.ok none, f)

section

variable {path : String} {n : Nat} {data : Bytes} {seen : Sight} {f : Download} {rest : List Bytes}

/-- **One step of a download** takes one message off what is left, if the file holds the data. -/
theorem next_of_left {d : Disk} (hf : Left n data f rest) (hdata : (d.body n).data = data) :
    Next n data rest (f.step fun file =>
      let (data, file) := file.read d chunkSize
      (.ok data, file)) := by
  cases hf with
  | mode => exact .message .length
  | length => exact .message (.body 0 0)
  | body offset sent =>
      -- an empty read is the end of the file
      by_cases he : data.drop offset = []
      · simp only [Framer.step, OpenFile.read, hdata, he, List.take_nil, pieces_nil]
        exact .exhausted
      · have hread : (data.drop offset).take chunkSize ≠ [] := by
          rw [Ne, List.take_eq_nil_iff]
          rintro (hz | hd)
          · exact absurd hz (by decide)
          · exact he hd
        have hrest : (data.drop offset).drop chunkSize =
            data.drop (offset + ((data.drop offset).take chunkSize).length) := by
          rw [List.drop_drop, List.length_take]
          by_cases hl : chunkSize ≤ (data.drop offset).length
          · rw [Nat.min_eq_left hl]
          · have hl := Nat.le_of_not_le hl
            rw [List.length_drop] at hl
            rw [List.length_drop, Nat.min_eq_right hl, List.drop_of_length_le (by omega),
              List.drop_of_length_le (by omega)]
        simp only [Framer.step, OpenFile.read, hdata, pieces_of_ne_nil he]
        rw [hrest]
        exact .message (.body _ _)

/-- **The next message of a download**, as long as the file holds the data. -/
theorem leads_nextMessage (hf : Left n data f rest) (hs : seen.Holds n data) :
    (Files.nextMessage f : Work ι _).Leads (Workspace.sight path)
      (fun r s => Next n data rest r ∧ s.Holds n data) seen := by
  rintro w rfl
  exact ⟨next_of_left hf (Disk.data_of_holds hs), hs⟩

/-- **A download is opened**: everything is left to send. -/
theorem leads_openDownload (hs : seen.Holds n data) :
    (openDownload path : Work ι _).Leads (Workspace.sight path)
      (fun r s => ∃ f, r = .ok f ∧ Left n data f (messagesFor data) ∧ s.Holds n data) seen := by
  unfold openDownload
  refine Job.Leads.bind (m := fun r s => ∃ place, r = .ok (place, .file n) ∧ s.Holds n data) ?_ ?_
  · rintro w rfl
    obtain ⟨place, hp⟩ := Disk.find_of_holds hs
    exact ⟨place, hp, hs⟩
  rintro _ s ⟨place, rfl, hs⟩
  refine Job.Leads.bind (m := fun size s => size = data.length ∧ s.Holds n data) ?_ ?_
  · rintro w rfl
    exact ⟨congrArg List.length (Disk.data_of_holds hs), hs⟩
  rintro _ s ⟨rfl, hs⟩
  exact ⟨_, rfl, .mode, hs⟩

end

/-! ## The call -/

/-- **What can be said of a call that sends a file**, at each point where it waits. -/
inductive Sending (n : Nat) (data : Bytes) : Talk → HandlerState → Sight → Prop
  | downloading {seen : Sight} {sent rest : List Bytes} {m : Bytes} {f : Download}
      (ht : sent ++ m :: rest = messagesFor data) (hf : Left n data f rest)
      (hs : seen.Holds n data) : Sending n data ⟨[], false, sent⟩ (.downloading f m) seen
  | ending {seen : Sight} (hs : seen.Holds n data) :
      Sending n data ⟨[], false, messagesFor data⟩ (.ending (.ok ())) seen

/-- **The course of a download**: the caller says nothing, and the answer is the transfer of what the
file holds. -/
def sending (n : Nat) (data : Bytes) : Course HandlerState Sight where
  script := []
  answer := messagesFor data
  holds := Sending n data
  final seen := seen.Holds n data

section

variable {g : Gateway} {path : String} {n : Nat} {data : Bytes} {seen : Sight}

theorem leads_continueDownload {f : Download} {sent rest : List Bytes}
    (ht : sent ++ rest = messagesFor data) (hf : Left n data f rest) (hs : seen.Holds n data) :
    (Gateway.continueDownload f).Leads (Workspace.sight path) (Sending n data ⟨[], false, sent⟩) seen := by
  unfold Gateway.continueDownload
  refine (leads_nextMessage hf hs).bind ?_
  rintro r s ⟨hr, hs⟩
  cases hr with
  | message hnext => exact .downloading ht hnext hs
  | exhausted =>
      rw [List.append_nil] at ht
      subst ht
      exact .ending hs

theorem leads_download (hs : seen.Holds n data) :
    (Gateway.download path).Leads (Workspace.sight path) (Sending n data .begin) seen := by
  unfold Gateway.download
  refine (leads_openDownload hs).bind ?_
  rintro _ s ⟨f, rfl, hf, hs⟩
  exact leads_continueDownload (List.nil_append _) hf hs

/-- **A call that sends a file keeps to its course.** -/
theorem sending_keptBy : (sending n data).KeptBy g.handler (Workspace.sight path) := by
  intro t state seen hholds
  cases hholds with
  | @downloading _ sent rest m f ht hf hs =>
      have hm : m ∈ messagesFor data := ht ▸ List.mem_append_right _ List.mem_cons_self
      refine ⟨⟨rest, (List.append_assoc _ _ _).trans ht⟩,
        Nat.le_trans (length_le_of_mem_messagesFor hm) (by decide), ?_⟩
      refine leads_continueDownload ?_ hf hs
      rw [List.append_assoc]
      exact ht
  | ending hs => exact ⟨rfl, rfl, hs⟩

end

end DeviceGateway.Files
