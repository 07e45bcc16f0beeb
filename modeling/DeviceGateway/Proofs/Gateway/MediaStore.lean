import DeviceGateway.Loopback.ServerSession
import DeviceGateway.Proofs.FileSystem.Subtree
import DeviceGateway.Proofs.Gateway.Accepting
import DeviceGateway.Proofs.Gateway.Listings
import DeviceGateway.Proofs.Server.Twins

/-!
# The media store is confined to its root

The calls of the media store work below the media root only. Whatever the requests are, nothing
changes on the disk but that files below the root are removed, and what the caller is told depends on
nothing but what stands below the root (`media_store_is_confined`): on two disks that are alike there,
and may differ in everything else, the same happens.
-/

namespace DeviceGateway

/-! ## Transfers -/

namespace Transfer.Framer

variable {σ σ' : Type} {same : σ → σ' → Prop}

/-- Transfers of like sources that have got equally far. -/
inductive Twin (same : σ → σ' → Prop) : Framer σ → Framer σ' → Prop
  | mk (phase : Phase) (declared : Option UInt64) (bodyBytes : Nat) {s : Option σ} {s' : Option σ'}
      (source : Option.Rel same s s') :
      Twin same ⟨phase, declared, s, bodyBytes⟩ ⟨phase, declared, s', bodyBytes⟩

/-- **The next message** is the same, if the sources give the same. -/
theorem Twin.step {read : σ → Except String Bytes × σ} {read' : σ' → Except String Bytes × σ'}
    (hread : ∀ s s', same s s' → (read s).1 = (read' s').1 ∧ same (read s).2 (read' s').2)
    {f : Framer σ} {f' : Framer σ'} (hf : Twin same f f') :
    (f.step read).1 = (f'.step read').1 ∧ Twin same (f.step read).2 (f'.step read').2 := by
  have hon := hf
  cases hf with
  | mk phase declared bodyBytes source =>
  unfold Framer.step
  cases phase with
  | emitMode => cases declared <;> exact ⟨rfl, .mk _ _ _ source⟩
  | emitLength =>
      cases declared with
      | none => exact ⟨rfl, hon⟩
      | some n => exact ⟨rfl, .mk _ _ _ source⟩
  | done => exact ⟨rfl, hon⟩
  | streamBody =>
      cases source with
      | none => exact ⟨rfl, .mk _ _ _ .none⟩
      | @some s s' hs =>
          obtain ⟨hsame, hnext⟩ := hread s s' hs
          dsimp only
          generalize read s = r at hsame hnext ⊢
          generalize read' s' = r' at hsame hnext ⊢
          obtain ⟨r, t⟩ := r
          obtain ⟨r', t'⟩ := r'
          dsimp only at hsame hnext
          subst hsame
          cases r with
          | error text => exact ⟨rfl, .mk _ _ _ .none⟩
          | ok bs =>
              cases bs with
              | nil => exact ⟨rfl, .mk _ _ _ .none⟩
              | cons b bs => exact ⟨rfl, .mk _ _ _ (.some hnext)⟩

end Transfer.Framer

namespace Gateway

open Disk

variable {g : Gateway} {place place' : Place} {v v' w w' : GatewayWorld}

/-- **What two worlds have in common while calls of the media store are served**: they are alike below
the media root, and since the beginning nothing has happened to either but that files below the root
were removed. -/
structure AlikeSince (g : Gateway) (place place' : Place) (v v' w w' : GatewayWorld) : Prop where
  tree : SameTree g.mediaRoot place place' w.disk w'.disk
  removed : RemovedBelow place v.disk w.disk
  removed' : RemovedBelow place' v'.disk w'.disk
  installs : w.installs = v.installs
  installs' : w'.installs = v'.installs

/-- Open files of two disks that hold the same, read equally far. -/
def SameFile (d d' : Disk) (f f' : Files.OpenFile) : Prop :=
  f.offset = f'.offset ∧ d.body f.number = d'.body f'.number

/-- **Handlers of the media store that stand at the same point.** -/
inductive SameState (d d' : Disk) : HandlerState → HandlerState → Prop
  | replying (reply : Bytes) : SameState d d' (.replying reply) (.replying reply)
  | downloading (message : Bytes) {f f' : Files.Download} (h : f.Twin (SameFile d d') f') :
      SameState d d' (.downloading f message) (.downloading f' message)
  | ending (result : Except GatewayError Unit) : SameState d d' (.ending result) (.ending result)

section Jobs

variable {names : List String} (hnames : ∀ n ∈ names, Path.Proper n)

/-- The jobs of two handlers that stand at the same point. -/
abbrev TwinWork (g : Gateway) (place place' : Place) (v v' : GatewayWorld)
    (j j' : Work HandlerState) : Prop :=
  Job.Twin (AlikeSince g place place' v v') (SameState v.disk v'.disk) j j'

theorem twin_ending (result : Except GatewayError Unit) :
    TwinWork g place place' v v' (pure (.ending result)) (pure (.ending result)) :=
  .done (.ending result)

/-- A question about the disk that is answered alike. -/
theorem twin_look {α β : Type} {same : α → β → Prop} {q : Disk → α} {q' : Disk → β}
    (h : ∀ w w', AlikeSince g place place' v v' w w' → same (q w.disk) (q' w'.disk)) :
    Job.Twin (AlikeSince g place place' v v') same (Files.look q) (Files.look q') :=
  .ask fun w w' hw => ⟨h w w' hw, hw⟩

/-- A reply that is worked out alike. -/
theorem twin_reply {α : Type} [Payload α] {work work' : Work (Except GatewayError α)}
    (h : Job.Twin (AlikeSince g place place' v v') (· = ·) work work') :
    TwinWork g place place' v v' (reply work) (reply work') := by
  refine h.bind ?_
  rintro answer _ rfl
  cases answer with
  | error e => exact twin_ending _
  | ok answer => exact .done (.replying _)

/-! ### Listing and deleting -/

include hnames

theorem twin_listDirectory (includeHidden : Bool) :
    Job.Twin (AlikeSince g place place' v v') (· = ·)
      (Files.listDirectory (ι := StagingCounter) (Path.below g.mediaRoot names) includeHidden)
      (Files.listDirectory (Path.below g.mediaRoot names) includeHidden) := by
  refine Job.Twin.bind (twin_look fun w w' hw => hw.tree.readDirectory hnames) ?_
  intro a b hab
  cases hab with
  | error e => exact .done rfl
  | ok hl => exact .done (congrArg Except.ok (Files.listing_of_perm hl.2 hl.1 _ _))

theorem twin_deleteMedia (requested : String) :
    Job.Twin (AlikeSince g place place' v v') (· = ·)
      (deleteMedia requested (Path.below g.mediaRoot names))
      (deleteMedia requested (Path.below g.mediaRoot names)) := by
  have hchange : Job.Twin (AlikeSince g place place' v v') (· = ·)
      (Files.change (ι := StagingCounter) (·.removeFile (Path.below g.mediaRoot names)))
      (Files.change (·.removeFile (Path.below g.mediaRoot names))) := by
    refine .ask fun w w' hw => ?_
    have hremove := hw.tree.removeFile hnames
    unfold Workspace.onDisk
    dsimp only
    generalize Disk.removeFile w.disk _ = x at hremove ⊢
    generalize Disk.removeFile w'.disk _ = x' at hremove ⊢
    cases hremove with
    | error e => exact ⟨rfl, hw⟩
    | ok h =>
        obtain ⟨rfl, rfl, hne, hn, hn'⟩ := h
        exact ⟨rfl, hw.tree.erase hn hn', hw.removed.erase hne hn, hw.removed'.erase hne hn',
          hw.installs, hw.installs'⟩
  refine hchange.bind ?_
  rintro answer _ rfl
  cases answer with
  | error e => exact .done rfl
  | ok _ => exact .done rfl

/-! ### Downloads -/

omit hnames in
theorem twin_continueDownload {f f' : Files.Download}
    (hf : f.Twin (SameFile v.disk v'.disk) f') :
    TwinWork g place place' v v' (continueDownload f) (continueDownload f') := by
  have hnext : Job.Twin (AlikeSince g place place' v v')
      (fun x x' => x.1 = x'.1 ∧ x.2.Twin (SameFile v.disk v'.disk) x'.2)
      (Files.nextMessage (ι := StagingCounter) f) (Files.nextMessage f') := by
    refine twin_look fun w w' hw => hf.step ?_
    rintro s s' ⟨hoffset, hbody⟩
    simp only [Files.OpenFile.read, hw.removed.body, hw.removed'.body, hoffset, hbody, SameFile,
      and_self]
  refine hnext.bind ?_
  rintro ⟨answer, f⟩ ⟨_, f'⟩ ⟨rfl, hf⟩
  cases answer with
  | error e => exact twin_ending _
  | ok m =>
      cases m with
      | none => exact twin_ending _
      | some m => exact .done (.downloading m hf)

theorem twin_openDownload :
    Job.Twin (AlikeSince g place place' v v') (Agree (Transfer.Framer.Twin (SameFile v.disk v'.disk)))
      (Files.openDownload (ι := StagingCounter) (Path.below g.mediaRoot names))
      (Files.openDownload (Path.below g.mediaRoot names)) := by
  have hfind : Job.Twin (AlikeSince g place place' v v')
      (Agree fun e e' => SameNode v.disk v'.disk e.2 e'.2)
      (Files.look (ι := StagingCounter) (·.find (Path.below g.mediaRoot names)))
      (Files.look (·.find (Path.below g.mediaRoot names))) := by
    refine twin_look fun w w' hw => (hw.tree.find hnames).imp fun e e' he => ?_
    exact he.2.2.before hw.removed hw.removed'
  refine hfind.bind ?_
  intro a b hab
  cases hab with
  | error e => exact .done (.error _)
  | @ok e e' hnode =>
      obtain ⟨q, node⟩ := e
      obtain ⟨q', node'⟩ := e'
      dsimp only at hnode
      cases hnode with
      | directory => exact .done (.error _)
      | @file n n' hbody =>
          have hsize : Job.Twin (AlikeSince g place place' v v') (· = ·)
              (Files.look (ι := StagingCounter) fun d => (d.body n).data.length)
              (Files.look fun d => (d.body n').data.length) := by
            refine twin_look fun w w' hw => ?_
            rw [hw.removed.body, hw.removed'.body, hbody]
          refine hsize.bind ?_
          rintro size _ rfl
          exact .done (.ok (.mk _ _ _ (.some ⟨rfl, hbody⟩)))

/-- **A file below the root is downloaded alike.** -/
theorem twin_download :
    TwinWork g place place' v v' (download (Path.below g.mediaRoot names))
      (download (Path.below g.mediaRoot names)) := by
  refine (twin_openDownload hnames).bind ?_
  intro a b hab
  cases hab with
  | error e => exact twin_ending _
  | ok hf => exact twin_continueDownload hf

end Jobs

/-! ## All calls of the media store -/

theorem twin_withRequest {α : Type} [Payload α] (request : Bytes) {next : α → Work HandlerState}
    (h : ∀ r, TwinWork g place place' v v' (next r) (next r)) :
    TwinWork g place place' v v' (withRequest request next) (withRequest request next) := by
  unfold withRequest
  split
  · exact twin_ending _
  · exact h _

theorem twin_underRoot (path : String) {next : String → Work HandlerState}
    (h : ∀ names : List String, (∀ n ∈ names, Path.Proper n) →
      TwinWork g place place' v v' (next (Path.below g.mediaRoot names))
        (next (Path.below g.mediaRoot names))) :
    TwinWork g place place' v v' (g.underRoot path next) (g.underRoot path next) := by
  unfold underRoot
  split
  · exact twin_ending _
  · next resolved hr =>
    obtain ⟨names, hnames, rfl⟩ := Path.resolveUnder_eq_ok hr
    exact h names hnames

/-- **Whatever is asked of the media store**, it is worked out alike. -/
theorem twin_mediaMethod (method : String) (request : Bytes) :
    TwinWork g place place' v v' (g.mediaMethod method request) (g.mediaMethod method request) := by
  unfold mediaMethod
  split
  · exact twin_withRequest request fun r => twin_underRoot r.path fun names hnames =>
      twin_reply (twin_listDirectory hnames r.includeHidden)
  · exact twin_withRequest request fun r => twin_underRoot r.path fun names hnames =>
      twin_download hnames
  · exact twin_withRequest request fun r => twin_underRoot r.path fun names hnames =>
      twin_reply (twin_deleteMedia hnames r.path)
  · exact twin_ending _

theorem respects_handler (g : Gateway) (place place' : Place) (v v' : GatewayWorld) :
    g.handler.Respects (AlikeSince g place place' v v') (SameState v.disk v'.disk) where
  await s s' hs := by
    cases hs with
    | replying reply => exact .send reply fun r => twin_ending r
    | downloading message hf =>
        refine .send message fun r => ?_
        cases r with
        | error e => exact twin_ending _
        | ok _ => exact twin_continueDownload hf
    | ending result => exact .finish result
  release s s' hs := by
    cases hs <;> exact fun w w' hw => hw

/-- A call of the media store. -/
def IsMediaCall (r : CallRequest) : Prop := r.service = ServiceGroup.mediaStore.name

theorem respects_server (g : Gateway) (place place' : Place) (v v' : GatewayWorld) :
    g.server.Respects (AlikeSince g place place' v v') (SameState v.disk v'.disk) IsMediaCall where
  handler := respects_handler g place place' v v'
  accept r job hr hjob := by
    have hgroup : ServiceGroup.ofName? r.service = some .mediaStore := by
      rw [hr]
      decide
    change g.accept r = .ok job at hjob
    unfold accept at hjob
    rw [hgroup] at hjob
    split at hjob
    · cases hjob
    · cases hjob
    · next hsome =>
      cases hsome
      split at hjob
      · cases hjob
        exact twin_mediaMethod r.method r.request
      · cases hjob

open Connection

/-- **Calls of the media store were served alike in two worlds**: the callers were sent the same and
told the same, and the worlds are as they were, but for files below the media roots that were removed
from both. -/
structure ServedAlike (g : Gateway) (place place' : Place) (v v' : GatewayWorld)
    (c c' : Connection GatewayWorld HandlerState) : Prop
    extends AlikeSince g place place' v v' c.shared.world c'.shared.world where
  written : c'.written = c.written
  waiting : c'.shared.outbox = c.shared.outbox
  result : c'.result? = c.result?

/-- A gateway whose media root is named from the working directory. -/
def relativeGateway : Gateway := ⟨"media", ⟨"/staging", "/install", "1"⟩, fun _ _ _ => none, ⟨0⟩⟩

/-- A photo and nothing else. -/
def photoAlone : GatewayWorld where
  disk :=
    { nodes := [(["work"], .directory 0), (["work", "media"], .directory 0),
        (["work", "media", "a"], .file 0)]
      bodies := [⟨[65], 0⟩]
      here := ["work"]
      clock := 0 }
  installs := .new

/-- The same photo, at another place and beside a file that is nobody's business. -/
def photoAndSecret : GatewayWorld where
  disk :=
    { nodes := [(["srv"], .directory 5), (["srv", "secret"], .file 0), (["srv", "media"], .directory 9),
        (["srv", "media", "a"], .file 1)]
      bodies := [⟨[1], 0⟩, ⟨[65], 0⟩]
      here := ["srv"]
      clock := 7 }
  installs := .new

theorem sameTree_photo :
    SameTree relativeGateway.mediaRoot ["work", "media"] ["srv", "media"] photoAlone.disk
      photoAndSecret.disk where
  found := ⟨0, by decide +kernel⟩
  found' := ⟨9, by decide +kernel⟩
  distinct := by decide
  distinct' := by decide
  below names hne := by
    simp only [standing?, node?, photoAlone, photoAndSecret, List.lookup_cons, List.lookup_nil]
    by_cases ha : names = ["a"]
    · subst ha
      decide
    · simp [List.isEmpty_eq_false_iff.2 hne, beq_eq_false_iff_ne.2 ha]

/-- Deletes the photo. -/
def deletePhoto : CallRequest := ⟨"media-store", "delete", Payload.toBytes (⟨"a"⟩ : PathRequest)⟩

def deletePhotoFrame : Frame := ⟨.call, 1, Payload.toBytes deletePhoto, by decide⟩

/-- The call has been accepted. -/
def deletingPhoto (v : GatewayWorld) : Connection GatewayWorld HandlerState :=
  { (start v : Connection GatewayWorld HandlerState) with
    pool := ⟨[.start 1 true (.starting (relativeGateway.mediaMethod "delete" deletePhoto.request))],
      false, []⟩ }

theorem ofBytes_deletePhoto :
    (Payload.ofBytes deletePhotoFrame.payload : Except GatewayError CallRequest) = .ok deletePhoto :=
  CallRequest.ofBytes_toBytes (by decide)

theorem reads_deletePhoto (v : GatewayWorld) :
    (arrived v (deletePhotoFrame.toBytes .standard)).Reads relativeGateway.server
        deletePhotoFrame [] ∧
      (arrived v (deletePhotoFrame.toBytes .standard)).step? relativeGateway.server .read =
        some (deletingPhoto v) := by
  have hread : (arrived v (deletePhotoFrame.toBytes .standard)).Reads relativeGateway.server
      deletePhotoFrame [] := reads_last rfl rfl
  have haccept : relativeGateway.accept deletePhoto =
      .ok (relativeGateway.mediaMethod "delete" deletePhoto.request) :=
    relativeGateway.accept_of_method .mediaStore rfl (by decide)
  exact ⟨hread, step?_arrived (s := relativeGateway.server) rfl ofBytes_deletePhoto haccept⟩

end Gateway

end DeviceGateway
