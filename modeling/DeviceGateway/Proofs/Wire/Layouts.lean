import DeviceGateway.Proofs.Text.Utf8
import DeviceGateway.Wire.Payload

/-!
# Reading layouts

What a layout lays out it reads back, whatever comes after it (`ReadsBack`). A layout leaves no more
than there was, and what it finds wrong lies within what there was (`ReadsOn`), so that it is said
in few words (`length_message_le`). Both go by the way in which layouts are put together.
-/

namespace DeviceGateway.Wire.Layout

open Text

variable {α β : Type} {l : Layout α} {m : Layout β}

/-! ## Reading back -/

/-- **A value is read back**, whatever comes after it. -/
def ReadsBack (l : Layout α) (v : α) : Prop := ∀ rest, l.read (l.write v ++ rest) = .ok (v, rest)

namespace ReadsBack

theorem number {k n : Nat} (hn : n < Bytes.bound k) : (Layout.number k).ReadsBack n := by
  intro rest
  have hs := Bytes.split?_append (Bytes.ofNatLE k n) rest
  rw [Bytes.length_ofNatLE] at hs
  simp only [Layout.number, hs, Bytes.toNatLE_ofNatLE hn]

theorem map {forth : α → β} {back : β → α} {b : β} (hb : forth (back b) = b)
    (hl : l.ReadsBack (back b)) : (l.map forth back).ReadsBack b := by
  intro rest
  have := hl rest
  simp only [Layout.map, Layout.readThen, this, hb]

theorem pair {a : α} {b : β} (hl : l.ReadsBack a) (hm : m.ReadsBack b) :
    (l.pair m).ReadsBack (a, b) := by
  intro rest
  have ha := hl (m.write b ++ rest)
  have hb := hm rest
  simp only [Layout.pair, Layout.readThen, List.append_assoc, ha, hb]

theorem octets {data : Bytes} (hn : data.length < Bytes.bound 8) :
    Layout.octets.ReadsBack data := by
  intro rest
  have hlen := number hn (data ++ rest)
  have hs := Bytes.split?_append data rest
  simp only [Layout.octets, Layout.readThen, List.append_assoc, hlen, hs]

theorem text {s : String} (hn : (Utf8.encode s).length < Bytes.bound 8) :
    Layout.text.ReadsBack s := by
  intro rest
  have hlen := number hn (Utf8.encode s ++ rest)
  have hs := Bytes.split?_append (Utf8.encode s) rest
  simp only [Layout.text, Layout.octets, Layout.readThen, List.append_assoc, hlen, hs,
    Utf8.decode_encode]

theorem word64 (w : UInt64) : Layout.word64.ReadsBack w := by
  refine .map (UInt64.ofNat_toNat) (.number ?_)
  exact w.toNat_lt

theorem optional {v : Option α} (hv : ∀ a, v = some a → l.ReadsBack a) :
    (Layout.optional l).ReadsBack v := by
  intro rest
  cases v with
  | none => rfl
  | some a =>
      have ha := hv a rfl rest
      simp only [Layout.optional, List.cons_append, Layout.readThen, ha]
      rfl

end ReadsBack

/-! ## Faults -/

/-- Readers find their faults within so many octets: texts are the only thing whose fault says
where it is. -/
def Within (n : Nat) : Fault → Prop
  | .notText fault => fault.Within (4 * n)
  | .cutShort | .textCutShort => True
  | .notFlag _ | .notTag _ | .notVariant .. => False

theorem Within.mono {m n : Nat} (h : m ≤ n) {fault : Fault} (hf : Within m fault) :
    Within n fault := by
  cases fault with
  | notText fault =>
      cases fault with
      | invalid length index =>
          obtain ⟨hl, hi⟩ := hf
          exact ⟨by omega, by omega⟩
      | incomplete index =>
          have hi : index ≤ 4 * m := hf
          show index ≤ 4 * n
          omega
  | cutShort => trivial
  | textCutShort => trivial
  | notFlag octet => exact hf.elim
  | notTag octet => exact hf.elim
  | notVariant number count => exact hf.elim

/-- **A layout that reads on**: it leaves no more than there was, and what it finds wrong is within
what there was. -/
structure ReadsOn (l : Layout α) : Prop where
  rest_le : ∀ {bs v rest}, l.read bs = .ok (v, rest) → rest.length ≤ bs.length
  within : ∀ {bs fault}, l.read bs = .error fault → Within bs.length fault

namespace ReadsOn

/-- A layout that goes on with what it has read. -/
theorem readThen (hl : l.ReadsOn) {k : Layout β} {next : α → Bytes → Except Fault (β × Bytes)}
    (hk : k.read = l.readThen next)
    (hnext : ∀ a, ReadsOn { write := k.write, read := next a }) : k.ReadsOn where
  rest_le {bs v rest} h := by
    rw [hk, Layout.readThen] at h
    split at h
    · cases h
    · next a middle ha => exact Nat.le_trans ((hnext a).rest_le h) (hl.rest_le ha)
  within {bs fault} h := by
    rw [hk, Layout.readThen] at h
    split at h
    · next fault' hf =>
      cases h
      exact hl.within hf
    · next a middle ha => exact ((hnext a).within h).mono (hl.rest_le ha)

theorem number (k : Nat) : (Layout.number k).ReadsOn where
  rest_le {bs v rest} h := by
    simp only [Layout.number] at h
    split at h
    · next digits rest' hs =>
      cases h
      obtain ⟨rfl, -⟩ := Bytes.append_of_split? hs
      rw [List.length_append]
      exact Nat.le_add_left _ _
    · cases h
  within {bs fault} h := by
    simp only [Layout.number] at h
    split at h
    · cases h
    · cases h
      trivial

theorem map (hl : l.ReadsOn) (forth : α → β) (back : β → α) : (l.map forth back).ReadsOn := by
  refine hl.readThen rfl fun a => ⟨?_, nofun⟩
  intro bs v rest h
  cases h
  exact Nat.le_refl _

theorem pair (hl : l.ReadsOn) (hm : m.ReadsOn) : (l.pair m).ReadsOn := by
  refine hl.readThen rfl fun a => hm.readThen rfl fun b => ⟨?_, nofun⟩
  intro bs v rest h
  cases h
  exact Nat.le_refl _

theorem octets : Layout.octets.ReadsOn := by
  refine (number 8).readThen rfl fun n => ⟨?_, ?_⟩
  · intro bs v rest h
    simp only at h
    split at h
    · next split hs =>
      cases h
      obtain ⟨rfl, -⟩ := Bytes.append_of_split? hs
      rw [List.length_append]
      exact Nat.le_add_left _ _
    · cases h
  · intro bs fault h
    simp only at h
    split at h
    · cases h
    · cases h
      trivial

theorem text : Layout.text.ReadsOn := by
  refine (number 8).readThen rfl fun n => ⟨?_, ?_⟩
  · intro bs v rest h
    simp only at h
    split at h
    · cases h
    · next data rest' hs =>
      obtain ⟨rfl, -⟩ := Bytes.append_of_split? hs
      split at h
      · cases h
        rw [List.length_append]
        exact Nat.le_add_left _ _
      · cases h
  · intro bs fault h
    simp only at h
    split at h
    · cases h
      trivial
    · next data rest' hs =>
      obtain ⟨rfl, -⟩ := Bytes.append_of_split? hs
      split at h
      · cases h
      · next fault' hf =>
        cases h
        have := Utf8.within_of_decodeFrom hf
        rw [Nat.zero_add] at this
        have hlen : data.length ≤ (data ++ rest').length := by
          rw [List.length_append]
          exact Nat.le_add_right _ _
        have hwithin : Within data.length (.notText fault') := this
        exact hwithin.mono hlen

end ReadsOn

/-- What is wrong within so many octets is said in few words. -/
theorem length_message_le {n : Nat} (hn : 4 * n < 10000000) {fault : Fault} (h : Within n fault) :
    fault.message.length ≤ 100 := by
  -- The wording is fixed except for the places that it names.
  have digits : ∀ k : Nat, k ≤ 4 * n → (toString k).length ≤ 7 := fun k hk =>
    (Nat.length_repr_le_iff (by decide)).2 (Nat.lt_of_le_of_lt hk hn)
  cases fault with
  | notText fault =>
      have hwords : fault.message.length ≤ 58 := by
        cases fault with
        | invalid length index =>
            have hl := digits length h.1
            have hi := digits index h.2
            have ha : (toString "invalid utf-8 sequence of ").length = 26 := by decide
            have hb : (toString " bytes from index ").length = 18 := by decide
            unfold Utf8.Fault.message
            dsimp only
            rw [String.length_append, String.length_append, String.length_append, ha, hb]
            omega
        | incomplete index =>
            have hi := digits index h
            have ha : (toString "incomplete utf-8 byte sequence from index ").length = 42 := by
              decide
            unfold Utf8.Fault.message
            dsimp only
            rw [String.length_append, ha]
            omega
      have hall : (Fault.notText fault).message.length = 26 + fault.message.length :=
        String.length_append _ _
      omega
  | cutShort => decide
  | textCutShort => decide
  | notFlag octet => exact h.elim
  | notTag octet => exact h.elim
  | notVariant number count => exact h.elim

end DeviceGateway.Wire.Layout

/-! ## Requests -/

namespace DeviceGateway

open Wire.Layout

theorem Payload.ofBytes_toBytes {α : Type} [Payload α] {v : α}
    (hv : (layout (α := α)).ReadsBack v) :
    (ofBytes (toBytes v) : Except GatewayError α) = .ok v := by
  have := hv []
  rw [List.append_nil] at this
  simp only [ofBytes, read, toBytes, this]

namespace CallRequest

theorem length_toBytes (r : CallRequest) :
    (Payload.toBytes r).length = 24 + (Text.Utf8.encode r.service).length +
      (Text.Utf8.encode r.method).length + r.request.length := by
  show (Bytes.ofNatLE 8 _ ++ Text.Utf8.encode r.service ++
    (Bytes.ofNatLE 8 _ ++ Text.Utf8.encode r.method ++ (Bytes.ofNatLE 8 _ ++ r.request))).length = _
  simp only [List.length_append, Bytes.length_ofNatLE]
  omega

/-- **A request that is not absurdly long is read back.** -/
theorem ofBytes_toBytes {r : CallRequest} (hr : (Payload.toBytes r).length < Bytes.bound 8) :
    (Payload.ofBytes (Payload.toBytes r) : Except GatewayError CallRequest) = .ok r := by
  rw [length_toBytes] at hr
  refine Payload.ofBytes_toBytes (.map rfl (.pair (.text ?_) (.pair (.text ?_) (.octets ?_))))
  all_goals omega

end CallRequest

/-! ## Uploads and their replies -/

/-- The octets of a path that may be left out. -/
def pathOctets (path : Option String) : Nat := path.elim 0 fun p => 8 + (Text.Utf8.encode p).length

theorem length_write_path (path : Option String) :
    ((optional text).write path).length = 1 + pathOctets path := by
  cases path with
  | none => rfl
  | some p =>
      show (1 :: (Bytes.ofNatLE 8 _ ++ Text.Utf8.encode p)).length = _
      rw [List.length_cons, List.length_append, Bytes.length_ofNatLE, Nat.add_comm]
      rfl

theorem readsBack_path {path : Option String} (hp : pathOctets path < Bytes.bound 8) :
    (optional text).ReadsBack path := by
  refine .optional ?_
  rintro p rfl
  exact .text (Nat.lt_of_le_of_lt (Nat.le_add_left _ _) hp)

namespace UploadChunk

theorem length_toBytes (c : UploadChunk) :
    (Payload.toBytes c).length = 9 + pathOctets c.path + c.data.length := by
  show ((optional text).write c.path ++ (Bytes.ofNatLE 8 _ ++ c.data)).length = _
  rw [List.length_append, List.length_append, length_write_path, Bytes.length_ofNatLE]
  omega

/-- **A chunk that is not absurdly long is read back.** -/
theorem ofBytes_toBytes {c : UploadChunk} (hc : (Payload.toBytes c).length < Bytes.bound 8) :
    (Payload.ofBytes (Payload.toBytes c) : Except GatewayError UploadChunk) = .ok c := by
  rw [length_toBytes] at hc
  refine Payload.ofBytes_toBytes (.map rfl (.pair (readsBack_path ?_) (.octets ?_)))
  all_goals omega

end UploadChunk

namespace UploadReceipt

theorem length_toBytes (r : UploadReceipt) :
    (Payload.toBytes r).length = 9 + pathOctets r.path := by
  show ((optional text).write r.path ++ Bytes.ofNatLE 8 _).length = _
  rw [List.length_append, length_write_path, Bytes.length_ofNatLE]
  omega

/-- **A receipt for a path that is not absurdly long is read back.** -/
theorem ofBytes_toBytes {r : UploadReceipt} (hr : pathOctets r.path < Bytes.bound 8) :
    (Payload.ofBytes (Payload.toBytes r) : Except GatewayError UploadReceipt) = .ok r :=
  Payload.ofBytes_toBytes (.map rfl (.pair (readsBack_path hr) (.word64 _)))

end UploadReceipt

namespace PathRequest

theorem length_toBytes (r : PathRequest) :
    (Payload.toBytes r).length = 8 + (Text.Utf8.encode r.path).length := by
  show (Bytes.ofNatLE 8 _ ++ Text.Utf8.encode r.path).length = _
  rw [List.length_append, Bytes.length_ofNatLE]

theorem ofBytes_toBytes {r : PathRequest} (hr : (Text.Utf8.encode r.path).length < Bytes.bound 8) :
    (Payload.ofBytes (Payload.toBytes r) : Except GatewayError PathRequest) = .ok r :=
  Payload.ofBytes_toBytes (.map rfl (.text hr))

end PathRequest

namespace TextRequest

theorem length_toBytes (r : TextRequest) :
    (Payload.toBytes r).length =
      16 + (Text.Utf8.encode r.path).length + (Text.Utf8.encode r.text).length := by
  show (Bytes.ofNatLE 8 _ ++ Text.Utf8.encode r.path ++
    (Bytes.ofNatLE 8 _ ++ Text.Utf8.encode r.text)).length = _
  simp only [List.length_append, Bytes.length_ofNatLE]
  omega

theorem ofBytes_toBytes {r : TextRequest} (hr : (Payload.toBytes r).length < Bytes.bound 8) :
    (Payload.ofBytes (Payload.toBytes r) : Except GatewayError TextRequest) = .ok r := by
  rw [length_toBytes] at hr
  refine Payload.ofBytes_toBytes (.map rfl (.pair (.text ?_) (.text ?_)))
  all_goals omega

end TextRequest

/-! ## Statuses -/

theorem OperationStatus.length_toBytes (s : OperationStatus) :
    (Payload.toBytes s).length = 9 + (Text.Utf8.encode s.message).length := by
  show ([if s.success then 1 else 0] ++ (Bytes.ofNatLE 8 _ ++ Text.Utf8.encode s.message)).length = _
  rw [List.length_append, List.length_append, Bytes.length_ofNatLE, ← Nat.add_assoc]
  rfl

theorem StatusCode.readsBack (code : StatusCode) : StatusCode.layout.ReadsBack code := by
  intro rest
  have hzero := ReadsBack.number (show 0 < Bytes.bound 4 by decide) rest
  have hone := ReadsBack.number (show 1 < Bytes.bound 4 by decide) rest
  cases code with
  | ok =>
      simp only [StatusCode.layout, Wire.Layout.readThen, hzero]
      rfl
  | internal =>
      simp only [StatusCode.layout, Wire.Layout.readThen, hone]
      rfl

/-- **A status with a wording that is not absurdly long is read back.** -/
theorem Status.ofBytes_toBytes {s : Status}
    (hs : (Text.Utf8.encode s.message).length < Bytes.bound 8) :
    (Payload.ofBytes (Payload.toBytes s) : Except GatewayError Status) = .ok s :=
  Payload.ofBytes_toBytes (.map rfl (.pair (StatusCode.readsBack s.code) (.text hs)))

end DeviceGateway
