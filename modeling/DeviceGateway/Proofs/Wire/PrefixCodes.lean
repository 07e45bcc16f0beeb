import DeviceGateway.Proofs.Wire.Layouts

/-!
# Prefix codes

Payloads are followed by whatever comes after them, so a payload must say itself where it ends. A
layout is exact (`Layout.Exact`) if it reads nothing but what it writes, and reads that back. Exact
layouts are put together from exact ones, and all payloads have one. So a byte string reads as a
value if and only if it begins with the octets of that value (`payloads_are_prefix_codes`).
-/

namespace DeviceGateway.Wire.Layout

open Text

variable {α β : Type} {l : Layout α} {m : Layout β}

/-- **A layout that reads just what it writes.** Lengths are words, so only values of fewer octets
than a word counts are read back. -/
structure Exact (l : Layout α) : Prop where
  eq_of_read : ∀ {bs v rest}, l.read bs = .ok (v, rest) → bs = l.write v ++ rest
  readsBack : ∀ {v}, (l.write v).length < Bytes.bound 8 → l.ReadsBack v

theorem readThen_eq_ok {next : α → Bytes → Except Fault (β × Bytes)} {bs : Bytes}
    {r : β × Bytes} (h : l.readThen next bs = .ok r) :
    ∃ v middle, l.read bs = .ok (v, middle) ∧ next v middle = .ok r := by
  unfold readThen at h
  split at h
  · cases h
  · next v middle hv => exact ⟨v, middle, hv, h⟩

/-- A number is read from its digits, and fits them. -/
theorem eq_of_read_number {k n : Nat} {bs rest : Bytes} (h : (number k).read bs = .ok (n, rest)) :
    bs = Bytes.ofNatLE k n ++ rest ∧ n < Bytes.bound k := by
  simp only [number] at h
  split at h
  · next digits rest' hs =>
    cases h
    obtain ⟨rfl, rfl⟩ := Bytes.append_of_split? hs
    exact ⟨by rw [Bytes.ofNatLE_toNatLE], Bytes.toNatLE_lt digits⟩
  · cases h

/-! ## One after the other -/

namespace Exact

theorem map (hl : l.Exact) {forth : α → β} {back : β → α} (hback : ∀ a, back (forth a) = a)
    (hforth : ∀ b, forth (back b) = b) : (l.map forth back).Exact where
  eq_of_read {bs v rest} h := by
    obtain ⟨a, middle, ha, hnext⟩ := readThen_eq_ok h
    cases hnext
    show bs = l.write (back (forth a)) ++ rest
    rw [hback]
    exact hl.eq_of_read ha
  readsBack {v} hv := .map (hforth v) (hl.readsBack hv)

theorem pair (hl : l.Exact) (hm : m.Exact) : (l.pair m).Exact where
  eq_of_read {bs v rest} h := by
    obtain ⟨a, middle, ha, hnext⟩ := readThen_eq_ok h
    obtain ⟨b, last, hb, hlast⟩ := readThen_eq_ok hnext
    cases hlast
    show bs = l.write a ++ m.write b ++ rest
    rw [hl.eq_of_read ha, hm.eq_of_read hb, List.append_assoc]
  readsBack {v} hv := by
    obtain ⟨a, b⟩ := v
    have hlen : (l.write a ++ m.write b).length < Bytes.bound 8 := hv
    rw [List.length_append] at hlen
    exact .pair (hl.readsBack (by omega)) (hm.readsBack (by omega))

/-! ## The parts -/

theorem word64 : Layout.word64.Exact where
  eq_of_read {bs v rest} h := by
    obtain ⟨n, middle, hn, hnext⟩ := readThen_eq_ok h
    cases hnext
    obtain ⟨hbs, hfits⟩ := eq_of_read_number hn
    show bs = Bytes.ofNatLE 8 (UInt64.ofNat n).toNat ++ rest
    rw [UInt64.toNat_ofNat_of_lt' hfits]
    exact hbs
  readsBack {v} _ := .word64 v

theorem flag : Layout.flag.Exact where
  eq_of_read {bs v rest} h := by
    unfold Layout.flag at h ⊢
    cases bs with
    | nil => cases h
    | cons b bs =>
        dsimp only at h
        split at h
        · next hb =>
          cases h
          rw [hb]
          rfl
        · split at h
          · next hb =>
            cases h
            rw [hb]
            rfl
          · cases h
  readsBack {v} _ := by
    intro rest
    cases v <;> rfl

theorem octets : Layout.octets.Exact where
  eq_of_read {bs v rest} h := by
    obtain ⟨n, middle, hn, hnext⟩ := readThen_eq_ok h
    obtain ⟨rfl, -⟩ := eq_of_read_number hn
    split at hnext
    · next split hs =>
      cases hnext
      obtain ⟨rfl, rfl⟩ := Bytes.append_of_split? hs
      rw [← List.append_assoc]
      rfl
    · cases hnext
  readsBack {data} hv := by
    have hlen : (Bytes.ofNatLE 8 data.length ++ data).length < Bytes.bound 8 := hv
    rw [List.length_append] at hlen
    exact .octets (by omega)

theorem text : Layout.text.Exact where
  eq_of_read {bs s rest} h := by
    obtain ⟨n, middle, hn, hnext⟩ := readThen_eq_ok h
    obtain ⟨rfl, -⟩ := eq_of_read_number hn
    split at hnext
    · cases hnext
    · next data rest' hs =>
      obtain ⟨rfl, rfl⟩ := Bytes.append_of_split? hs
      split at hnext
      · next s' hd =>
        cases hnext
        rw [Utf8.eq_encode_of_decode hd, ← List.append_assoc]
        rfl
      · cases hnext
  readsBack {s} hv := by
    have hlen : (Bytes.ofNatLE 8 (Utf8.encode s).length ++ Utf8.encode s).length <
      Bytes.bound 8 := hv
    rw [List.length_append] at hlen
    exact .text (by omega)

theorem optional (hl : l.Exact) : (Layout.optional l).Exact where
  eq_of_read {bs v rest} h := by
    unfold Layout.optional at h ⊢
    cases bs with
    | nil => cases h
    | cons b bs =>
        dsimp only at h
        split at h
        · next hb =>
          cases h
          rw [hb]
          rfl
        · split at h
          · next hb =>
            obtain ⟨a, middle, ha, hnext⟩ := readThen_eq_ok h
            cases hnext
            rw [hb, hl.eq_of_read ha]
            rfl
          · cases h
  readsBack {v} hv := by
    refine .optional ?_
    rintro a rfl
    have hlen : (1 :: l.write a).length < Bytes.bound 8 := hv
    rw [List.length_cons] at hlen
    exact hl.readsBack (by omega)

/-! ## Lists -/

theorem eq_of_readMany (hl : l.Exact) {n : Nat} {seen vs : List α} {bs rest : Bytes}
    (h : readMany l n seen bs = .ok (vs, rest)) :
    ∃ new : List α, vs = seen.reverse ++ new ∧ new.length = n ∧
      bs = new.flatMap l.write ++ rest := by
  induction n generalizing seen bs with
  | zero =>
      cases h
      exact ⟨[], (List.append_nil _).symm, rfl, rfl⟩
  | succ n ih =>
      rw [readMany] at h
      split at h
      · cases h
      · next v middle hv =>
        obtain ⟨new, rfl, rfl, rfl⟩ := ih h
        refine ⟨v :: new, ?_, rfl, ?_⟩
        · rw [List.reverse_cons, List.append_assoc, List.singleton_append]
        · rw [hl.eq_of_read hv, List.flatMap_cons, List.append_assoc]

theorem readMany_flatMap {seen vs : List α} (hvs : ∀ v ∈ vs, l.ReadsBack v) (rest : Bytes) :
    readMany l vs.length seen (vs.flatMap l.write ++ rest) = .ok (seen.reverse ++ vs, rest) := by
  induction vs generalizing seen with
  | nil => rw [List.append_nil]; rfl
  | cons v vs ih =>
      rw [List.length_cons, readMany, List.flatMap_cons, List.append_assoc,
        hvs v List.mem_cons_self]
      dsimp only
      rw [ih fun w hw => hvs w (List.mem_cons_of_mem _ hw), List.reverse_cons, List.append_assoc,
        List.singleton_append]

/-- A list is not longer than its octets, as long as no value is without any. -/
theorem length_le_flatMap (hpos : ∀ v, 0 < (l.write v).length) (vs : List α) :
    vs.length ≤ (vs.flatMap l.write).length := by
  induction vs with
  | nil => exact Nat.le_refl 0
  | cons v vs ih =>
      rw [List.length_cons, List.flatMap_cons, List.length_append]
      have := hpos v
      omega

theorem length_write_le {v : α} {vs : List α} (hv : v ∈ vs) :
    (l.write v).length ≤ (vs.flatMap l.write).length := by
  obtain ⟨before, after, rfl⟩ := List.append_of_mem hv
  rw [List.flatMap_append, List.flatMap_cons, List.length_append, List.length_append]
  omega

theorem listOf (hl : l.Exact) (hpos : ∀ v, 0 < (l.write v).length) : (Layout.listOf l).Exact where
  eq_of_read {bs vs rest} h := by
    obtain ⟨n, middle, hn, hnext⟩ := readThen_eq_ok h
    obtain ⟨rfl, -⟩ := eq_of_read_number hn
    obtain ⟨new, rfl, rfl, rfl⟩ := hl.eq_of_readMany hnext
    rw [← List.append_assoc]
    rfl
  readsBack {vs} hv := by
    have hlen : (Bytes.ofNatLE 8 vs.length ++ vs.flatMap l.write).length < Bytes.bound 8 := hv
    rw [List.length_append] at hlen
    have hcount := length_le_flatMap hpos vs
    have hnumber := ReadsBack.number (show vs.length < Bytes.bound 8 by omega)
    intro rest
    have hall : ∀ v ∈ vs, l.ReadsBack v := fun v hv => by
      have := length_write_le (l := l) hv
      exact hl.readsBack (by omega)
    have hread : readMany l vs.length [] (vs.flatMap l.write ++ rest) = .ok (vs, rest) :=
      readMany_flatMap hall rest
    simp only [Layout.listOf, Layout.readThen, List.append_assoc, hnumber (vs.flatMap l.write ++ rest),
      hread]

end Exact

end DeviceGateway.Wire.Layout

/-! ## Payloads -/

namespace DeviceGateway

open Wire Wire.Layout

namespace Payload

variable {α : Type} [Payload α]

/-- **What a byte string reads as**, as a payload of a type: the one value whose octets it begins
with. -/
structure ReadsExactly (α : Type) [Payload α] (b : Bytes) : Prop where
  /-- It reads as a value if and only if it begins with the octets of that value. -/
  accepts : ∀ v : α, (ofBytes b : Except GatewayError α) = .ok v ↔ toBytes v <+: b
  /-- If it begins with the octets of none, it is refused as wrongly encoded. -/
  refuses : (∀ v : α, ¬ toBytes v <+: b) →
    ∃ fault : Fault, (ofBytes b : Except GatewayError α) = .error (.encoding fault.message)
  /-- Octets behind those of a value do not matter. -/
  undoes : ∀ (v : α) (rest : Bytes), b = toBytes v ++ rest →
    (ofBytes b : Except GatewayError α) = .ok v
  /-- If it is cut out of the octets of a value, without the last of them, it is refused. -/
  whole : ∀ (v : α) (p : Bytes), b = toBytes v → p <+: b → p ≠ b →
    ∃ fault : Fault, (ofBytes p : Except GatewayError α) = .error (.encoding fault.message)
  /-- No two values have the same octets. -/
  unique : ∀ v w : α, b = toBytes v → b = toBytes w → v = w

theorem ofBytes_of_read {b rest : Bytes} {v : α}
    (h : (layout (α := α)).read b = .ok (v, rest)) : (ofBytes b : Except GatewayError α) = .ok v := by
  simp only [ofBytes, read, h]

/-- Reading gives a value or a fault of the encoding. -/
theorem ofBytes_cases (b : Bytes) :
    (∃ v rest, (layout (α := α)).read b = .ok (v, rest) ∧
      (ofBytes b : Except GatewayError α) = .ok v) ∨
    ∃ fault : Fault, (ofBytes b : Except GatewayError α) = .error (.encoding fault.message) := by
  cases h : (layout (α := α)).read b with
  | ok r => exact .inl ⟨r.1, r.2, rfl, ofBytes_of_read h⟩
  | error fault => exact .inr ⟨fault, by simp only [ofBytes, read, h]⟩

variable (hl : (layout (α := α)).Exact)
include hl

/-- What is read stands at the front. -/
theorem stands_of_ofBytes {b : Bytes} {v : α} (h : (ofBytes b : Except GatewayError α) = .ok v) :
    toBytes v <+: b := by
  rcases ofBytes_cases (α := α) b with ⟨w, rest, hr, hw⟩ | ⟨fault, hf⟩
  · cases hw.symm.trans h
    exact ⟨rest, (hl.eq_of_read hr).symm⟩
  · cases hf.symm.trans h

/-- What stands at the front is read. -/
theorem ofBytes_of_stands {b : Bytes} (hb : b.length < Bytes.bound 8) {v : α}
    (h : toBytes v <+: b) : (ofBytes b : Except GatewayError α) = .ok v := by
  obtain ⟨rest, rfl⟩ := h
  rw [List.length_append] at hb
  exact ofBytes_of_read (hl.readsBack (Nat.lt_of_le_of_lt (Nat.le_add_right _ _) hb) rest)

/-- **An exact layout reads exactly.** -/
theorem readsExactly {b : Bytes} (hb : b.length < Bytes.bound 8) : ReadsExactly α b where
  accepts v := ⟨stands_of_ofBytes hl, ofBytes_of_stands hl hb⟩
  refuses h := by
    rcases ofBytes_cases (α := α) b with ⟨v, -, -, hv⟩ | hf
    · exact absurd (stands_of_ofBytes hl hv) (h v)
    · exact hf
  undoes v rest h := ofBytes_of_stands hl hb ⟨rest, h.symm⟩
  whole v p h hp hne := by
    rcases ofBytes_cases (α := α) p with ⟨w, -, -, hw⟩ | hf
    · -- What `p` reads as, `b` reads as: so `p` begins with all of `b`.
      have hfront := stands_of_ofBytes hl hw
      have hb' := ofBytes_of_stands hl hb (hfront.trans hp)
      cases hb'.symm.trans (ofBytes_of_stands hl hb ⟨[], by rw [List.append_nil, h]⟩)
      exact absurd (hp.eq_of_length_le (h ▸ hfront.length_le)) hne
    · exact hf
  unique v w hv hw := by
    have hv' := ofBytes_of_stands hl hb (v := v) ⟨[], by rw [List.append_nil, hv]⟩
    cases hv'.symm.trans (ofBytes_of_stands hl hb (v := w) ⟨[], by rw [List.append_nil, hw]⟩)
    rfl

end Payload

/-! ## Every payload -/

theorem CallRequest.exact : (Payload.layout (α := CallRequest)).Exact :=
  .map (.pair .text (.pair .text .octets)) (fun _ => rfl) fun _ => rfl

theorem TextRequest.exact : (Payload.layout (α := TextRequest)).Exact :=
  .map (.pair .text .text) (fun _ => rfl) fun _ => rfl

theorem DirEntry.exact : DirEntry.layout.Exact :=
  .map (.pair .text (.pair .text (.pair .word64 (.pair .flag .word64)))) (fun _ => rfl) fun _ => rfl

/-- No entry of a directory is without octets. -/
theorem DirEntry.length_write_pos (e : DirEntry) : 0 < (DirEntry.layout.write e).length := by
  show 0 < (Bytes.ofNatLE 8 (Text.Utf8.encode e.name).length ++ Text.Utf8.encode e.name ++ _).length
  rw [List.length_append, List.length_append, Bytes.length_ofNatLE]
  omega

theorem StatusCode.exact : StatusCode.layout.Exact where
  eq_of_read {bs code rest} h := by
    obtain ⟨n, middle, hn, hnext⟩ := readThen_eq_ok h
    obtain ⟨rfl, -⟩ := eq_of_read_number hn
    split at hnext
    · next h0 =>
      cases hnext
      rw [h0]
      rfl
    · split at hnext
      · next h1 =>
        cases hnext
        rw [h1]
        rfl
      · cases hnext
  readsBack _ := StatusCode.readsBack _

open Payload in
/-- **Every payload is its own end.** Of octets that fit a memory, those that read as a value are
those that begin with the octets of that value, for each type of payload. -/
theorem payloads_are_prefix_codes {b : Bytes} (hb : b.length < UInt64.size) :
    ReadsExactly CallRequest b ∧ ReadsExactly UploadChunk b ∧ ReadsExactly PathRequest b ∧
    ReadsExactly ListDirRequest b ∧ ReadsExactly PathPair b ∧ ReadsExactly TextRequest b ∧
    ReadsExactly TextReply b ∧ ReadsExactly DirListing b ∧ ReadsExactly OperationStatus b ∧
    ReadsExactly UploadReceipt b ∧ ReadsExactly JsonPayload b ∧ ReadsExactly Status b := by
  have hsize : b.length < Bytes.bound 8 := hb
  have one : Layout.text.Exact := .text
  refine ⟨?_, ?_, ?_, ?_, ?_, ?_, ?_, ?_, ?_, ?_, ?_, ?_⟩
  · exact readsExactly CallRequest.exact hsize
  · exact readsExactly (.map (one.optional.pair .octets) (fun _ => rfl) fun _ => rfl) hsize
  · exact readsExactly (.map one (fun _ => rfl) fun _ => rfl) hsize
  · exact readsExactly (.map (one.pair .flag) (fun _ => rfl) fun _ => rfl) hsize
  · exact readsExactly (.map (one.pair one) (fun _ => rfl) fun _ => rfl) hsize
  · exact readsExactly TextRequest.exact hsize
  · exact readsExactly (.map one (fun _ => rfl) fun _ => rfl) hsize
  · exact readsExactly (.map (.listOf DirEntry.exact DirEntry.length_write_pos) (fun _ => rfl)
      fun _ => rfl) hsize
  · exact readsExactly (.map (.pair .flag one) (fun _ => rfl) fun _ => rfl) hsize
  · exact readsExactly (.map (one.optional.pair .word64) (fun _ => rfl) fun _ => rfl) hsize
  · exact readsExactly (.map one (fun _ => rfl) fun _ => rfl) hsize
  · exact readsExactly (.map (StatusCode.exact.pair one) (fun _ => rfl) fun _ => rfl) hsize

open Payload in
/-- A chunk of an upload with an octet behind it reads as the chunk, and with its last octet cut off
it does not read. -/
theorem chunk_is_its_own_end :
    let chunk : UploadChunk := ⟨some "ü", [7, 8]⟩
    (toBytes chunk ++ [9]).length < UInt64.size ∧
    ofBytes (toBytes chunk ++ [9]) = (.ok chunk : Except GatewayError UploadChunk) ∧
    ∃ fault : Fault,
      (ofBytes (toBytes chunk).dropLast : Except GatewayError UploadChunk) =
        .error (.encoding fault.message) := by
  intro chunk
  have hlong : (toBytes chunk ++ [9]).length < UInt64.size := by decide +kernel
  have hshort : (toBytes chunk).length < UInt64.size := by decide +kernel
  obtain ⟨-, longer, -⟩ := payloads_are_prefix_codes hlong
  obtain ⟨-, same, -⟩ := payloads_are_prefix_codes hshort
  refine ⟨hlong, longer.undoes chunk [9] rfl, ?_⟩
  exact same.whole chunk _ rfl ( List.dropLast_prefix _) (by decide +kernel)

end DeviceGateway
