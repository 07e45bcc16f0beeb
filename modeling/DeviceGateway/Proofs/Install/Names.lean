import DeviceGateway.Install.Staging
import DeviceGateway.Proofs.FileSystem.Lexical

/-!
# Names of packages

Whatever a sender calls its package, it is installed under a name that can stand in a directory
(`proper_packageName`), and so is its staged file. The number of the transaction can be told from the
name of the staged file (`stagedName_inj`), since it is what stands between the last two dots but one
and no digit is a dot; so transactions with different numbers never share a staged file.
-/

open DeviceGateway.Path (Proper)

namespace DeviceGateway

/-! ## Digits -/

theorem isDigit_of_mem_toString {n : Nat} {c : Char} (h : c ∈ (toString n).toList) :
    c.isDigit = true := by
  rw [Nat.toString_eq_repr, Nat.repr_eq_ofList_toDigits, String.toList_ofList] at h
  exact Nat.isDigit_of_mem_toDigits (by decide) (by decide) h

theorem not_mem_toString (n : Nat) {c : Char} (hc : c.isDigit = false) :
    c ∉ (toString n).toList := by
  intro h
  rw [isDigit_of_mem_toString h] at hc
  cases hc

theorem digitChar_inj {m n : Nat} (hm : m < 10) (hn : n < 10) (h : m.digitChar = n.digitChar) :
    m = n := by
  have hvalue : m.digitChar.toNat - 48 = n.digitChar.toNat - 48 := by rw [h]
  rwa [Nat.toNat_digitChar_sub_48_of_lt_ten hm, Nat.toNat_digitChar_sub_48_of_lt_ten hn] at hvalue

/-- A number can be told from its digits. -/
theorem toDigits_inj {m n : Nat} (h : Nat.toDigits 10 m = Nat.toDigits 10 n) : m = n := by
  induction m using Nat.strongRecOn generalizing n with
  | ind m ih =>
  rw [Nat.toDigits_eq_if (by decide), Nat.toDigits_eq_if (n := n) (by decide)] at h
  by_cases hm : m < 10
  · by_cases hn : n < 10
    · rw [if_pos hm, if_pos hn] at h
      exact digitChar_inj hm hn (List.cons.inj h).1
    · rw [if_pos hm, if_neg hn, ← List.nil_append [m.digitChar]] at h
      exact absurd (List.append_inj' h rfl).1.symm Nat.toDigits_ne_nil
  · by_cases hn : n < 10
    · rw [if_neg hm, if_pos hn, ← List.nil_append [n.digitChar]] at h
      exact absurd (List.append_inj' h rfl).1 Nat.toDigits_ne_nil
    · rw [if_neg hm, if_neg hn] at h
      obtain ⟨hfront, hlast⟩ := List.append_inj' h rfl
      have hquotient := ih (m / 10) (by omega) hfront
      have hrest := digitChar_inj (Nat.mod_lt _ (by decide)) (Nat.mod_lt _ (by decide))
        (List.cons.inj hlast).1
      omega

/-- What stands behind the last of some marks can be told from the whole. -/
theorem eq_of_append_cons {α : Type} {c : α} {front front' back back' : List α} (hb : c ∉ back)
    (hb' : c ∉ back') (h : front ++ c :: back = front' ++ c :: back') : back = back' := by
  rcases List.append_eq_append_iff.1 h with ⟨between, -, h⟩ | ⟨between, -, h⟩
  · cases between with
    | nil => exact (List.cons.inj h).2
    | cons x between =>
        obtain ⟨-, rfl⟩ := List.cons.inj h
        exact absurd (List.mem_append_right _ List.mem_cons_self) hb
  · cases between with
    | nil => exact (List.cons.inj h).2.symm
    | cons x between =>
        obtain ⟨-, rfl⟩ := List.cons.inj h
        exact absurd (List.mem_append_right _ List.mem_cons_self) hb'

/-! ## Packages -/

/-- **A package is installed under a name that can stand in a directory.** -/
theorem proper_packageName (label : Option String) (number : UInt64) :
    Proper (packageName label number) := by
  unfold packageName
  cases h : label.bind Path.fileName? with
  | some name =>
      obtain ⟨path, -, hpath⟩ := Option.bind_eq_some_iff.1 h
      exact Path.proper_of_fileName? hpath
  | none =>
      have htext : ((none : Option String).getD s!"package-{number.toNat}.apk").toList =
          'p' :: ("ackage-".toList ++ (toString number.toNat).toList ++ ".apk".toList) := by
        show ("package-" ++ toString number.toNat ++ ".apk").toList = _
        rw [String.toList_append, String.toList_append]
        rfl
      generalize (none : Option String).getD s!"package-{number.toNat}.apk" = name at htext ⊢
      refine ⟨?_, ?_, ?_⟩
      · rw [Path.isName, Bool.and_eq_true, bne_iff_ne, bne_iff_ne]
        constructor
        · rintro rfl
          cases htext
        · rintro rfl
          cases htext
      · rintro rfl
        cases htext
      · rw [htext]
        simp only [List.mem_cons, List.mem_append, not_or]
        exact ⟨by decide, ⟨by decide, not_mem_toString _ (by decide)⟩, by decide⟩

namespace StagingDirectories

variable {d : StagingDirectories} {name name' : String} {number number' : UInt64}

/-- The name of the staged file of a package. -/
def stagedName (d : StagingDirectories) (name : String) (number : UInt64) : String :=
  s!"{name}.{d.process}.{number.toNat}.part"

theorem toList_stagedName (d : StagingDirectories) (name : String) (number : UInt64) :
    (d.stagedName name number).toList =
      (name.toList ++ '.' :: d.process.toList) ++ '.' :: (toString number.toNat).toList ++
        ".part".toList := by
  show (name ++ "." ++ d.process ++ "." ++ toString number.toNat ++ ".part").toList = _
  simp only [String.toList_append, List.append_assoc]
  rfl

/-- A staged file stands in the staging directory. -/
theorem proper_stagedName (hprocess : '/' ∉ d.process.toList) (hname : Proper name) :
    Proper (d.stagedName name number) := by
  have htext := d.toList_stagedName name number
  have hlast : (d.stagedName name number).toList.getLast? = some 't' := by
    rw [htext, List.getLast?_append]
    rfl
  refine ⟨?_, ?_, ?_⟩
  · rw [Path.isName, Bool.and_eq_true, bne_iff_ne, bne_iff_ne]
    constructor
    · intro h
      rw [h] at hlast
      cases hlast
    · intro h
      rw [h] at hlast
      cases hlast
  · intro h
    rw [h] at hlast
    cases hlast
  · rw [htext]
    simp only [List.mem_append, List.mem_cons, not_or]
    exact ⟨⟨⟨hname.no_slash, by decide, hprocess⟩, by decide, not_mem_toString _ (by decide)⟩,
      by decide⟩

/-- **The number of a transaction can be told from its staged file.** -/
theorem stagedName_inj (h : d.stagedName name number = d.stagedName name' number') :
    number = number' := by
  have htext := congrArg String.toList h
  rw [toList_stagedName, toList_stagedName] at htext
  have hdigits : (toString number.toNat).toList = (toString number'.toNat).toList :=
    eq_of_append_cons (not_mem_toString _ (by decide)) (not_mem_toString _ (by decide))
      (List.append_cancel_right htext)
  rw [Nat.toString_eq_repr, Nat.toString_eq_repr, Nat.repr_eq_ofList_toDigits,
    Nat.repr_eq_ofList_toDigits, String.toList_ofList, String.toList_ofList] at hdigits
  exact UInt64.toNat_inj.1 (toDigits_inj hdigits)

/-- **Transactions with different numbers have different staged files**, whatever the packages are
called. -/
theorem stagedPath_inj (hprocess : '/' ∉ d.process.toList) (hname : Proper name)
    (hname' : Proper name') (h : d.stagedPath name number = d.stagedPath name' number') :
    number = number' :=
  stagedName_inj (Path.join_inj (proper_stagedName hprocess hname).no_slash
    (proper_stagedName hprocess hname').no_slash h)

end StagingDirectories

end DeviceGateway
