import Vernacular.Text.Lowercase

/-!
# Marks in small letters

Below 0x80, what is neither a letter nor the null character stays as it is when a text is written
in small letters, and no letter turns into it.
-/

namespace Vernacular.Text

/-- An ASCII character that is no letter, other than the null character. -/
def IsMark (c : Char) : Prop :=
  0 < c.toNat ∧ c.toNat < 0x41 ∨ 0x5a < c.toNat ∧ c.toNat < 0x61 ∨ 0x7a < c.toNat ∧ c.toNat < 0x80

instance : DecidablePred IsMark := fun _ => inferInstanceAs (Decidable (_ ∨ _ ∨ _))

/-- Letters and their small forms are ASCII letters or lie behind ASCII. -/
theorem caseShifts_bounds : ∀ shift ∈ caseShifts,
    (0x41 ≤ shift.first ∧ shift.last ≤ 0x5a ∨ 0x80 ≤ shift.first) ∧
      (0x61 ≤ shift.first + shift.offset ∧ shift.last + shift.offset ≤ 0x7a ∨
        0x80 ≤ shift.first + shift.offset) := by
  decide +kernel

/-- A number that is no code point stands for the null character. -/
theorem toNat_ofNat_eq_or (n : Nat) : (Char.ofNat n).toNat = n ∨ (Char.ofNat n).toNat = 0 := by
  by_cases hvalid : n.isValidChar
  · rw [Char.ofNat, dif_pos hvalid]
    exact .inl rfl
  · rw [Char.ofNat, dif_neg hvalid]
    exact .inr rfl

theorem not_isMark_of_apply? {shift : CaseShift} (hshift : shift ∈ caseShifts) {c small : Char}
    (h : shift.apply? c = some small) : ¬IsMark c ∧ ¬IsMark small := by
  obtain ⟨hfrom, hto⟩ := caseShifts_bounds shift hshift
  unfold CaseShift.apply? at h
  split at h
  · next hrange =>
    cases h
    have hsmall := toNat_ofNat_eq_or (c.toNat + shift.offset).toNat
    unfold IsMark
    omega
  · cases h

variable {mark : Char}

theorem ne_of_isMark (hmark : IsMark mark) {c : Char} (hc : ¬IsMark c) : mark ≠ c := by
  rintro rfl
  exact hc hmark

theorem mem_smallForm_iff (hmark : IsMark mark) (before : List Char) (c : Char)
    (after : List Char) : mark ∈ smallForm before c after ↔ c = mark := by
  unfold smallForm
  split
  · next hsigma =>
    have hfinal : mark ≠ 'ς' := ne_of_isMark hmark (by decide)
    have hmedial : mark ≠ 'σ' := ne_of_isMark hmark (by decide)
    have hcapital : mark ≠ 'Σ' := ne_of_isMark hmark (by decide)
    unfold smallSigma
    split <;> simp [*, eq_comm]
  · split
    · next hdotted =>
      have hletter : mark ≠ 'i' := ne_of_isMark hmark (by decide)
      have hdot : mark ≠ '\u0307' := ne_of_isMark hmark (by decide)
      have hcapital : mark ≠ 'İ' := ne_of_isMark hmark (by decide)
      simp [*, eq_comm]
    · cases hsmall : caseShifts.findSome? (fun shift => shift.apply? c) with
      | none => rw [Option.getD_none, List.mem_singleton, eq_comm]
      | some small =>
        obtain ⟨shift, hshift, happly⟩ := List.exists_of_findSome?_eq_some hsmall
        obtain ⟨hc, hother⟩ := not_isMark_of_apply? hshift happly
        simp [ne_of_isMark hmark hother, (ne_of_isMark hmark hc).symm]

theorem mem_lowerFrom_iff (hmark : IsMark mark) (before text : List Char) :
    mark ∈ lowerFrom before text ↔ mark ∈ text := by
  induction text generalizing before with
  | nil => rfl
  | cons c after ih =>
    rw [lowerFrom, List.mem_append, mem_smallForm_iff hmark, ih, List.mem_cons, eq_comm]

theorem mem_lower_iff (hmark : IsMark mark) (text : String) :
    mark ∈ (lower text).toList ↔ mark ∈ text.toList := by
  rw [lower, String.toList_ofList, mem_lowerFrom_iff hmark]

end Vernacular.Text
