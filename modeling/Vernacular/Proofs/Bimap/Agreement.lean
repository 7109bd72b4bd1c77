import Vernacular.Proofs.Bimap.History

/-!
# Maps that agree

Two maps agree when their forward entries are the same.  Then they give the same value for every
key.  Backward they need not give the same key for a value that several keys share, since that
depends on which of them was written last.
-/

namespace Vernacular.Bimap

variable {α β : Type} [DecidableEq β] {m n : Bimap α β} {value : β}

theorem hasValue_eq_true_iff : m.hasValue value = true ↔ ∃ key, m.key? value = some key :=
  Option.isSome_iff_exists

variable [DecidableEq α]

theorem agrees_iff_value?_eq : m.agrees n = true ↔ ∀ key, m.value? key = n.value? key :=
  Dictionary.sameEntries_eq_true_iff

theorem agrees_comm : m.agrees n = true ↔ n.agrees m = true := by
  rw [agrees_iff_value?_eq, agrees_iff_value?_eq]
  exact forall_congr' fun key => eq_comm

/-- If any key has the value, the value answers one. -/
def Answers (m : Bimap α β) (value : β) : Prop :=
  ∀ key, m.value? key = some value → ∃ answer, m.key? value = some answer

/-- No two keys have the value. -/
def Unshared (m : Bimap α β) (value : β) : Prop :=
  ∀ key other, m.value? key = some value → m.value? other = some value → key = other

theorem Unshared.of_agrees (h : m.Unshared value) (hagrees : m.agrees n = true) :
    n.Unshared value := by
  intro key other hkey hother
  rw [← agrees_iff_value?_eq.mp hagrees] at hkey hother
  exact h key other hkey hother

/-! ## Backward answers -/

theorem Consistent.value?_of_agrees (h : m.Consistent) (hagrees : m.agrees n = true) {key : α}
    (hanswer : m.key? value = some key) : n.value? key = some value := by
  rw [← agrees_iff_value?_eq.mp hagrees]
  exact h value key hanswer

/-- The key that one map answers has the value in the other one, which therefore has an answer as
well.  Both are the same key if there is only one to choose. -/
theorem Consistent.exists_key?_of_agrees (hm : m.Consistent) (hn : n.Consistent)
    (hagrees : m.agrees n = true) (hanswers : n.Answers value) {key : α}
    (hanswer : m.key? value = some key) :
    ∃ other, n.key? value = some other ∧ (m.Unshared value → other = key) := by
  obtain ⟨other, hother⟩ := hanswers key (hm.value?_of_agrees hagrees hanswer)
  have hheld : m.value? other = some value := hn.value?_of_agrees (agrees_comm.mp hagrees) hother
  exact ⟨other, hother, fun hunshared => hunshared other key hheld (hm value key hanswer)⟩

theorem Consistent.hasValue_eq_of_agrees (hm : m.Consistent) (hn : n.Consistent)
    (hagrees : m.agrees n = true) (hfirst : m.Answers value) (hsecond : n.Answers value) :
    m.hasValue value = n.hasValue value := by
  rw [Bool.eq_iff_iff, hasValue_eq_true_iff, hasValue_eq_true_iff]
  constructor
  · rintro ⟨key, hanswer⟩
    obtain ⟨other, hother, -⟩ := hm.exists_key?_of_agrees hn hagrees hsecond hanswer
    exact ⟨other, hother⟩
  · rintro ⟨key, hanswer⟩
    obtain ⟨other, hother, -⟩ :=
      hn.exists_key?_of_agrees hm (agrees_comm.mp hagrees) hfirst hanswer
    exact ⟨other, hother⟩

theorem Consistent.key?_eq_of_agrees (hm : m.Consistent) (hn : n.Consistent)
    (hagrees : m.agrees n = true) (hfirst : m.Answers value) (hsecond : n.Answers value)
    (hunshared : m.Unshared value) : m.key? value = n.key? value := by
  refine Option.ext fun key => ⟨fun hanswer => ?_, fun hanswer => ?_⟩
  · obtain ⟨other, hother, hsame⟩ := hm.exists_key?_of_agrees hn hagrees hsecond hanswer
    rw [hother, hsame hunshared]
  · obtain ⟨other, hother, hsame⟩ :=
      hn.exists_key?_of_agrees hm (agrees_comm.mp hagrees) hfirst hanswer
    rw [hother, hsame (hunshared.of_agrees hagrees)]

/-- Maps agree just when they give the same value for every key.  A key that one of two such maps
answers for a value has that value in the other.  A value that neither map leaves without an answer
has one in both or in neither, and it is the same one if no two keys share the value. -/
theorem answers_of_agrees (pairs pairs' : List (α × β)) (updates updates' : List (Update α β)) :
    let m := ofHistory pairs updates
    let n := ofHistory pairs' updates'
    (m.agrees n = true ↔ ∀ key, m.value? key = n.value? key) ∧
      (m.agrees n = true → ∀ value,
        (∀ key, m.key? value = some key → n.value? key = some value) ∧
        (∀ key, n.key? value = some key → m.value? key = some value) ∧
        (m.Answers value → n.Answers value →
          m.hasValue value = n.hasValue value ∧
          (m.Unshared value → m.key? value = n.key? value))) := by
  intro m n
  have hm : m.Consistent := (follows_ofHistory pairs updates).consistent
  have hn : n.Consistent := (follows_ofHistory pairs' updates').consistent
  refine ⟨agrees_iff_value?_eq, fun hagrees value => ⟨?_, ?_, ?_⟩⟩
  · intro key hanswer
    exact hm.value?_of_agrees hagrees hanswer
  · intro key hanswer
    exact hn.value?_of_agrees (agrees_comm.mp hagrees) hanswer
  · intro hfirst hsecond
    exact ⟨hm.hasValue_eq_of_agrees hn hagrees hfirst hsecond,
      hm.key?_eq_of_agrees hn hagrees hfirst hsecond⟩

/-- Two keys share a value, and either of them was written last. -/
theorem key?_ne_of_agrees :
    let m := ofHistory [("a", "v"), ("b", "v")] []
    let n := ofHistory [("b", "v"), ("a", "v")] []
    m.agrees n = true ∧ m.key? "v" = some "b" ∧ n.key? "v" = some "a" := by
  decide

end Vernacular.Bimap
