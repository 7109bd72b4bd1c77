/-!
# Results that may be errors

When a result that is mapped, or gone on with, is a value and when it is an error.
-/

namespace Vernacular

variable {ε ε' α β : Type}

theorem except_map_eq_ok_iff {f : α → β} {result : Except ε α} {value : β} :
    result.map f = .ok value ↔ ∃ found, result = .ok found ∧ f found = value := by
  cases result <;> simp [Except.map]

theorem except_map_eq_error_iff {f : α → β} {result : Except ε α} {error : ε} :
    result.map f = .error error ↔ result = .error error := by
  cases result <;> simp [Except.map]

theorem except_mapError_eq_ok_iff {f : ε → ε'} {result : Except ε α} {value : α} :
    result.mapError f = .ok value ↔ result = .ok value := by
  cases result with
  | ok found =>
    change Except.ok found = .ok value ↔ Except.ok found = .ok value
    rw [Except.ok.injEq, Except.ok.injEq]
  | error cause => exact ⟨nofun, nofun⟩

theorem except_mapError_eq_error_iff {f : ε → ε'} {result : Except ε α} {error : ε'} :
    result.mapError f = .error error ↔ ∃ cause, result = .error cause ∧ f cause = error := by
  cases result with
  | ok found => exact ⟨nofun, nofun⟩
  | error cause =>
    change Except.error (f cause) = .error error ↔ _
    simp

theorem except_bind_eq_ok_iff {first : Except ε α} {next : α → Except ε β} {result : β} :
    first >>= next = .ok result ↔ ∃ value, first = .ok value ∧ next value = .ok result := by
  cases first <;> simp [bind, Except.bind]

theorem except_bind_eq_error_iff {first : Except ε α} {next : α → Except ε β} {error : ε} :
    first >>= next = .error error ↔
      first = .error error ∨ ∃ value, first = .ok value ∧ next value = .error error := by
  cases first <;> simp [bind, Except.bind]

end Vernacular
