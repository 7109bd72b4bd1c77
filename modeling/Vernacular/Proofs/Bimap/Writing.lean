import Vernacular.Proofs.Bimap.History

/-!
# What one write changes

Both ways of writing a pair make it an entry in both directions and do the same to backward answers:
the value that the key gives up does not answer it any more, and all others answer as before.
Forward they differ.  Writing under the key touches that key alone; writing under the value takes
the entry away from the key that the value answered before.
-/

namespace Vernacular.Bimap

variable {α β : Type} [DecidableEq α] [DecidableEq β] {m : Bimap α β} {key : α} {value : β}

/-- The pair is an entry in both directions.  The value that the key had before does not answer it
any more, and all other values answer what they did. -/
structure Wrote (m after : Bimap α β) (key : α) (value : β) : Prop where
  forward : after.value? key = some value
  backward : after.key? value = some key
  given_up : ∀ held, m.value? key = some held → held ≠ value → after.key? held ≠ some key
  others : ∀ other, other ≠ value → m.value? key ≠ some other → after.key? other = m.key? other

theorem wrote_insert (m : Bimap α β) (key : α) (value : β) :
    m.Wrote (m.insert key value) key value where
  forward := by rw [value?_insert, if_pos rfl]
  backward := by rw [key?_insert, if_pos rfl]
  given_up := by
    intro held hheld hne hanswer
    rw [key?_insert, if_neg hne.symm] at hanswer
    split at hanswer
    · cases hanswer
    · next hkept => exact hkept ⟨hheld, hanswer⟩
  others := by
    intro other hne hheld
    rw [key?_insert, if_neg hne.symm, if_neg fun h => hheld h.1]

theorem value?_insert_of_ne {other : α} (h : other ≠ key) :
    (m.insert key value).value? other = m.value? other := by
  rw [value?_insert, if_neg h.symm]

theorem wrote_insertBackward (m : Bimap α β) (value : β) (key : α) :
    m.Wrote (m.insertBackward value key) key value where
  forward := by rw [value?_insertBackward, if_pos rfl]
  backward := (m.wrote_insert key value).backward
  given_up := (m.wrote_insert key value).given_up
  others := (m.wrote_insert key value).others

theorem value?_insertBackward_of_ne {other : α} (hkey : other ≠ key)
    (hanswer : m.key? value ≠ some other) :
    (m.insertBackward value key).value? other = m.value? other := by
  rw [value?_insertBackward, if_neg hkey.symm, if_neg fun h => hanswer h.1]

/-- The key that the value answered has that value, since backward answers are true forward; so this
is the entry that goes. -/
theorem Consistent.value?_insertBackward_eq_none (h : m.Consistent) {holder : α}
    (hanswer : m.key? value = some holder) (hkey : holder ≠ key) :
    (m.insertBackward value key).value? holder = none := by
  rw [value?_insertBackward, if_neg hkey.symm, if_pos ⟨hanswer, h value holder hanswer⟩]

theorem Consistent.hasKey_insertBackward_eq_false_iff (h : m.Consistent) {other : α}
    (hother : m.hasKey other = true) :
    (m.insertBackward value key).hasKey other = false ↔
      m.key? value = some other ∧ other ≠ key := by
  rw [hasKey_eq_false_iff]
  constructor
  · intro hlost
    have hkey : other ≠ key := by
      rintro rfl
      rw [(m.wrote_insertBackward value other).forward] at hlost
      cases hlost
    refine ⟨?_, hkey⟩
    by_contra hanswer
    rw [value?_insertBackward_of_ne hkey hanswer, ← hasKey_eq_false_iff, hother] at hlost
    cases hlost
  · rintro ⟨hanswer, hkey⟩
    exact h.value?_insertBackward_eq_none hanswer hkey

/-- What either write does to a map with any history, and that it does nothing else. -/
theorem wrote_of_history (pairs : List (α × β)) (updates : List (Update α β)) (key : α)
    (value : β) :
    let m := ofHistory pairs updates
    (m.Wrote (m.insert key value) key value ∧
      ∀ other, other ≠ key → (m.insert key value).value? other = m.value? other) ∧
    m.Wrote (m.insertBackward value key) key value ∧
      (∀ other, other ≠ key → m.key? value ≠ some other →
        (m.insertBackward value key).value? other = m.value? other) ∧
      ∀ other, m.hasKey other = true →
        ((m.insertBackward value key).hasKey other = false ↔
          m.key? value = some other ∧ other ≠ key) := by
  intro m
  have hconsistent : m.Consistent := (follows_ofHistory pairs updates).consistent
  refine ⟨⟨m.wrote_insert key value, fun other => value?_insert_of_ne⟩,
    m.wrote_insertBackward value key, ?_, ?_⟩
  · intro other hkey hanswer
    exact value?_insertBackward_of_ne hkey hanswer
  · intro other hother
    exact hconsistent.hasKey_insertBackward_eq_false_iff hother

-- "v" still answers "b" when "a" gives it up, and "w" is taken away from "c".
example :
    let m := (ofList [("a", "v"), ("b", "v"), ("c", "w")]).insertBackward "w" "a"
    m.toList = [("a", "w"), ("b", "v")] ∧ m.key? "v" = some "b" ∧ m.key? "w" = some "a" := by
  decide

end Vernacular.Bimap
