import Mathlib.Data.Set.Function
import Vernacular.Proofs.Bimap

/-!
# Two-way dictionaries in use

A map is built from pairs and then written to, forward and backward and in any mixture.  A value
answers the key that it was written with last, until that key is written again.  So backward answers
are always true forward, but a value that several keys share is left without an answer as soon as
the last of them takes another value.
-/

namespace Vernacular.Bimap

variable {α β : Type}

/-! ## Histories -/

inductive Update (α β : Type) where
  | insert (key : α) (value : β)
  | insertBackward (value : β) (key : α)
  | copy
deriving DecidableEq, Repr

/-- The pair that an update writes, whichever way round. -/
def Update.write? : Update α β → Option (α × β)
  | insert key value => some (key, value)
  | insertBackward value key => some (key, value)
  | copy => none

/-- All pairs written to a map that was built from `pairs` and then updated, in order. -/
def writes (pairs : List (α × β)) (updates : List (Update α β)) : List (α × β) :=
  pairs ++ updates.filterMap Update.write?

/-- `value` was written with `key` last, and `key` has not been written since. -/
def LastWrite (written : List (α × β)) (key : α) (value : β) : Prop :=
  ∃ earlier later, written = earlier ++ (key, value) :: later ∧
    key ∉ later.map Prod.fst ∧ value ∉ later.map Prod.snd

theorem lastWrite_concat {written : List (α × β)} {pair : α × β} {key : α} {value : β} :
    LastWrite (written ++ [pair]) key value ↔
      pair = (key, value) ∨ pair.1 ≠ key ∧ pair.2 ≠ value ∧ LastWrite written key value := by
  constructor
  · rintro ⟨earlier, later, heq, hkey, hvalue⟩
    rcases List.eq_nil_or_concat later with rfl | ⟨later, final, rfl⟩
    · obtain ⟨-, hpair⟩ := List.append_inj' heq rfl
      exact .inl (List.singleton_inj.mp hpair)
    · rw [List.concat_eq_append] at heq hkey hvalue
      rw [← List.cons_append, ← List.append_assoc] at heq
      obtain ⟨hwritten, hpair⟩ := List.append_inj' heq rfl
      obtain rfl := List.singleton_inj.mp hpair
      simp only [List.map_append, List.map_singleton, List.mem_append, List.mem_singleton,
        not_or] at hkey hvalue
      exact .inr ⟨fun h => hkey.2 h.symm, fun h => hvalue.2 h.symm,
        earlier, later, hwritten, hkey.1, hvalue.1⟩
  · rintro (rfl | ⟨hkey, hvalue, earlier, later, rfl, hkeyLater, hvalueLater⟩)
    · exact ⟨written, [], rfl, by simp, by simp⟩
    · refine ⟨earlier, later ++ [pair], by simp, ?_, ?_⟩
      · simpa using ⟨by simpa using hkeyLater, fun h => hkey h.symm⟩
      · simpa using ⟨by simpa using hvalueLater, fun h => hvalue h.symm⟩

variable [DecidableEq α] [DecidableEq β] {m : Bimap α β} {written : List (α × β)}

def apply (m : Bimap α β) : Update α β → Bimap α β
  | .insert key value => m.insert key value
  | .insertBackward value key => m.insertBackward value key
  | .copy => m.copy

def ofHistory (pairs : List (α × β)) (updates : List (Update α β)) : Bimap α β :=
  updates.foldl apply (ofList pairs)

/-! ## What writing keeps -/

/-- Backward answers are true forward, and what they are is settled by what was written. -/
structure Follows (written : List (α × β)) (m : Bimap α β) : Prop where
  consistent : m.Consistent
  key?_iff : ∀ key value, m.key? value = some key ↔ LastWrite written key value

theorem follows_empty : Follows [] (empty : Bimap α β) where
  consistent := consistent_empty
  key?_iff := by simp [LastWrite, empty, key?]

theorem Follows.key?_insert_iff (h : m.Follows written) (key : α) (value : β) (answer : α)
    (other : β) :
    (m.insert key value).key? other = some answer ↔
      LastWrite (written ++ [(key, value)]) answer other := by
  rw [lastWrite_concat, ← h.key?_iff, key?_insert, Prod.mk.injEq]
  by_cases hvalue : value = other
  · simp [hvalue]
  · by_cases hown : m.value? key = some other ∧ m.key? other = some key
    -- The key gives up this value, which has no answer from now on.
    · simp [hvalue, hown]
    · have hkept : m.key? other = some answer → key ≠ answer := by
        rintro hanswer rfl
        exact hown ⟨h.consistent other _ hanswer, hanswer⟩
      simpa [hvalue, hown] using hkept

theorem Follows.insert (h : m.Follows written) (key : α) (value : β) :
    (m.insert key value).Follows (written ++ [(key, value)]) :=
  ⟨h.consistent.insert key value, h.key?_insert_iff key value⟩

theorem Follows.insertBackward (h : m.Follows written) (value : β) (key : α) :
    (m.insertBackward value key).Follows (written ++ [(key, value)]) :=
  ⟨h.consistent.insertBackward value key, h.key?_insert_iff key value⟩

theorem Follows.apply (h : m.Follows written) (update : Update α β) :
    (m.apply update).Follows (written ++ update.write?.toList) := by
  cases update with
  | insert key value => exact h.insert key value
  | insertBackward value key => exact h.insertBackward value key
  | copy => rwa [Update.write?, Option.toList_none, List.append_nil]

theorem follows_ofList (pairs : List (α × β)) : (ofList pairs).Follows pairs := by
  induction pairs using List.reverseRecOn with
  | nil => exact follows_empty
  | append_singleton pairs pair ih =>
    rw [ofList_concat]
    exact ih.insert pair.1 pair.2

theorem follows_ofHistory (pairs : List (α × β)) (updates : List (Update α β)) :
    (ofHistory pairs updates).Follows (writes pairs updates) := by
  induction updates using List.reverseRecOn with
  | nil => simpa [ofHistory, writes] using follows_ofList pairs
  | append_singleton updates update ih =>
    have hstep := ih.apply update
    have hwrites : writes pairs (updates ++ [update]) =
        writes pairs updates ++ update.write?.toList := by
      cases update <;> simp [writes, Update.write?]
    rw [hwrites, ofHistory, List.foldl_append]
    exact hstep

/-! ## The two directions -/

/-- Backward answers are true forward, so no two values answer the same key and there are no more
of them than keys. -/
theorem backward_entries_ofHistory (pairs : List (α × β)) (updates : List (Update α β)) :
    let m := ofHistory pairs updates
    (∀ value key, (value, key) ∈ m.backward.toList → m.value? key = some value) ∧
      (∀ value other key, m.key? value = some key → m.key? other = some key → value = other) ∧
      Set.InjOn m.key? {value | m.hasValue value = true} ∧
      m.backward.size ≤ m.forward.size := by
  intro m
  have hconsistent := (follows_ofHistory pairs updates).consistent
  refine ⟨?_, ?_, ?_, hconsistent.size_backward_le⟩
  · intro value key hentry
    exact hconsistent value key ((m.backward.get?_eq_some_iff value key).mpr hentry)
  · intro value other key hvalue hother
    exact hconsistent.eq_of_key? hvalue hother
  · intro value hvalue other _ hsame
    obtain ⟨key, hkey⟩ : ∃ key, m.key? value = some key := Option.isSome_iff_exists.mp hvalue
    exact hconsistent.eq_of_key? hkey (hsame.symm.trans hkey)

/-- All values that are held have answers just when each of them was written last with a key that
has not been written since. -/
theorem answered_iff_lastWrite (pairs : List (α × β)) (updates : List (Update α β)) :
    let m := ofHistory pairs updates
    (∀ key value, m.value? key = some value →
        m.hasValue value = true ∧
          ∃ answer, m.key? value = some answer ∧ m.value? answer = some value) ↔
      ∀ key value, m.value? key = some value →
        ∃ answer, LastWrite (writes pairs updates) answer value := by
  intro m
  have hfollows := follows_ofHistory pairs updates
  constructor
  · intro h key value hheld
    obtain ⟨-, answer, hanswer, -⟩ := h key value hheld
    exact ⟨answer, (hfollows.key?_iff answer value).mp hanswer⟩
  · intro h key value hheld
    obtain ⟨answer, hlast⟩ := h key value hheld
    have hanswer : m.key? value = some answer := (hfollows.key?_iff answer value).mpr hlast
    exact ⟨Option.isSome_iff_exists.mpr ⟨answer, hanswer⟩, answer, hanswer,
      hfollows.consistent value answer hanswer⟩

/-- The last key that has a shared value takes another one: the value is still held and has no
answer. -/
theorem hasValue_false_of_shared :
    let m := ofHistory [("a", "v"), ("b", "v")] [.insert "b" "w"]
    m.value? "a" = some "v" ∧ m.key? "v" = none ∧ m.hasValue "v" = false := by
  decide

end Vernacular.Bimap
