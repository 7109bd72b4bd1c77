import Vernacular.Proofs.Bimap.History

/-!
# What a list of pairs answers

Keys and values may be repeated in a list of pairs as often as one likes.  What the map built from
it answers is read off the list: forward the last pair with the key decides, backward the last pair
with the value, provided that it is the last one with its key as well.
-/

namespace Vernacular

theorem findRev?_concat {α : Type} (list : List α) (last : α) (accepts : α → Bool) :
    (list ++ [last]).findRev? accepts =
      if accepts last then some last else list.findRev? accepts := by
  rw [List.findRev?_eq_find?_reverse, List.reverse_concat, List.find?_cons,
    List.findRev?_eq_find?_reverse]
  cases accepts last <;> rfl

variable {α β : Type} [DecidableEq α]

theorem Dictionary.get?_ofList_eq_findRev? (pairs : List (α × β)) (key : α) :
    (ofList pairs).get? key = (pairs.findRev? (·.1 = key)).map Prod.snd := by
  induction pairs using List.reverseRecOn with
  | nil => rfl
  | append_singleton pairs pair ih =>
    rw [ofList_concat, get?_insert, ih, findRev?_concat]
    by_cases hkey : pair.1 = key <;> simp [hkey]

namespace Bimap

variable [DecidableEq β]

/-- The two pairs found are then one pair in one place: were there a later one with the same key, it
would have another value, and the last pair with the key would not be this one. -/
theorem lastWrite_iff_findRev? {written : List (α × β)} {key : α} {value : β} :
    LastWrite written key value ↔
      written.findRev? (·.2 = value) = some (key, value) ∧
        written.findRev? (·.1 = key) = some (key, value) := by
  induction written using List.reverseRecOn with
  | nil => simp [LastWrite]
  | append_singleton written pair ih =>
    rw [lastWrite_concat, ih, findRev?_concat, findRev?_concat]
    obtain ⟨newKey, newValue⟩ := pair
    by_cases hkey : newKey = key <;> by_cases hvalue : newValue = value <;>
      simp [hkey, hvalue]

/-- Forward a key has the value of the last pair with that key, and the keys stand in order of first
appearance.  Backward a value answers the key of the last pair with that value if this pair is the
last one with its key as well; otherwise it answers nothing. -/
theorem answers_ofList (pairs : List (α × β)) :
    let m : Bimap α β := ofList pairs
    (∀ key, m.value? key = (pairs.findRev? (·.1 = key)).map Prod.snd) ∧
      m.forward.keys = (pairs.map Prod.fst).eraseDups ∧
      ∀ value key, m.key? value = some key ↔
        pairs.findRev? (·.2 = value) = some (key, value) ∧
          pairs.findRev? (·.1 = key) = some (key, value) := by
  intro m
  have hforward : m.forward = Dictionary.ofList pairs := forward_ofList pairs
  refine ⟨?_, ?_, ?_⟩
  · intro key
    rw [value?, hforward, Dictionary.get?_ofList_eq_findRev?]
  · rw [hforward, Dictionary.keys_ofList]
  · intro value key
    rw [(follows_ofList pairs).key?_iff, lastWrite_iff_findRev?]

-- The last pair with "v" is not the last one with its key, so "v" is held and answers nothing.
example :
    let m := ofList [("a", "v"), ("b", "v"), ("b", "w"), ("c", "w"), ("b", "w")]
    m.toList = [("a", "v"), ("b", "w"), ("c", "w")] ∧ m.key? "v" = none ∧
      m.key? "w" = some "b" := by
  decide

end Bimap

end Vernacular
