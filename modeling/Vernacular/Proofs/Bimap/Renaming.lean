import Mathlib.Logic.Embedding.Basic
import Vernacular.Proofs.Bimap

/-!
# Renaming keys

Keys may be renamed by any map that tells them apart.  What is then written to the renamed
dictionary under new names is what would have been written to the old one under the old names.
-/

namespace Vernacular

variable {α β γ δ : Type}

/-! ## Dictionaries -/

namespace Entries

variable [DecidableEq α] [DecidableEq γ] (f : α ↪ γ) (g : β → δ) (key : α)
  (entries : List (α × β))

theorem find?_map :
    find? (f key) (entries.map (Prod.map f g)) = (find? key entries).map g := by
  induction entries with
  | nil => rfl
  | cons entry rest ih =>
    obtain ⟨k, old⟩ := entry
    by_cases hk : k = key
    · simp [find?, hk]
    · simp [find?, hk, ih]

theorem put_map (value : β) :
    put (f key) (g value) (entries.map (Prod.map f g)) =
      (put key value entries).map (Prod.map f g) := by
  induction entries with
  | nil => rfl
  | cons entry rest ih =>
    obtain ⟨k, old⟩ := entry
    by_cases hk : k = key
    · simp [put, hk]
    · simp [put, hk, ih]

theorem remove_map :
    remove (f key) (entries.map (Prod.map f g)) = (remove key entries).map (Prod.map f g) := by
  simp [remove, List.filter_map, Function.comp_def]

end Entries

namespace Dictionary

def map (f : α ↪ γ) (g : β → δ) (d : Dictionary α β) : Dictionary γ δ where
  entries := d.entries.map (Prod.map f g)
  nodup_keys := by
    rw [List.map_map, Prod.map_fst', ← List.map_map]
    exact d.nodup_keys.map f.injective

variable (f : α ↪ γ) (g : β → δ) (d : Dictionary α β) (key : α)

@[simp] theorem toList_map : (d.map f g).toList = d.toList.map (Prod.map f g) := rfl

theorem keys_map : (d.map f g).keys = d.keys.map f := by
  simp [keys, map, Function.comp_def]

variable [DecidableEq α] [DecidableEq γ]

theorem get?_map : (d.map f g).get? (f key) = (d.get? key).map g :=
  Entries.find?_map f g key d.entries

theorem insert_map (value : β) :
    (d.map f g).insert (f key) (g value) = (d.insert key value).map f g :=
  eq_of_toList_eq (Entries.put_map f g key d.entries value)

theorem erase_map : (d.map f g).erase (f key) = (d.erase key).map f g :=
  eq_of_toList_eq (Entries.remove_map f g key d.entries)

end Dictionary

/-! ## Two-way dictionaries -/

namespace Bimap

/-- The same pairs under new keys: forward the keys are renamed, backward the answers. -/
def mapKeys (f : α ↪ γ) (m : Bimap α β) : Bimap γ β :=
  ⟨m.forward.map f id, m.backward.map (.refl β) f⟩

variable (f : α ↪ γ) (m : Bimap α β) (key : α) (value : β)

theorem mem_keys_mapKeys {renamed : γ} :
    renamed ∈ (m.mapKeys f).forward.keys ↔ ∃ key ∈ m.forward.keys, f key = renamed := by
  rw [mapKeys, Dictionary.keys_map, List.mem_map]

@[simp] theorem key?_mapKeys [DecidableEq β] :
    (m.mapKeys f).key? value = (m.key? value).map f :=
  m.backward.get?_map (.refl β) f value

variable [DecidableEq α] [DecidableEq γ]

@[simp] theorem value?_mapKeys : (m.mapKeys f).value? (f key) = m.value? key := by
  rw [value?, mapKeys, Dictionary.get?_map, Option.map_id_fun, id, value?]

@[simp] theorem hasKey_mapKeys : (m.mapKeys f).hasKey (f key) = m.hasKey key :=
  congrArg Option.isSome (value?_mapKeys f m key)

variable [DecidableEq β]

theorem Consistent.mapKeys {m : Bimap α β} (h : m.Consistent) : (m.mapKeys f).Consistent := by
  intro value renamed hanswer
  rw [key?_mapKeys, Option.map_eq_some_iff] at hanswer
  obtain ⟨key, hkey, rfl⟩ := hanswer
  rw [value?_mapKeys, h value key hkey]

theorem backwardWithout_mapKeys :
    (m.mapKeys f).backwardWithout (f key) = (m.backwardWithout key).map (.refl β) f := by
  unfold backwardWithout
  rw [value?_mapKeys]
  cases m.value? key with
  | none => rfl
  | some held =>
    by_cases hanswer : m.key? held = some key
    · have hrenamed : (m.mapKeys f).key? held = some (f key) := by simp [hanswer]
      simp only [hanswer, hrenamed, if_true]
      exact m.backward.erase_map (.refl β) f held
    · have hrenamed : ¬(m.mapKeys f).key? held = some (f key) := by simpa using hanswer
      simp only [hanswer, hrenamed, if_false]
      rfl

theorem insert_mapKeys : (m.mapKeys f).insert (f key) value = (m.insert key value).mapKeys f := by
  have hforward := m.forward.insert_map f id key value
  have hbackward := (m.backwardWithout key).insert_map (.refl β) f value key
  rw [← backwardWithout_mapKeys] at hbackward
  exact congrArg₂ Bimap.mk hforward hbackward

theorem ofList_mapKeys (pairs : List (α × β)) :
    ofList (pairs.map (Prod.map f id)) = (ofList pairs).mapKeys f := by
  induction pairs using List.reverseRecOn with
  | nil => rfl
  | append_singleton pairs pair ih =>
    rw [List.map_append, List.map_singleton, ofList_concat, ofList_concat, ih, ← insert_mapKeys]
    rfl

end Bimap

end Vernacular
