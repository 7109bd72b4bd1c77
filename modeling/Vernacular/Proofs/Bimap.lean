import Mathlib.Data.List.Nodup
import Mathlib.Data.List.Perm.Subperm
import Mathlib.Data.Prod.Basic
import Vernacular.Bimap
import Vernacular.Proofs.Dictionary

/-!
# Two-way dictionaries built from pairs

Whatever pairs go in, a backward answer is always true forward.  When no key is repeated every value
answers as well: the last of the keys that have it.
-/

namespace Vernacular.Bimap

variable {α β : Type} [DecidableEq α]

theorem mem_values_iff {m : Bimap α β} {value : β} :
    value ∈ m.forward.values ↔ ∃ key, m.value? key = some value :=
  Dictionary.mem_values_iff

theorem hasKey_eq_true_iff {m : Bimap α β} {key : α} :
    m.hasKey key = true ↔ key ∈ m.forward.keys :=
  m.forward.contains_eq_true_iff key

theorem hasKey_eq_false_iff {m : Bimap α β} {key : α} :
    m.hasKey key = false ↔ m.value? key = none :=
  Option.isSome_eq_false_iff.trans Option.isNone_iff_eq_none

theorem value?_eq_none_iff {m : Bimap α β} {key : α} :
    m.value? key = none ↔ key ∉ m.forward.keys :=
  m.forward.get?_eq_none_iff key

theorem mem_keys_of_value? {m : Bimap α β} {key : α} {value : β} (h : m.value? key = some value) :
    key ∈ m.forward.keys :=
  Dictionary.mem_keys_of_get? h

theorem mem_values_of_value? {m : Bimap α β} {key : α} {value : β}
    (h : m.value? key = some value) : value ∈ m.forward.values :=
  mem_values_iff.mpr ⟨key, h⟩

theorem eq_of_value?_of_nodup {m : Bimap α β} (hdistinct : m.forward.values.Nodup) {key other : α}
    {value : β} (hkey : m.value? key = some value) (hother : m.value? other = some value) :
    key = other := by
  have hfirst := (m.forward.get?_eq_some_iff key value).mp hkey
  have hsecond := (m.forward.get?_eq_some_iff other value).mp hother
  exact congrArg Prod.fst (List.inj_on_of_nodup_map hdistinct hfirst hsecond rfl)

/-! ## Backward answers -/

variable [DecidableEq β]

/-- A value answers a key only if it is the value of that key. -/
def Consistent (m : Bimap α β) : Prop :=
  ∀ value key, m.key? value = some key → m.value? key = some value

def Covering (m : Bimap α β) : Prop :=
  ∀ key value, m.value? key = some value → ∃ answer, m.key? value = some answer

theorem consistent_empty : (empty : Bimap α β).Consistent := by
  intro value key h
  cases h

theorem Consistent.insert {m : Bimap α β} (h : m.Consistent) (key : α) (value : β) :
    (m.insert key value).Consistent := by
  intro other answer hanswer
  rw [key?_insert] at hanswer
  rw [value?_insert]
  split at hanswer
  · next hvalue =>
    obtain rfl := Option.some.inj hanswer
    rw [if_pos rfl, hvalue]
  · next hvalue =>
    split at hanswer
    · cases hanswer
    -- The answer was there before; had it been the key's own, the insertion would have dropped it.
    · next hkept =>
      have hheld := h other answer hanswer
      have hne : key ≠ answer := by
        rintro rfl
        exact hkept ⟨hheld, hanswer⟩
      rw [if_neg hne, hheld]

theorem Consistent.insertBackward {m : Bimap α β} (h : m.Consistent) (value : β) (key : α) :
    (m.insertBackward value key).Consistent := by
  intro other answer hanswer
  rw [key?_insertBackward] at hanswer
  have hinserted := h.insert key value other answer hanswer
  rw [value?_insert] at hinserted
  rw [value?_insertBackward]
  split
  · next hkey => rwa [if_pos hkey] at hinserted
  · next hkey =>
    rw [if_neg hkey] at hinserted
    -- The key that lost its entry held `value`, and `value` does not answer it any more.
    have hkept : ¬(m.key? value = some answer ∧ m.value? answer = some value) := by
      rintro ⟨-, hheld⟩
      obtain rfl : other = value := Option.some.inj (hinserted.symm.trans hheld)
      rw [key?_insert, if_pos rfl] at hanswer
      exact hkey (Option.some.inj hanswer)
    rw [if_neg hkept, hinserted]

theorem Consistent.eq_of_key? {m : Bimap α β} (h : m.Consistent) {value other : β} {key : α}
    (hvalue : m.key? value = some key) (hother : m.key? other = some key) : value = other :=
  Option.some.inj ((h value key hvalue).symm.trans (h other key hother))

/-- Every backward entry has a forward entry of its own. -/
theorem Consistent.size_backward_le {m : Bimap α β} (h : m.Consistent) :
    m.backward.size ≤ m.forward.size := by
  have hentries : ∀ {entry : β × α}, entry ∈ m.backward.toList → m.key? entry.1 = some entry.2 :=
    fun hentry => (m.backward.get?_eq_some_iff _ _).mpr hentry
  have hanswers : m.backward.values.Nodup := by
    refine List.Nodup.map_on ?_ m.backward.nodup_toList
    intro entry hentry other hother hsame
    have hkey := hentries hentry
    rw [hsame] at hkey
    exact Prod.ext (h.eq_of_key? hkey (hentries hother)) hsame
  have hheld : m.backward.values ⊆ m.forward.keys := by
    intro key hkey
    obtain ⟨entry, hentry, rfl⟩ := List.mem_map.mp hkey
    exact mem_keys_of_value? (h _ _ (hentries hentry))
  have hlength := (hanswers.subperm hheld).length_le
  rwa [Dictionary.values, Dictionary.keys, List.length_map, List.length_map] at hlength

theorem Consistent.mem_keys {m : Bimap α β} (h : m.Consistent) {key : α} {value : β}
    (hanswer : m.key? value = some key) : key ∈ m.forward.keys :=
  mem_keys_of_value? (h value key hanswer)

/-- A value that no two keys share answers the key that holds it. -/
theorem Consistent.key?_of_value? {m : Bimap α β} (h : m.Consistent) (hcover : m.Covering)
    (hdistinct : m.forward.values.Nodup) {key : α} {value : β}
    (hvalue : m.value? key = some value) : m.key? value = some key := by
  obtain ⟨answer, hanswer⟩ := hcover key value hvalue
  rw [hanswer, eq_of_value?_of_nodup hdistinct (h value answer hanswer) hvalue]

theorem Consistent.key?_eq_none {m : Bimap α β} (h : m.Consistent) {value : β}
    (hvalue : value ∉ m.forward.values) : m.key? value = none := by
  cases hanswer : m.key? value with
  | none => rfl
  | some answer => exact absurd (mem_values_of_value? (h value answer hanswer)) hvalue

theorem Consistent.key?_eq_none_iff {m : Bimap α β} (h : m.Consistent) (hcover : m.Covering)
    {value : β} : m.key? value = none ↔ value ∉ m.forward.values := by
  refine ⟨?_, h.key?_eq_none⟩
  rw [mem_values_iff]
  rintro hnone ⟨key, hvalue⟩
  obtain ⟨answer, hanswer⟩ := hcover key value hvalue
  rw [hnone] at hanswer
  cases hanswer

/-- When the backward entries are the forward ones turned round, both directions tell the same. -/
theorem key?_eq_some_iff_of_swap {m : Bimap α β}
    (h : m.backward.toList = m.forward.toList.map Prod.swap) {key : α} {value : β} :
    m.key? value = some key ↔ m.value? key = some value := by
  rw [key?, value?, Dictionary.get?_eq_some_iff, Dictionary.get?_eq_some_iff, h]
  exact List.mem_map_of_injective Prod.swap_injective (a := (key, value))

/-! ## Building from pairs -/

theorem ofList_concat (pairs : List (α × β)) (pair : α × β) :
    ofList (pairs ++ [pair]) = (ofList pairs).insert pair.1 pair.2 := by
  simp [ofList]

theorem forward_ofList (pairs : List (α × β)) :
    (ofList pairs).forward = Dictionary.ofList pairs := by
  induction pairs using List.reverseRecOn with
  | nil => rfl
  | append_singleton pairs pair ih =>
    rw [ofList_concat, Dictionary.ofList_concat, ← ih]
    rfl

theorem forward_ofList_toList (d : Dictionary α β) : (ofList d.toList).forward = d := by
  rw [forward_ofList, Dictionary.ofList_toList]

theorem consistent_ofList (pairs : List (α × β)) : (ofList pairs).Consistent := by
  induction pairs using List.reverseRecOn with
  | nil => exact consistent_empty
  | append_singleton pairs pair ih =>
    rw [ofList_concat]
    exact ih.insert pair.1 pair.2

section Distinct

variable {pairs : List (α × β)} (hkeys : (pairs.map Prod.fst).Nodup)

include hkeys

theorem toList_ofList : (ofList pairs).toList = pairs := by
  rw [toList, forward_ofList, Dictionary.toList_ofList hkeys]

/-- With distinct keys no insertion takes a backward answer away. -/
theorem backward_ofList :
    (ofList pairs).backward = Dictionary.ofList (pairs.map Prod.swap) := by
  induction pairs using List.reverseRecOn with
  | nil => rfl
  | append_singleton pairs pair ih =>
    rw [List.map_append, List.nodup_append] at hkeys
    obtain ⟨hearlier, -, hnew⟩ := hkeys
    have hfresh : (ofList pairs).value? pair.1 = none := by
      rw [value?_eq_none_iff, forward_ofList, Dictionary.keys_ofList, List.mem_eraseDups]
      exact fun hmem => hnew _ hmem _ (by simp) rfl
    rw [ofList_concat, List.map_append, List.map_singleton, Dictionary.ofList_concat,
      ← ih hearlier]
    simp [insert, backwardWithout, hfresh]

theorem toList_backward_ofList (hvalues : (pairs.map Prod.snd).Nodup) :
    (ofList pairs).backward.toList = (ofList pairs).forward.toList.map Prod.swap := by
  have hswapped : ((pairs.map Prod.swap).map Prod.fst).Nodup := by rwa [List.map_map]
  rw [backward_ofList hkeys, Dictionary.toList_ofList hswapped]
  exact congrArg (List.map Prod.swap) (toList_ofList hkeys).symm

theorem keys_backward_ofList :
    (ofList pairs).backward.keys = (pairs.map Prod.snd).eraseDups := by
  rw [backward_ofList hkeys, Dictionary.keys_ofList, List.map_map]
  rfl

theorem key?_ofList_eq_some_iff {key : α} {value : β} :
    (ofList pairs).key? value = some key ↔
      ∃ earlier later, pairs = earlier ++ (key, value) :: later ∧ value ∉ later.map Prod.snd := by
  have hswap : ∀ list : List (β × α), list.map (Prod.fst ∘ Prod.swap) = list.map Prod.snd := by
    intro list
    rfl
  rw [key?, backward_ofList hkeys, Dictionary.get?_ofList_eq_some_iff]
  constructor
  · rintro ⟨earlier, later, heq, hlast⟩
    refine ⟨earlier.map Prod.swap, later.map Prod.swap, ?_, ?_⟩
    · have hback := congrArg (List.map Prod.swap) heq
      simpa using hback
    · simpa using hlast
  · rintro ⟨earlier, later, rfl, hlast⟩
    exact ⟨earlier.map Prod.swap, later.map Prod.swap, by simp, by simpa using hlast⟩

theorem covering_ofList : (ofList pairs).Covering := by
  intro key value hvalue
  have hmem : value ∈ (ofList pairs).backward.keys := by
    rw [keys_backward_ofList hkeys, List.mem_eraseDups]
    have hentry := ((ofList pairs).forward.get?_eq_some_iff key value).mp hvalue
    rw [← toList, toList_ofList hkeys] at hentry
    exact List.mem_map_of_mem hentry
  rw [← Dictionary.contains_eq_true_iff, Dictionary.contains, Option.isSome_iff_exists] at hmem
  exact hmem

end Distinct

end Vernacular.Bimap
