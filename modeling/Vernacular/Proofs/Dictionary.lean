import Mathlib.Data.List.Induction
import Mathlib.Data.List.Nodup
import Mathlib.Data.List.Perm.Subperm
import Vernacular.Dictionary

/-!
# Dictionaries built from pairs

The pairs go in one after the other.  A key stands where it first went in and has the value that it
was given last.  Two dictionaries have the same entries if they answer all keys alike.
-/

namespace Vernacular

namespace Entries

variable {α β : Type} [DecidableEq α]

theorem put_of_notMem {key : α} (value : β) {entries : List (α × β)}
    (h : key ∉ entries.map Prod.fst) : put key value entries = entries ++ [(key, value)] := by
  induction entries with
  | nil => rfl
  | cons entry rest ih =>
    obtain ⟨k, old⟩ := entry
    rw [List.map_cons, List.mem_cons, not_or] at h
    have hne : ¬k = key := fun heq => h.1 heq.symm
    simp [put, hne, ih h.2]

end Entries

namespace Dictionary

variable {α β : Type}

theorem nodup_toList (d : Dictionary α β) : d.toList.Nodup := d.nodup_keys.of_map

theorem mem_keys_of_mem {d : Dictionary α β} {entry : α × β} (h : entry ∈ d.toList) :
    entry.1 ∈ d.keys :=
  List.mem_map_of_mem h

theorem mem_values_of_mem {d : Dictionary α β} {entry : α × β} (h : entry ∈ d.toList) :
    entry.2 ∈ d.values :=
  List.mem_map_of_mem h

variable [DecidableEq α]

theorem mem_values_iff {d : Dictionary α β} {value : β} :
    value ∈ d.values ↔ ∃ key, d.get? key = some value := by
  constructor
  · intro h
    obtain ⟨⟨key, held⟩, hentry, rfl⟩ := List.mem_map.mp h
    exact ⟨key, (d.get?_eq_some_iff key held).mpr hentry⟩
  · rintro ⟨key, hget⟩
    exact mem_values_of_mem ((d.get?_eq_some_iff key value).mp hget)

theorem mem_keys_of_get? {d : Dictionary α β} {key : α} {value : β} (h : d.get? key = some value) :
    key ∈ d.keys :=
  mem_keys_of_mem ((d.get?_eq_some_iff key value).mp h)

theorem toList_insert_of_notMem (d : Dictionary α β) {key : α} (value : β) (h : key ∉ d.keys) :
    (d.insert key value).toList = d.toList ++ [(key, value)] :=
  Entries.put_of_notMem value h

theorem get?_eq_get?_iff_perm {d e : Dictionary α β} :
    (∀ key, d.get? key = e.get? key) ↔ d.toList.Perm e.toList := by
  rw [List.perm_ext_iff_of_nodup d.nodup_toList e.nodup_toList]
  constructor
  · rintro h ⟨key, value⟩
    rw [← get?_eq_some_iff, ← get?_eq_some_iff, h]
  · intro h key
    refine Option.ext fun value => ?_
    rw [get?_eq_some_iff, get?_eq_some_iff, h]

theorem sameEntries_eq_true_iff [DecidableEq β] {d e : Dictionary α β} :
    d.sameEntries e = true ↔ ∀ key, d.get? key = e.get? key := by
  have hentries : (d.entries.all fun entry => e.get? entry.1 == some entry.2) = true ↔
      d.toList ⊆ e.toList := by
    rw [List.all_eq_true]
    refine forall₂_congr fun entry _ => ?_
    rw [beq_iff_eq, get?_eq_some_iff]
  rw [sameEntries, Bool.and_eq_true, beq_iff_eq, hentries, get?_eq_get?_iff_perm]
  constructor
  -- No entry of `d` stands twice: when all are in `e` and they are as many, none of `e` is left.
  · rintro ⟨hsize, hsubset⟩
    exact (d.nodup_toList.subperm hsubset).perm_of_length_le (Nat.le_of_eq hsize.symm)
  · intro h
    exact ⟨h.length_eq, h.subset⟩

/-! ## Building from pairs -/

theorem ofList_concat (pairs : List (α × β)) (pair : α × β) :
    ofList (pairs ++ [pair]) = (ofList pairs).insert pair.1 pair.2 := by
  simp [ofList]

theorem keys_ofList (pairs : List (α × β)) :
    (ofList pairs).keys = (pairs.map Prod.fst).eraseDups := by
  induction pairs using List.reverseRecOn with
  | nil => rfl
  | append_singleton pairs pair ih =>
    rw [ofList_concat, keys_insert, ih, List.map_append, List.eraseDups_append]
    by_cases hmem : pair.1 ∈ pairs.map Prod.fst
    · simp [List.mem_eraseDups, hmem, List.removeAll]
    · simp [List.mem_eraseDups, hmem, List.removeAll, List.eraseDups_cons]

theorem toList_ofList {pairs : List (α × β)} (h : (pairs.map Prod.fst).Nodup) :
    (ofList pairs).toList = pairs := by
  induction pairs using List.reverseRecOn with
  | nil => rfl
  | append_singleton pairs pair ih =>
    rw [List.map_append, List.nodup_append] at h
    obtain ⟨hkeys, -, hnew⟩ := h
    have hfresh : pair.1 ∉ (ofList pairs).keys := by
      change pair.1 ∉ (ofList pairs).toList.map Prod.fst
      rw [ih hkeys]
      exact fun hmem => hnew _ hmem _ (by simp) rfl
    rw [ofList_concat, toList_insert_of_notMem _ _ hfresh, ih hkeys]

theorem ofList_toList (d : Dictionary α β) : ofList d.toList = d :=
  eq_of_toList_eq (toList_ofList d.nodup_keys)

theorem get?_ofList (pairs : List (α × β)) (key : α) :
    (ofList pairs).get? key = Entries.find? key pairs.reverse := by
  induction pairs using List.reverseRecOn with
  | nil => rfl
  | append_singleton pairs pair ih =>
    rw [ofList_concat, get?_insert, ih, List.reverse_append]
    rfl

/-- A key has the value of the last pair that it is in. -/
theorem get?_ofList_eq_some_iff {pairs : List (α × β)} {key : α} {value : β} :
    (ofList pairs).get? key = some value ↔
      ∃ earlier later, pairs = earlier ++ (key, value) :: later ∧ key ∉ later.map Prod.fst := by
  induction pairs using List.reverseRecOn with
  | nil => simp [ofList]
  | append_singleton pairs pair ih =>
    rw [ofList_concat, get?_insert]
    constructor
    · intro h
      split at h
      · next hkey =>
        refine ⟨pairs, [], ?_, by simp⟩
        rw [← hkey, ← Option.some.inj h]
      · next hkey =>
        obtain ⟨earlier, later, rfl, hlast⟩ := ih.mp h
        refine ⟨earlier, later ++ [pair], by simp, ?_⟩
        rw [List.map_append, List.mem_append, not_or]
        exact ⟨hlast, by simpa using fun heq => hkey heq.symm⟩
    · rintro ⟨earlier, later, heq, hlast⟩
      rcases List.eq_nil_or_concat later with rfl | ⟨later, final, rfl⟩
      · obtain ⟨-, hpair⟩ := List.append_inj' heq rfl
        obtain rfl := List.singleton_inj.mp hpair
        simp
      · rw [List.concat_eq_append] at heq hlast
        rw [← List.cons_append, ← List.append_assoc] at heq
        obtain ⟨hpairs, hpair⟩ := List.append_inj' heq rfl
        obtain rfl := List.singleton_inj.mp hpair
        rw [List.map_append, List.mem_append, not_or] at hlast
        have hkey : ¬pair.1 = key := fun heq => hlast.2 (by simp [heq])
        rw [if_neg hkey]
        exact ih.mpr ⟨earlier, later, hpairs, hlast.1⟩

theorem forall_values_ofList {pairs : List (α × β)} {holds : β → Prop}
    (h : ∀ pair ∈ pairs, holds pair.2) : ∀ value ∈ (ofList pairs).values, holds value := by
  intro value hvalue
  obtain ⟨key, hget⟩ := mem_values_iff.mp hvalue
  obtain ⟨earlier, later, rfl, -⟩ := get?_ofList_eq_some_iff.mp hget
  exact h (key, value) (by simp)

end Dictionary

end Vernacular
