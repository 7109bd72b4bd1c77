/-!
# Dictionaries in order of first insertion

A `Dictionary` holds one value for each of finitely many keys and remembers the order in which the
keys first appeared: replacing a value leaves its key where it is.  The main statements say what
`insert` and `erase` do to look-ups and to the list of keys.
-/

namespace Vernacular

/-! ## Lists of entries -/

namespace Entries

variable {α β : Type} [DecidableEq α]

def find? (key : α) : List (α × β) → Option β
  | [] => none
  | (k, value) :: rest => if k = key then some value else find? key rest

/-- Replaces the value of a key in place, or appends a new entry. -/
def put (key : α) (value : β) : List (α × β) → List (α × β)
  | [] => [(key, value)]
  | (k, old) :: rest =>
    if k = key then (k, value) :: rest else (k, old) :: put key value rest

def remove (key : α) (entries : List (α × β)) : List (α × β) :=
  entries.filter (fun entry => entry.1 ≠ key)

theorem find?_put (key other : α) (value : β) (entries : List (α × β)) :
    find? other (put key value entries) =
      if key = other then some value else find? other entries := by
  induction entries with
  | nil => simp [put, find?]
  | cons entry rest ih =>
    obtain ⟨k, old⟩ := entry
    by_cases hk : k = key
    · subst hk
      by_cases ho : k = other <;> simp [put, find?, ho]
    · by_cases ho : k = other
      · subst ho
        have hne : key ≠ k := fun h => hk h.symm
        simp [put, find?, hk, hne]
      · simp [put, find?, hk, ho, ih]

theorem find?_remove (key other : α) (entries : List (α × β)) :
    find? other (remove key entries) = if key = other then none else find? other entries := by
  induction entries with
  | nil => simp [remove, find?]
  | cons entry rest ih =>
    obtain ⟨k, old⟩ := entry
    rw [remove] at ih
    by_cases hk : k = key
    · subst hk
      by_cases ho : k = other <;> simp_all [remove, find?]
    · by_cases ho : k = other
      · subst ho
        have hne : key ≠ k := fun h => hk h.symm
        simp [remove, find?, hk, hne]
      · simp_all [remove, find?]

theorem find?_eq_none_iff (key : α) (entries : List (α × β)) :
    find? key entries = none ↔ key ∉ entries.map Prod.fst := by
  induction entries with
  | nil => simp [find?]
  | cons entry rest ih =>
    obtain ⟨k, old⟩ := entry
    by_cases hk : k = key
    · simp [find?, hk]
    · have hne : key ≠ k := fun h => hk h.symm
      simp [find?, hk, ih, hne]

theorem mem_of_find? {key : α} {value : β} {entries : List (α × β)}
    (h : find? key entries = some value) : (key, value) ∈ entries := by
  induction entries with
  | nil => simp [find?] at h
  | cons entry rest ih =>
    obtain ⟨k, old⟩ := entry
    by_cases hk : k = key
    · simp_all [find?]
    · simp only [find?, hk, if_false] at h
      exact List.mem_cons_of_mem _ (ih h)

theorem find?_of_mem {key : α} {value : β} {entries : List (α × β)}
    (hkeys : (entries.map Prod.fst).Nodup) (h : (key, value) ∈ entries) :
    find? key entries = some value := by
  induction entries with
  | nil => simp at h
  | cons entry rest ih =>
    obtain ⟨k, old⟩ := entry
    simp only [List.map_cons, List.nodup_cons] at hkeys
    rcases List.mem_cons.mp h with heq | hrest
    · obtain ⟨rfl, rfl⟩ := Prod.mk.inj heq
      simp [find?]
    · have hne : k ≠ key := by
        rintro rfl
        exact hkeys.1 (List.mem_map_of_mem hrest)
      simp [find?, hne, ih hkeys.2 hrest]

theorem keys_put (key : α) (value : β) (entries : List (α × β)) :
    (put key value entries).map Prod.fst =
      if key ∈ entries.map Prod.fst then entries.map Prod.fst
      else entries.map Prod.fst ++ [key] := by
  induction entries with
  | nil => simp [put]
  | cons entry rest ih =>
    obtain ⟨k, old⟩ := entry
    by_cases hk : k = key
    · subst hk
      simp [put]
    · have hne : key ≠ k := fun h => hk h.symm
      by_cases hmem : key ∈ rest.map Prod.fst
      · simp only [put, hk, if_false, List.map_cons, ih, hmem, if_true, List.mem_cons, or_true]
      · simp only [put, hk, if_false, List.map_cons, ih, hmem, List.mem_cons, hne, or_self,
          List.cons_append]

theorem nodup_put (key : α) (value : β) {entries : List (α × β)}
    (h : (entries.map Prod.fst).Nodup) : ((put key value entries).map Prod.fst).Nodup := by
  rw [keys_put]
  split
  · exact h
  · next hmem =>
    rw [List.nodup_append]
    refine ⟨h, by simp, ?_⟩
    intro a ha b hb hab
    rw [List.mem_singleton] at hb
    subst hb hab
    exact hmem ha

theorem keys_remove (key : α) (entries : List (α × β)) :
    (remove key entries).map Prod.fst = (entries.map Prod.fst).filter (· ≠ key) := by
  rw [remove, List.filter_map]
  rfl

theorem nodup_remove (key : α) {entries : List (α × β)}
    (h : (entries.map Prod.fst).Nodup) : ((remove key entries).map Prod.fst).Nodup := by
  rw [keys_remove]
  exact h.filter _

end Entries

/-! ## Dictionaries -/

/-- Entries in the order in which their keys first appeared. -/
structure Dictionary (α β : Type) where
  entries : List (α × β)
  nodup_keys : (entries.map Prod.fst).Nodup

namespace Dictionary

variable {α β : Type}

def empty : Dictionary α β := ⟨[], List.nodup_nil⟩

instance : Inhabited (Dictionary α β) := ⟨empty⟩

def toList (d : Dictionary α β) : List (α × β) := d.entries

def keys (d : Dictionary α β) : List α := d.entries.map Prod.fst

def values (d : Dictionary α β) : List β := d.entries.map Prod.snd

def size (d : Dictionary α β) : Nat := d.entries.length

@[simp] theorem keys_empty : (empty : Dictionary α β).keys = [] := rfl

theorem eq_of_toList_eq {d e : Dictionary α β} (h : d.toList = e.toList) : d = e := by
  cases d
  cases e
  cases h
  rfl

variable [DecidableEq α]

def get? (d : Dictionary α β) (key : α) : Option β := Entries.find? key d.entries

def contains (d : Dictionary α β) (key : α) : Bool := (d.get? key).isSome

def insert (d : Dictionary α β) (key : α) (value : β) : Dictionary α β :=
  ⟨Entries.put key value d.entries, Entries.nodup_put key value d.nodup_keys⟩

def erase (d : Dictionary α β) (key : α) : Dictionary α β :=
  ⟨Entries.remove key d.entries, Entries.nodup_remove key d.nodup_keys⟩

/-- A repeated key keeps its first place and takes its last value. -/
def ofList (entries : List (α × β)) : Dictionary α β :=
  entries.foldl (fun d entry => d.insert entry.1 entry.2) empty

/-- The same keys with the same values, in whatever order. -/
def sameEntries [DecidableEq β] (d e : Dictionary α β) : Bool :=
  d.size == e.size && d.entries.all (fun entry => e.get? entry.1 == some entry.2)

@[simp] theorem get?_empty (key : α) : (empty : Dictionary α β).get? key = none := rfl

@[grind =] theorem get?_insert (d : Dictionary α β) (key other : α) (value : β) :
    (d.insert key value).get? other = if key = other then some value else d.get? other :=
  Entries.find?_put key other value d.entries

@[grind =] theorem get?_erase (d : Dictionary α β) (key other : α) :
    (d.erase key).get? other = if key = other then none else d.get? other :=
  Entries.find?_remove key other d.entries

@[grind =] theorem keys_insert (d : Dictionary α β) (key : α) (value : β) :
    (d.insert key value).keys = if key ∈ d.keys then d.keys else d.keys ++ [key] :=
  Entries.keys_put key value d.entries

@[grind =] theorem keys_erase (d : Dictionary α β) (key : α) :
    (d.erase key).keys = d.keys.filter (· ≠ key) :=
  Entries.keys_remove key d.entries

@[grind =] theorem contains_insert (d : Dictionary α β) (key other : α) (value : β) :
    (d.insert key value).contains other = (decide (key = other) || d.contains other) := by
  rw [contains, contains, get?_insert]
  split <;> simp_all

theorem get?_eq_some_iff (d : Dictionary α β) (key : α) (value : β) :
    d.get? key = some value ↔ (key, value) ∈ d.toList :=
  ⟨Entries.mem_of_find?, Entries.find?_of_mem d.nodup_keys⟩

theorem get?_eq_none_iff (d : Dictionary α β) (key : α) :
    d.get? key = none ↔ key ∉ d.keys :=
  Entries.find?_eq_none_iff key d.entries

theorem contains_eq_true_iff (d : Dictionary α β) (key : α) :
    d.contains key = true ↔ key ∈ d.keys := by
  rw [contains, Option.isSome_iff_ne_none, ne_eq, get?_eq_none_iff, Decidable.not_not]

end Dictionary

end Vernacular
