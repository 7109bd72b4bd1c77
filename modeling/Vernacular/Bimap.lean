import Vernacular.Dictionary

/-!
# Two-way dictionaries

A `Bimap` answers by key and by value.  Several keys may share a value; read backwards, the value
then answers only the key that was written last.
-/

namespace Vernacular

structure Bimap (α β : Type) where
  forward : Dictionary α β
  backward : Dictionary β α

namespace Bimap

variable {α β : Type}

def empty : Bimap α β := ⟨.empty, .empty⟩

instance : Inhabited (Bimap α β) := ⟨empty⟩

def size (m : Bimap α β) : Nat := m.forward.size

def toList (m : Bimap α β) : List (α × β) := m.forward.toList

/-- The entries read forward, as text. -/
def describe (showKey : α → String) (showValue : β → String) (m : Bimap α β) : String :=
  let pairs := m.toList.map (fun entry => s!"({showKey entry.1}, {showValue entry.2})")
  let listed := ", ".intercalate pairs
  s!"BidirectionalMap([{listed}])"

variable [DecidableEq α] [DecidableEq β]

def value? (m : Bimap α β) (key : α) : Option β := m.forward.get? key

def key? (m : Bimap α β) (value : β) : Option α := m.backward.get? value

def hasKey (m : Bimap α β) (key : α) : Bool := m.forward.contains key

def hasValue (m : Bimap α β) (value : β) : Bool := m.backward.contains value

/-- The backward dictionary once `key` gives up the value it holds; a value that answers another
key keeps its answer. -/
def backwardWithout (m : Bimap α β) (key : α) : Dictionary β α :=
  match m.value? key with
  | some held => if m.key? held = some key then m.backward.erase held else m.backward
  | none => m.backward

/-- Gives `key` the value `value`.  The value that `key` held no longer answers it. -/
def insert (m : Bimap α β) (key : α) (value : β) : Bimap α β :=
  ⟨m.forward.insert key value, (m.backwardWithout key).insert value key⟩

/-- Lets `value` answer `key`.  The value that `key` held no longer answers it, and the key that
`value` answered loses its entry. -/
def insertBackward (m : Bimap α β) (value : β) (key : α) : Bimap α β :=
  let backward := m.backwardWithout key
  let forward :=
    match backward.get? value with
    | some holder =>
      if m.value? holder = some value then m.forward.erase holder else m.forward
    | none => m.forward
  ⟨forward.insert key value, backward.insert value key⟩

/-- Inserts the pairs in order, so the last pair wins in both directions. -/
def ofList (pairs : List (α × β)) : Bimap α β :=
  pairs.foldl (fun m pair => m.insert pair.1 pair.2) empty

/-- Another map with the same two dictionaries, which goes its own way from here. -/
def copy (m : Bimap α β) : Bimap α β := ⟨m.forward, m.backward⟩

/-- Two maps agree when they hold the same entries read forward, in whatever order. -/
def agrees (m n : Bimap α β) : Bool := m.forward.sameEntries n.forward

@[grind =] theorem value?_insert (m : Bimap α β) (key other : α) (value : β) :
    (m.insert key value).value? other = if key = other then some value else m.value? other :=
  m.forward.get?_insert key other value

theorem get?_backwardWithout (m : Bimap α β) (key : α) (value : β) :
    (m.backwardWithout key).get? value =
      if m.value? key = some value ∧ m.key? value = some key then none else m.key? value := by
  unfold backwardWithout
  cases hheld : m.value? key with
  | none => simp [key?]
  | some held =>
    have hget : m.backward.get? value = m.key? value := rfl
    by_cases hvalue : held = value
    · subst hvalue
      by_cases hanswer : m.key? held = some key
      · simp only [hanswer, if_true, Dictionary.get?_erase, and_self]
      · simp only [hanswer, if_false, and_false, hget]
    · by_cases hanswer : m.key? held = some key
      · simp only [hanswer, if_true, Dictionary.get?_erase, hvalue, if_false, Option.some.injEq,
          false_and, hget]
      · simp only [hanswer, if_false, Option.some.injEq, hvalue, false_and, hget]

@[grind =] theorem key?_insert (m : Bimap α β) (key : α) (value other : β) :
    (m.insert key value).key? other =
      if value = other then some key
      else if m.value? key = some other ∧ m.key? other = some key then none
      else m.key? other := by
  rw [← get?_backwardWithout]
  exact (m.backwardWithout key).get?_insert value other key

/-- Read backward, both ways of writing a pair do the same. -/
theorem key?_insertBackward (m : Bimap α β) (key : α) (value other : β) :
    (m.insertBackward value key).key? other = (m.insert key value).key? other := rfl

theorem value?_insertBackward (m : Bimap α β) (key other : α) (value : β) :
    (m.insertBackward value key).value? other =
      if key = other then some value
      else if m.key? value = some other ∧ m.value? other = some value then none
      else m.value? other := by
  rw [value?, insertBackward, Dictionary.get?_insert, get?_backwardWithout]
  have hget : m.forward.get? other = m.value? other := rfl
  by_cases hother : key = other
  · rw [if_pos hother, if_pos hother]
  rw [if_neg hother, if_neg hother]
  by_cases hown : m.value? key = some value ∧ m.key? value = some key
  -- The value answers the key already, so no other key loses its entry.
  · simp [hown, hother, hget]
  · rw [if_neg hown]
    cases hanswer : m.key? value with
    | none => simp [hget]
    | some holder =>
      by_cases hheld : m.value? holder = some value
      · by_cases hholder : holder = other
        · simp [hheld, Dictionary.get?_erase, ← hholder]
        · simp [hheld, Dictionary.get?_erase, hholder, hget]
      · have hkept : ¬(holder = other ∧ m.value? other = some value) := by
          rintro ⟨rfl, h⟩
          exact hheld h
        simp only [hheld, if_false, Option.some.injEq, hkept, hget]

end Bimap

end Vernacular
