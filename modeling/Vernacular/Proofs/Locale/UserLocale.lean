import Vernacular.Proofs.Locale.Forms

/-!
# The user's locale

The first variable decides whose value is neither empty nor set to no particular locale.  What is
taken from it has the form of registries.  Whether a value stands for no particular locale is asked
before its modifier is taken off, though, and whether it is empty before the first of several names
is cut out.  So a few values yield no name that anything is registered under, and hide the variables
after them.
-/

namespace Vernacular.LocaleName

/-! ## Values of variables -/

/-- The first of the names in a value, in the form of registries. -/
def told (value : String) : String := normalize (String.ofList (firstListed value.toList))

/-- A value that is passed over: empty, or set to no particular locale. -/
def Idle (value : String) : Prop := value = "" ∨ isPseudo (firstListed value.toList) = true

def nowhere : List String := ["C", "POSIX"]

/-- The name of some particular locale, in the form of registries and by itself. -/
def Proper (name : String) : Prop :=
  name ≠ "" ∧ name ∉ nowhere ∧ ∀ mark ∈ ':' :: marks, mark ∉ name.toList

instance : DecidablePred Proper := fun name =>
  haveI : Decidable (∀ mark ∈ ':' :: marks, mark ∉ name.toList) := List.decidableBAll _ _
  inferInstanceAs (Decidable (_ ∧ _ ∧ _))

/-- The first of the names in the variables that is a proper one. -/
def firstProper? (environment : String → Option String) : Option String :=
  environmentKeys.findSome? fun key =>
    ((environment key).map told).filter fun name => Proper name

variable {value name : String}

theorem named?_eq_none_iff : named? value = none ↔ Idle value := by
  simp only [named?, Idle]
  split <;> simp_all

theorem told_eq (value : String) :
    told value = String.ofList ((core (firstListed value.toList)).map hyphenate) := by
  rw [told, normalize, normalizeChars, String.toList_ofList]

theorem toList_told (value : String) :
    (told value).toList = (core (firstListed value.toList)).map hyphenate := by
  rw [told_eq, String.toList_ofList]

theorem named?_eq_some_iff : named? value = some name ↔ ¬Idle value ∧ told value = name := by
  simp only [named?, Idle, told_eq, normalizeChars]
  split <;> simp_all

theorem notMem_told (value : String) : ∀ mark ∈ ':' :: marks, mark ∉ (told value).toList := by
  intro mark hmark
  rcases List.mem_cons.mp hmark with rfl | hmark
  · rw [toList_told]
    intro hmem
    obtain ⟨c, hc, hcolon⟩ := List.mem_map.mp hmem
    have hlisted : c ≠ ':' := by
      simpa using List.mem_takeWhile_imp ((List.takeWhile_sublist _).subset hc)
    by_cases hline : c = '_' <;> simp_all [hyphenate]
  · exact notMem_normalize hmark _

/-! ## Values that slip through -/

/-- What values start with that are not passed over although there is no proper name in them. -/
def slips : List String := [":", ".", "@", "C@", "POSIX@"]

theorem prefix_of_firstListed {start list : List Char} (h : start <+: firstListed list) :
    start <+: list :=
  h.trans (List.takeWhile_prefix _)

theorem colon_prefix_of_firstListed_eq_nil {list : List Char} (hlist : list ≠ [])
    (h : firstListed list = []) : [':'] <+: list := by
  cases list with
  | nil => exact absurd rfl hlist
  | cons c rest =>
    have hcolon : c = ':' := by
      by_contra hc
      simp [firstListed, hc] at h
    exact ⟨rest, by simp [hcolon]⟩

theorem IsCore.prefix_at {part whole : List Char} (h : IsCore part whole) (hmore : whole ≠ part)
    (hpoint : ¬part ++ ['.'] <+: whole) : part ++ ['@'] <+: whole := by
  obtain ⟨rest, rfl, hrest⟩ := h.ends
  cases rest with
  | nil => exact absurd part.append_nil hmore
  | cons c later =>
    rcases hrest c rfl with rfl | rfl
    · exact absurd ⟨later, by simp⟩ hpoint
    · exact ⟨later, by simp⟩

theorem isPseudo_eq_true_iff {first : List Char} :
    isPseudo first = true ↔
      ∃ word ∈ nowhere, first = word.toList ∨ word.toList ++ ['.'] <+: first := by
  simp only [isPseudo, Bool.or_eq_true, decide_eq_true_eq, List.isPrefixOf_iff_prefix]
  constructor
  · rintro (((h | h) | h) | h)
    · exact ⟨"C", by decide, .inl h⟩
    · exact ⟨"POSIX", by decide, .inl h⟩
    · exact ⟨"C", by decide, .inr h⟩
    · exact ⟨"POSIX", by decide, .inr h⟩
  · rintro ⟨word, hword, h⟩
    simp only [nowhere, List.mem_cons, List.not_mem_nil, or_false] at hword
    rcases hword with rfl | rfl
    · exact .inl (h.imp .inl id)
    · exact h.elim (fun h => .inl (.inl (.inr h))) .inr

theorem isCore_of_told_eq {word : String} (hword : '-' ∉ word.toList) (h : told value = word) :
    IsCore word.toList (firstListed value.toList) := by
  rw [← core_eq_iff]
  exact eq_of_map_hyphenate hword (by rw [← toList_told, h])

theorem proper_told_iff : Proper (told value) ↔ told value ≠ "" ∧ told value ∉ nowhere :=
  ⟨fun h => ⟨h.1, h.2.1⟩, fun h => ⟨h.1, h.2, notMem_told value⟩⟩

theorem exists_slip_iff :
    (¬Idle value ∧ ¬Proper (told value)) ↔ ∃ start ∈ slips, start.toList <+: value.toList := by
  constructor
  -- The part before the first mark is known; as the value counts, so is the mark that ends it.
  · rintro ⟨hactive, himproper⟩
    obtain ⟨hfilled, hplace⟩ := not_or.mp hactive
    rw [proper_told_iff, not_and_or, not_not, not_not] at himproper
    rcases himproper with hempty | hnowhere
    · have hcore : IsCore [] (firstListed value.toList) := isCore_of_told_eq (by decide) hempty
      by_cases hfirst : firstListed value.toList = []
      · have hlist : value.toList ≠ [] := by simpa using hfilled
        exact ⟨":", by decide, colon_prefix_of_firstListed_eq_nil hlist hfirst⟩
      by_cases hpoint : ['.'] <+: firstListed value.toList
      · exact ⟨".", by decide, prefix_of_firstListed hpoint⟩
      · exact ⟨"@", by decide, prefix_of_firstListed (hcore.prefix_at hfirst hpoint)⟩
    · have hwords : ∀ word ∈ nowhere, '-' ∉ word.toList ∧ word ++ "@" ∈ slips := by decide
      obtain ⟨hhyphen, hslip⟩ := hwords _ hnowhere
      have hat := (isCore_of_told_eq hhyphen rfl).prefix_at
        (fun h => hplace (isPseudo_eq_true_iff.mpr ⟨_, hnowhere, .inl h⟩))
        (fun h => hplace (isPseudo_eq_true_iff.mpr ⟨_, hnowhere, .inr h⟩))
      exact ⟨told value ++ "@", hslip, by simpa using prefix_of_firstListed hat⟩
  · rintro ⟨start, hstart, tail, hvalue⟩
    have hfilled : value ≠ "" := by
      rintro rfl
      simp_all [slips]
    rw [Idle, told_eq, ← hvalue]
    simp only [slips, List.mem_cons, List.not_mem_nil, or_false] at hstart
    rcases hstart with rfl | rfl | rfl | rfl | rfl <;>
      simp [hfilled, firstListed, isPseudo, core, hyphenate, Proper, nowhere]

theorem told_mem_nowhere_of_isPseudo (h : isPseudo (firstListed value.toList) = true) :
    told value ∈ nowhere := by
  obtain ⟨word, hword, hfirst⟩ := isPseudo_eq_true_iff.mp h
  have hplain : ∀ word ∈ nowhere,
      '_' ∉ word.toList ∧ '.' ∉ word.toList ∧ '@' ∉ word.toList := by
    decide
  obtain ⟨hline, hends⟩ := hplain word hword
  have hcore : IsCore word.toList (firstListed value.toList) := by
    rcases hfirst with hwhole | ⟨rest, hrest⟩
    · exact ⟨hends, [], by simp [hwhole], by simp⟩
    · exact ⟨hends, '.' :: rest, by simp [← hrest], by simp⟩
  rwa [told_eq, hcore.core_eq, map_hyphenate_eq_self hline, String.ofList_toList]

theorem not_proper_of_idle (h : Idle value) : ¬Proper (told value) := by
  rw [proper_told_iff, not_and_or, not_not, not_not]
  rcases h with rfl | hplace
  · exact .inl (by decide)
  · exact .inr (told_mem_nowhere_of_isPseudo hplace)

/-! ## What is found -/

variable {environment : String → Option String} {key : String}

/-- The variable `key` is the first one that is not passed over, and `value` is what it holds. -/
structure Decides (environment : String → Option String) (key value : String) : Prop where
  held : environment key = some value
  active : ¬Idle value
  first : ∃ earlier later, environmentKeys = earlier ++ key :: later ∧
    ∀ other ∈ earlier, ∀ passed, environment other = some passed → Idle passed

/-- The value that decides is one of those that slip through. -/
def Misled (environment : String → Option String) : Prop :=
  ∃ key value, Decides environment key value ∧ ∃ start ∈ slips, start.toList <+: value.toList

theorem bind_named?_eq_none_iff :
    (environment key).bind named? = none ↔
      ∀ passed, environment key = some passed → Idle passed := by
  simp only [Option.bind_eq_none_iff, named?_eq_none_iff]

theorem system?_eq_some_iff :
    system? environment = some name ↔
      ∃ key value, Decides environment key value ∧ told value = name := by
  rw [system?, List.findSome?_eq_some_iff]
  constructor
  · rintro ⟨earlier, key, later, hkeys, hkey, hearlier⟩
    obtain ⟨value, hheld, hnamed⟩ := Option.bind_eq_some_iff.mp hkey
    obtain ⟨hactive, htold⟩ := named?_eq_some_iff.mp hnamed
    exact ⟨key, value, ⟨hheld, hactive, earlier, later, hkeys,
      fun other hother => bind_named?_eq_none_iff.mp (hearlier other hother)⟩, htold⟩
  · rintro ⟨key, value, ⟨hheld, hactive, earlier, later, hkeys, hearlier⟩, htold⟩
    refine ⟨earlier, key, later, hkeys, ?_,
      fun other hother => bind_named?_eq_none_iff.mpr (hearlier other hother)⟩
    rw [hheld, Option.bind_some]
    exact named?_eq_some_iff.mpr ⟨hactive, htold⟩

theorem filter_proper_eq_none (h : ∀ passed, environment key = some passed → Idle passed) :
    ((environment key).map told).filter (fun name => Proper name) = none := by
  cases hheld : environment key with
  | none => rfl
  | some value => simp [not_proper_of_idle (h value hheld)]

theorem proper_of_firstProper? (h : firstProper? environment = some name) : Proper name := by
  obtain ⟨key, -, hkey⟩ := List.exists_of_findSome?_eq_some h
  simpa using (Option.filter_eq_some_iff.mp hkey).2

theorem firstProper?_of_decides (h : Decides environment key value)
    (hproper : Proper (told value)) : firstProper? environment = some (told value) := by
  obtain ⟨earlier, later, hkeys, hearlier⟩ := h.first
  refine List.findSome?_eq_some_iff.mpr ⟨earlier, key, later, hkeys, ?_,
    fun other hother => filter_proper_eq_none (hearlier other hother)⟩
  simp [h.held, hproper]

theorem system?_eq_firstProper?_iff :
    system? environment = firstProper? environment ↔
      ∀ name, system? environment = some name → Proper name := by
  constructor
  · intro h name hname
    exact proper_of_firstProper? (h ▸ hname)
  · intro h
    cases hsystem : system? environment with
    | none =>
      rw [system?, List.findSome?_eq_none_iff] at hsystem
      refine (List.findSome?_eq_none_iff.mpr fun key hkey => ?_).symm
      exact filter_proper_eq_none (bind_named?_eq_none_iff.mp (hsystem key hkey))
    | some name =>
      obtain ⟨key, value, hdecides, rfl⟩ := system?_eq_some_iff.mp hsystem
      exact (firstProper?_of_decides hdecides (h _ hsystem)).symm

theorem proper_system?_iff :
    (∀ name, system? environment = some name → Proper name) ↔ ¬Misled environment := by
  constructor
  · rintro h ⟨key, value, hdecides, hslip⟩
    have himproper := (exists_slip_iff.mpr hslip).2
    exact himproper (h _ (system?_eq_some_iff.mpr ⟨key, value, hdecides, rfl⟩))
  · intro h name hname
    obtain ⟨key, value, hdecides, rfl⟩ := system?_eq_some_iff.mp hname
    by_contra himproper
    exact h ⟨key, value, hdecides, exists_slip_iff.mp ⟨hdecides.active, himproper⟩⟩

/-- The variable that decides gives the name, which has the form of registries.  It is a proper one,
and the first of those that the variables give, unless the value is one of those that slip
through. -/
theorem system?_proper_iff (environment : String → Option String) :
    (∀ name, system? environment = some name ↔
      ∃ key value, Decides environment key value ∧ told value = name) ∧
    (∀ name, system? environment = some name → ∀ mark ∈ ':' :: marks, mark ∉ name.toList) ∧
    ((∀ name, system? environment = some name → Proper name) ↔ ¬Misled environment) ∧
    (system? environment = firstProper? environment ↔ ¬Misled environment) := by
  refine ⟨fun _ => system?_eq_some_iff, fun name hname => ?_, proper_system?_iff,
    system?_eq_firstProper?_iff.trans proper_system?_iff⟩
  obtain ⟨key, value, -, rfl⟩ := system?_eq_some_iff.mp hname
  exact notMem_told value

/-- With a modifier, the name of no particular locale is taken for one and hides the next one. -/
theorem not_proper_of_modifier :
    let environment := fun key => [("LC_ALL", "C@euro"), ("LANG", "es_AR.UTF-8")].lookup key
    system? environment = some "C" ∧ ¬Proper "C" ∧ firstProper? environment = some "es-AR" := by
  decide +kernel

end Vernacular.LocaleName
