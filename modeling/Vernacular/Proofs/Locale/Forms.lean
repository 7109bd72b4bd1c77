import Mathlib.Data.List.TakeWhile
import Vernacular.Locale.Name

/-!
# The two forms of a name

A name is written in one way in registries and in another by operating systems.  Both come from the
part of the name before its first point or at sign, one character after the other, and each can be
had from the other.  So two names agree in one form exactly if they agree in the other.
-/

namespace Vernacular.LocaleName

/-! ## The part that both forms come from -/

/-- `part` is what stands in `name` before its first point or at sign, or all of it. -/
structure IsCore (part name : List Char) : Prop where
  plain : '.' ∉ part ∧ '@' ∉ part
  ends : ∃ rest, name = part ++ rest ∧ ∀ c ∈ rest.head?, c = '.' ∨ c = '@'

theorem isCore_core (name : List Char) : IsCore (core name) name := by
  constructor
  · constructor
    · exact fun hmem => absurd (List.mem_takeWhile_imp hmem) (by decide)
    · exact fun hmem => absurd (List.mem_takeWhile_imp hmem) (by decide)
  · refine ⟨name.dropWhile _, List.takeWhile_append_dropWhile.symm, fun c hc => ?_⟩
    have hstop := List.head?_dropWhile_not (fun c => c ≠ '.' && c ≠ '@') name
    rw [Option.mem_def.mp hc] at hstop
    simpa [or_iff_not_imp_left] using hstop

theorem IsCore.core_eq {part name : List Char} (h : IsCore part name) : core name = part := by
  obtain ⟨rest, rfl, hrest⟩ := h.ends
  have hplain : ∀ c ∈ part, (c ≠ '.' && c ≠ '@') = true := by
    intro c hc
    simp [ne_of_mem_of_not_mem hc h.plain.1, ne_of_mem_of_not_mem hc h.plain.2]
  have hnone : core rest = [] := by
    cases rest with
    | nil => rfl
    | cons c later => rcases hrest c rfl with rfl | rfl <;> rfl
  rw [core, List.takeWhile_append_of_pos hplain]
  exact (congrArg (part ++ ·) hnone).trans part.append_nil

theorem core_eq_iff {part name : List Char} : core name = part ↔ IsCore part name :=
  ⟨fun h => h ▸ isCore_core name, IsCore.core_eq⟩

theorem core_eq_self {name : List Char} (hpoint : '.' ∉ name) (hat : '@' ∉ name) :
    core name = name :=
  IsCore.core_eq ⟨⟨hpoint, hat⟩, [], by simp, by simp⟩

/-! ## Characters -/

theorem underscore_hyphenate (c : Char) : underscore (hyphenate c) = underscore c := by
  by_cases hline : c = '_' <;> simp [hyphenate, underscore, hline]

theorem hyphenate_underscore (c : Char) : hyphenate (underscore c) = hyphenate c := by
  by_cases hhyphen : c = '-' <;> simp [hyphenate, underscore, hhyphen]

theorem map_hyphenate_eq_self {part : List Char} (h : '_' ∉ part) : part.map hyphenate = part := by
  have hid : ∀ c ∈ part, hyphenate c = id c := by
    intro c hc
    have hline : c ≠ '_' := ne_of_mem_of_not_mem hc h
    simp [hyphenate, hline]
  rw [List.map_congr_left hid, List.map_id]

theorem eq_of_map_hyphenate {part word : List Char} (hword : '-' ∉ word)
    (h : part.map hyphenate = word) : part = word := by
  have hline : '_' ∉ part := by
    intro hmem
    exact hword (h ▸ List.mem_map_of_mem (f := hyphenate) hmem)
  rw [← h, map_hyphenate_eq_self hline]

/-! ## What the forms do not hold -/

/-- The characters that a name in the form of registries does not hold. -/
def marks : List Char := ['.', '@', '_']

/-- The characters that a name in the form of operating systems does not hold. -/
def posixMarks : List Char := ['.', '@', '-']

theorem toList_normalize (name : String) :
    (normalize name).toList = (core name.toList).map hyphenate := String.toList_ofList

theorem toList_toPosix (name : String) :
    (toPosix name).toList = (core name.toList).map underscore := by
  simp [toPosix, posixChars, normalizeChars, Function.comp_def, underscore_hyphenate]

theorem notMem_map_core {mark old new : Char} (hmark : mark ∈ ['.', '@', old])
    (hnew : new ∉ ['.', '@', old]) (name : List Char) :
    mark ∉ (core name).map fun c => if c = old then new else c := by
  intro hmem
  obtain ⟨c, hc, rfl⟩ := List.mem_map.mp hmem
  obtain ⟨hpoint, hat⟩ := (isCore_core name).plain
  have hends : c ≠ '.' ∧ c ≠ '@' :=
    ⟨ne_of_mem_of_not_mem hc hpoint, ne_of_mem_of_not_mem hc hat⟩
  split at hmark
  · exact hnew hmark
  · next hold => simp [hends, hold] at hmark

theorem notMem_normalize {mark : Char} (hmark : mark ∈ marks) (name : String) :
    mark ∉ (normalize name).toList := by
  rw [toList_normalize]
  exact notMem_map_core hmark (by decide) name.toList

theorem notMem_toPosix {mark : Char} (hmark : mark ∈ posixMarks) (name : String) :
    mark ∉ (toPosix name).toList := by
  rw [toList_toPosix]
  exact notMem_map_core hmark (by decide) name.toList

theorem normalize_eq_self_iff {name : String} :
    normalize name = name ↔ ∀ mark ∈ marks, mark ∉ name.toList := by
  constructor
  · intro h mark hmark
    rw [← h]
    exact notMem_normalize hmark name
  · intro h
    have hcore := core_eq_self (h '.' (by decide)) (h '@' (by decide))
    have hkept := map_hyphenate_eq_self (h '_' (by decide))
    rw [normalize, normalizeChars, hcore, hkept, String.ofList_toList]

/-! ## From one form to the other -/

theorem normalize_normalize (name : String) : normalize (normalize name) = normalize name :=
  normalize_eq_self_iff.mpr fun _ hmark => notMem_normalize hmark name

theorem toPosix_normalize (name : String) : toPosix (normalize name) = toPosix name := by
  have hcore : core (normalize name).toList = (normalize name).toList :=
    core_eq_self (notMem_normalize (by decide) name) (notMem_normalize (by decide) name)
  rw [← String.toList_inj, toList_toPosix, toList_toPosix, hcore, toList_normalize, List.map_map]
  exact List.map_congr_left fun c _ => underscore_hyphenate c

theorem normalize_toPosix (name : String) : normalize (toPosix name) = normalize name := by
  have hcore : core (toPosix name).toList = (toPosix name).toList :=
    core_eq_self (notMem_toPosix (by decide) name) (notMem_toPosix (by decide) name)
  rw [← String.toList_inj, toList_normalize, toList_normalize, hcore, toList_toPosix, List.map_map]
  exact List.map_congr_left fun c _ => hyphenate_underscore c

theorem toPosix_toPosix (name : String) : toPosix (toPosix name) = toPosix name := by
  rw [← toPosix_normalize (toPosix name), normalize_toPosix, toPosix_normalize]

theorem normalize_eq_iff_toPosix_eq {name other : String} :
    normalize name = normalize other ↔ toPosix name = toPosix other := by
  constructor
  · intro h
    rw [← toPosix_normalize name, h, toPosix_normalize]
  · intro h
    rw [← normalize_toPosix name, h, normalize_toPosix]

theorem length_normalize (name : String) :
    (normalize name).length = (core name.toList).length := by
  rw [← String.length_toList, toList_normalize, List.length_map]

theorem length_toPosix (name : String) : (toPosix name).length = (core name.toList).length := by
  rw [← String.length_toList, toList_toPosix, List.length_map]

/-- Each form is a fixed point, leads to the other, and has the length of the part that it comes
from, so both tell the same names apart. -/
theorem forms_of_name (name : String) :
    normalize (normalize name) = normalize name ∧ toPosix (toPosix name) = toPosix name ∧
      toPosix (normalize name) = toPosix name ∧ normalize (toPosix name) = normalize name ∧
      (∀ mark ∈ marks, mark ∉ (normalize name).toList) ∧
      (∀ mark ∈ posixMarks, mark ∉ (toPosix name).toList) ∧
      (∃ part, IsCore part name.toList ∧
        (normalize name).length = part.length ∧ (toPosix name).length = part.length ∧
        (normalize name).toList = part.map hyphenate ∧
        (toPosix name).toList = part.map underscore) ∧
      ∀ other, normalize name = normalize other ↔ toPosix name = toPosix other := by
  refine ⟨normalize_normalize name, toPosix_toPosix name, toPosix_normalize name,
    normalize_toPosix name, fun _ hmark => notMem_normalize hmark name,
    fun _ hmark => notMem_toPosix hmark name, ?_, fun _ => normalize_eq_iff_toPosix_eq⟩
  exact ⟨core name.toList, isCore_core name.toList, length_normalize name, length_toPosix name,
    toList_normalize name, toList_toPosix name⟩

end Vernacular.LocaleName
