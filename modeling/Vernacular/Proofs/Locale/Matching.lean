import Vernacular.Proofs.Dictionary
import Vernacular.Proofs.Locale.Forms
import Vernacular.Proofs.Text.Lowercase

/-!
# The name that is picked

Names are brought into the form of registries before one is picked, so what is picked has that form.
-/

namespace Vernacular.LocaleName

theorem isMark_of_mem_marks {mark : Char} (h : mark ∈ marks) : Text.IsMark mark := by
  simp only [marks, List.mem_cons, List.not_mem_nil, or_false] at h
  rcases h with rfl | rfl | rfl <;> decide

section
variable {names : List String} {wanted found : String}

theorem lower_of_match? (h : match? names wanted = some found) :
    Text.lower found = Text.lower wanted := by
  unfold match? at h
  split at h
  · cases h
    rfl
  · obtain ⟨earlier, later, heq, -⟩ := Dictionary.get?_ofList_eq_some_iff.mp h
    have hmem : (Text.lower wanted, found) ∈ names.map fun name => (Text.lower name, name) := by
      simp [heq]
    obtain ⟨name, -, hname⟩ := List.mem_map.mp hmem
    obtain ⟨hlower, rfl⟩ := Prod.mk.inj hname
    exact hlower

theorem normalize_of_match? (hwanted : ∀ mark ∈ marks, mark ∉ wanted.toList)
    (h : match? names wanted = some found) : normalize found = found := by
  rw [normalize_eq_self_iff]
  intro mark hmark
  have hplain := isMark_of_mem_marks hmark
  rw [← Text.mem_lower_iff hplain, lower_of_match? h, Text.mem_lower_iff hplain]
  exact hwanted mark hmark

theorem normalize_of_bestMatch (h : bestMatch wanted names = some found) :
    normalize found = found := by
  rcases Option.or_eq_some_iff.mp h with hname | ⟨-, hlanguage⟩
  · exact normalize_of_match? (fun _ hmark => notMem_normalize hmark wanted) hname
  · refine normalize_of_match? (fun mark hmark hmem => ?_) hlanguage
    rw [language, String.toList_ofList] at hmem
    exact notMem_normalize hmark wanted ((List.takeWhile_sublist _).subset hmem)

/-- A name that is available is picked when it is asked for, if it has the form of registries, and
otherwise it is not picked at all. -/
theorem bestMatch_self_iff (hname : found ∈ names) :
    (bestMatch found names = some found ↔ normalize found = found) ∧
      (normalize found = found ↔ ∀ mark ∈ marks, mark ∉ found.toList) ∧
      ((∃ wanted, bestMatch wanted names = some found) ↔ bestMatch found names = some found) := by
  have hself : normalize found = found → bestMatch found names = some found := by
    intro hform
    rw [bestMatch, hform, match?, if_pos hname, Option.some_or]
  refine ⟨⟨normalize_of_bestMatch, hself⟩, normalize_eq_self_iff, fun ⟨wanted, h⟩ => ?_,
    fun h => ⟨found, h⟩⟩
  exact hself (normalize_of_bestMatch h)

end

theorem bestMatch_self_iff_folded :
    let names := ["ES-AR", "es-ar", "es_AR", "es-AR", "es"]
    "es-AR" ∈ names ∧ bestMatch "es-AR" names = some "es-AR" ∧
      "es_AR" ∈ names ∧ ¬∃ wanted, bestMatch wanted names = some "es_AR" := by
  intro names
  have hname : "es-AR" ∈ names := by decide
  have hother : "es_AR" ∈ names := by decide
  refine ⟨hname, (bestMatch_self_iff hname).1.mpr (by decide), hother, ?_⟩
  obtain ⟨hself, -, hpicked⟩ := bestMatch_self_iff hother
  rw [hpicked, hself]
  decide

theorem not_bestMatch_self : "es_AR" ∈ ["es_AR"] ∧ bestMatch "es_AR" ["es_AR"] = none := by
  decide +kernel

end Vernacular.LocaleName
