import Vernacular.Proofs.Locale.Resolution

/-!
# Taking the affixes off again

Stripping is the inverse of decorating, whatever the affixes are.  On a word that is no decorated
token it may take off too much, but vocabularies hold decorated tokens only: those of complete
definitions, where the reserved key is not one of them.
-/

namespace Vernacular

theorem Affixes.decorate_strip_iff (a : Affixes) (word : String) :
    a.decorate (a.strip word) = word ↔ ∃ token, a.decorate token = word := by
  constructor
  · intro h
    exact ⟨a.strip word, h⟩
  · rintro ⟨token, rfl⟩
    rw [a.strip_decorate]

namespace Registry

variable {affixes : Affixes} {definitions : List (String × Definition)} {registry : Registry}
  {name key : String} {vocabulary : Vocabulary}

/-- The tokens of all registered locales are those that complete definitions bring. -/
theorem Resolves.exists_key_iff (h : Resolves affixes definitions registry) :
    (∃ name v, registry.vocabulary? name = some v ∧ key ∈ v.forward.keys) ↔
      ∃ root ∈ definitions, root.2.base? = none ∧
        ∃ token ∈ root.2.keys, affixes.decorate token = key := by
  constructor
  · rintro ⟨name, v, hv, hkey⟩
    obtain ⟨place, overriding, root, -, hlineage, hvocabulary⟩ :=
      h.exists_lineage (mem_names_of_vocabulary? hv)
    obtain rfl := Option.some.inj (hvocabulary.symm.trans hv)
    rw [Lineage.keys_ofList_entries, List.mem_map] at hkey
    exact ⟨root, hlineage.links_mem root (by simp), hlineage.base?_root, hkey⟩
  · rintro ⟨root, hroot, hbase, hkey⟩
    obtain ⟨place, hplace⟩ := List.mem_iff_getElem?.mp hroot
    have hlineage : Lineage definitions place [] root := .complete hplace hbase
    have hlinks : ∀ link ∈ [] ++ [root], link ∈ definitions := by simpa using hroot
    refine ⟨root.1, _, h.vocabulary?_eq_of_links (by rw [hplace]; rfl) hlineage hlinks, ?_⟩
    rw [Lineage.keys_ofList_entries]
    exact List.mem_map.mpr hkey

theorem Resolves.decorate_strip (h : Resolves affixes definitions registry)
    (hvocabulary : registry.vocabulary? name = some vocabulary)
    (hkey : key ∈ vocabulary.forward.keys) :
    affixes.decorate (affixes.strip key) = key ∧ affixes.strip key ≠ Definition.baseKey := by
  obtain ⟨root, -, hroot, token, htoken, rfl⟩ :=
    h.exists_key_iff.mp ⟨name, vocabulary, hvocabulary, hkey⟩
  refine ⟨(affixes.decorate_strip_iff _).mpr ⟨token, rfl⟩, ?_⟩
  rw [affixes.strip_decorate]
  rintro rfl
  exact (root.2.get?_eq_none_iff _).mp hroot htoken

/-- Stripping undoes decorating, no two tokens are decorated alike, and in the vocabularies of a
registry decorating undoes stripping as well. -/
theorem strip_of_vocabulary (affixes : Affixes) :
    (∀ token, affixes.strip (affixes.decorate token) = token) ∧
    (∀ token other, affixes.decorate token = affixes.decorate other → token = other) ∧
    ∀ definitions registry, (ofDefinitions affixes definitions).result = .ok registry →
      registry.affixes = affixes ∧
      ∀ name vocabulary, registry.vocabulary? name = some vocabulary →
        ∀ key ∈ vocabulary.forward.keys,
          affixes.decorate (affixes.strip key) = key ∧ affixes.strip key ≠ Definition.baseKey := by
  refine ⟨affixes.strip_decorate, fun _ _ h => affixes.decorate_injective h, ?_⟩
  intro definitions registry haccepted
  have hresolves := resolves_of_accepted haccepted
  exact ⟨hresolves.affixes_eq, fun _ _ hvocabulary _ hkey =>
    hresolves.decorate_strip hvocabulary hkey⟩

/-- Both affixes are parts of the token "RED", and one of them is the token itself. -/
theorem strip_of_vocabulary_colours :
    let affixes : Affixes := ⟨"R", "RED"⟩
    ∃ registry vocabulary, (ofDefinitions affixes colours).result = .ok registry ∧
      registry.vocabulary? "nl-BE" = some vocabulary ∧
      "RREDRED" ∈ vocabulary.forward.keys ∧
      affixes.decorate (affixes.strip "RREDRED") = "RREDRED" ∧
      affixes.strip "RREDRED" ≠ Definition.baseKey := by
  intro affixes
  refine ⟨_, _, rfl, rfl, by decide, ?_⟩
  exact ((strip_of_vocabulary affixes).2.2 colours _ rfl).2 "nl-BE" _ rfl "RREDRED" (by decide)

-- A word that only looks decorated in part is cut all the same.
example : (Affixes.mk "R" "RED").strip "RUN" = "UN" := by decide

end Registry

end Vernacular
