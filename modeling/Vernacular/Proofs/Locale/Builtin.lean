import Vernacular.Proofs.Locale.Registration

/-!
# The built-in locales can be registered

English comes first and extends nothing, all others extend it, and no name stands twice.  So user
definitions are accepted on their own merits.
-/

namespace Vernacular.Builtin

theorem base?_english : Definition.base? english = none := by
  rw [Definition.base?, english, Dictionary.get?_ofList]
  decide +kernel

theorem base?_britishEnglish : Definition.base? britishEnglish = some "en" := by
  rw [Definition.base?, britishEnglish, Dictionary.get?_ofList]
  decide +kernel

theorem base?_spanish : Definition.base? spanish = some "en" := by
  rw [Definition.base?, spanish, Dictionary.get?_ofList]
  decide +kernel

theorem admissible_locales : Registry.Admissible [] (Registry.headers locales) := by
  simp only [Registry.headers, locales, englishRegions, spanishRegions, List.map_cons,
    List.map_nil, List.map_append, base?_english, base?_britishEnglish, base?_spanish]
  decide +kernel

end Vernacular.Builtin

namespace Vernacular.Registry

theorem exists_withBuiltins_iff {affixes : Affixes} {definitions : List (String × Definition)} :
    (∃ registry, (withBuiltins affixes definitions).result = .ok registry) ↔
      Admissible (Builtin.locales.map Prod.fst) (headers definitions) := by
  rw [withBuiltins, ofDefinitions, exists_registerAll_iff, headers, List.map_append,
    admissible_append]
  change Admissible [] (headers Builtin.locales) ∧
    Admissible ((headers Builtin.locales).map Prod.fst) (headers definitions) ↔ _
  have hnames : (headers Builtin.locales).map Prod.fst = Builtin.locales.map Prod.fst := by
    rw [headers, List.map_map]
    rfl
  rw [hnames]
  exact and_iff_right Builtin.admissible_locales

end Vernacular.Registry
