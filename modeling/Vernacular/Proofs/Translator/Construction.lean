import Vernacular.Proofs.Except
import Vernacular.Proofs.Locale.Resolution
import Vernacular.Translator

/-!
# Constructed translators

A translator that comes out of its settings holds the registry of these settings, each of its sides
is a locale of that registry, and its names are the ones that were given.
-/

namespace Vernacular.Translator

variable {settings : Settings} {registry : Registry} {t : Translator}

theorem ofSettings_eq_ok_iff :
    (ofSettings settings).result = .ok t ↔
      ∃ registry, (Registry.withBuiltins settings.affixes settings.locales).result = .ok registry ∧
        ofRegistry settings registry = .ok t := by
  rw [ofSettings, Logged.andThen_eq_ok_iff]
  apply exists_congr
  intro registry
  rw [Logged.mapError_eq_ok_iff]
  cases hresult : ofRegistry settings registry <;> simp [Logged.silent]

/-- The locale of a role, as it stands in the registry. -/
def IsSide (settings : Settings) (registry : Registry) (role : Role) (side : Option Side) : Prop :=
  side.map Side.localeName = settings.localeFor role ∧
    ∀ given ∈ side, registry.vocabulary? given.localeName = some given.vocabulary

theorem side_eq_ok_iff {role : Role} {given : Option Side} :
    side settings registry role = .ok given ↔ IsSide settings registry role given := by
  constructor
  · intro h
    unfold side at h
    split at h
    · next hlocale =>
      obtain rfl := Except.ok.inj h
      exact ⟨hlocale.symm, by simp⟩
    · next localeName hlocale =>
      split at h
      · cases h
      · next vocabulary hvocabulary =>
        obtain rfl := Except.ok.inj h
        exact ⟨hlocale.symm, by simpa using hvocabulary⟩
  · rintro ⟨hname, hregistered⟩
    cases given with
    | none => simp [side, ← hname]
    | some chosen => simp [side, ← hname, hregistered chosen rfl]

theorem ofRegistry_eq_ok_iff :
    ofRegistry settings registry = .ok t ↔
      t.settings = settings ∧ t.registry = registry ∧
        IsSide settings registry .source t.source ∧
        IsSide settings registry .destination t.destination ∧
        t.names = settings.names.map Bimap.ofList := by
  simp only [ofRegistry, except_bind_eq_ok_iff, side_eq_ok_iff, pure, Except.pure, Except.ok.injEq]
  constructor
  · rintro ⟨source, hsource, destination, hdestination, rfl⟩
    exact ⟨rfl, rfl, hsource, hdestination, rfl⟩
  · rintro ⟨rfl, rfl, hsource, hdestination, hnames⟩
    exact ⟨t.source, hsource, t.destination, hdestination, by rw [← hnames]⟩

theorem ofSettings_eq_ok {source destination : Option Side}
    (haccepted :
      (Registry.withBuiltins settings.affixes settings.locales).result = .ok registry)
    (hsource : IsSide settings registry .source source)
    (hdestination : IsSide settings registry .destination destination) :
    (ofSettings settings).result =
      .ok ⟨settings, registry, source, destination, settings.names.map Bimap.ofList⟩ :=
  ofSettings_eq_ok_iff.mpr
    ⟨registry, haccepted, ofRegistry_eq_ok_iff.mpr ⟨rfl, rfl, hsource, hdestination, rfl⟩⟩

/-! ## What holds of every translator -/

/-- The two-way dictionaries of a translator tell the same forward and backward. -/
structure Coherent (t : Translator) : Prop where
  source : ∀ side ∈ t.source, side.vocabulary.Consistent ∧ side.vocabulary.Covering
  destination : ∀ side ∈ t.destination, side.vocabulary.Consistent ∧ side.vocabulary.Covering
  names : ∀ names ∈ t.names, names.Consistent

theorem IsSide.coherent {affixes : Affixes} {definitions : List (String × Definition)}
    {role : Role} {given : Option Side} (h : IsSide settings registry role given)
    (haccepted : (Registry.ofDefinitions affixes definitions).result = .ok registry) :
    ∀ side ∈ given, side.vocabulary.Consistent ∧ side.vocabulary.Covering :=
  fun side hside => (Registry.resolves_of_accepted haccepted).consistent (h.2 side hside)

theorem coherent_of_built (hbuilt : (ofSettings settings).result = .ok t) : t.Coherent := by
  obtain ⟨registry, haccepted, hresult⟩ := ofSettings_eq_ok_iff.mp hbuilt
  obtain ⟨-, -, hsource, hdestination, hnames⟩ := ofRegistry_eq_ok_iff.mp hresult
  rw [Registry.withBuiltins_eq] at haccepted
  refine ⟨hsource.coherent haccepted, hdestination.coherent haccepted, ?_⟩
  intro names hgiven
  rw [hnames, Option.mem_def, Option.map_eq_some_iff] at hgiven
  obtain ⟨pairs, -, rfl⟩ := hgiven
  exact Bimap.consistent_ofList pairs

theorem settings_of_built (hbuilt : (ofSettings settings).result = .ok t) :
    t.settings = settings := by
  obtain ⟨registry, -, hresult⟩ := ofSettings_eq_ok_iff.mp hbuilt
  exact (ofRegistry_eq_ok_iff.mp hresult).1

end Vernacular.Translator
