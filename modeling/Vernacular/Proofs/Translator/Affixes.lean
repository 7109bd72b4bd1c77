import Vernacular.Proofs.Locale.Decoration
import Vernacular.Proofs.Translator.RoundTrip

/-!
# Translating with other affixes

A translation goes through abstract code, whose words change with the affixes.  Nothing of that is
left in the result when the destination spells every token of the source and the code holds no
token itself.
-/

namespace Vernacular.Translator

variable {settings : Settings} {registry : Registry} {t : Translator} {a : Affixes}

/-! ## Sides with decorated tokens -/

def Side.decorated (a : Affixes) (side : Side) : Side :=
  ⟨side.localeName, a.decorateKeys side.vocabulary⟩

theorem isSide_decorated_iff {role : Role} {given : Option Side} :
    IsSide settings (registry.decorated a) role given ↔
      ∃ plain, IsSide settings registry role plain ∧ plain.map (Side.decorated a) = given := by
  constructor
  · rintro ⟨hname, hregistered⟩
    cases given with
    | none => exact ⟨none, ⟨hname, by simp⟩, rfl⟩
    | some side =>
      have hvocabulary := hregistered side rfl
      rw [Registry.vocabulary?_decorated, Option.map_eq_some_iff] at hvocabulary
      obtain ⟨vocabulary, hfound, hdecorated⟩ := hvocabulary
      refine ⟨some ⟨side.localeName, vocabulary⟩, ⟨hname, by simpa using hfound⟩, ?_⟩
      rw [Option.map_some, Side.decorated, hdecorated]
  · rintro ⟨plain, ⟨hname, hregistered⟩, rfl⟩
    refine ⟨by rw [Option.map_map]; exact hname, ?_⟩
    intro side hside
    obtain ⟨bare, hbare, rfl⟩ := Option.map_eq_some_iff.mp hside
    rw [Registry.vocabulary?_decorated]
    exact congrArg (Option.map a.decorateKeys) (hregistered bare hbare)

/-- The locales that a translator reads and writes, with bare tokens: with any affixes there is a
translator for the same settings, and it has these locales decorated. -/
structure BareSides (settings : Settings) (source destination : Option Side) : Prop where
  consistent : ∀ side ∈ source, side.vocabulary.Consistent
  built : ∀ affixes, ∃ t, (ofSettings { settings with affixes := affixes }).result = .ok t ∧
    t.source = source.map (Side.decorated affixes) ∧
    t.destination = destination.map (Side.decorated affixes)

theorem exists_bareSides (hbuilt : (ofSettings settings).result = .ok t) :
    ∃ source destination, BareSides settings source destination := by
  obtain ⟨registry, haccepted, hresult⟩ := ofSettings_eq_ok_iff.mp hbuilt
  rw [Registry.withBuiltins_eq, Registry.result_eq_decorated] at haccepted
  cases hbare : (Registry.ofDefinitions .bare (Builtin.locales ++ settings.locales)).result with
  | error error =>
    rw [hbare] at haccepted
    cases haccepted
  | ok bare =>
    rw [hbare] at haccepted
    obtain rfl := Except.ok.inj haccepted
    obtain ⟨-, -, hsource, hdestination, -⟩ := ofRegistry_eq_ok_iff.mp hresult
    obtain ⟨source, hplainSource, -⟩ := isSide_decorated_iff.mp hsource
    obtain ⟨destination, hplainDestination, -⟩ := isSide_decorated_iff.mp hdestination
    refine ⟨source, destination, fun side hside => (hplainSource.coherent hbare side hside).1, ?_⟩
    -- From here the affixes that the translator was built with play no part.
    intro affixes
    have hother : (Registry.withBuiltins affixes settings.locales).result =
        .ok (bare.decorated affixes) := by
      rw [Registry.withBuiltins_eq, Registry.result_eq_decorated, hbare]
      rfl
    have hread : IsSide { settings with affixes := affixes } (bare.decorated affixes) .source
        (source.map (Side.decorated affixes)) :=
      isSide_decorated_iff.mpr ⟨source, hplainSource, rfl⟩
    have hwritten : IsSide { settings with affixes := affixes } (bare.decorated affixes)
        .destination (destination.map (Side.decorated affixes)) :=
      isSide_decorated_iff.mpr ⟨destination, hplainDestination, rfl⟩
    exact ⟨_, ofSettings_eq_ok hother hread hwritten, rfl, rfl⟩

/-! ## Words that go through abstract code -/

/-- The spelling, in the second vocabulary, of the token that a word spells in the first. -/
def directWord (v w : Vocabulary) (word : String) : String :=
  ((v.key? word).bind w.value?).getD word

variable {v w : Vocabulary}

theorem localWord_abstractWord_decorateKeys (hconsistent : v.Consistent)
    (htokens : ∀ token ∈ v.forward.keys, token ∈ w.forward.keys) {word : String}
    (hword : word ∉ (a.decorateKeys w).forward.keys) :
    localWord (a.decorateKeys w) (abstractWord (a.decorateKeys v) word) = directWord v w word := by
  have hkey : (a.decorateKeys v).key? word = (v.key? word).map a.decorate :=
    v.key?_mapKeys a.decoration word
  rw [abstractWord, hkey, directWord]
  cases hfound : v.key? word with
  | none => exact localWord_of_none (Bimap.value?_eq_none_iff.mpr hword)
  | some token =>
    have hspelled := htokens token (hconsistent.mem_keys hfound)
    cases hvalue : w.value? token with
    | none => exact absurd hspelled (Bimap.value?_eq_none_iff.mp hvalue)
    | some spelling =>
      have hdecorated : (a.decorateKeys w).value? (a.decorate token) = some spelling :=
        (w.value?_mapKeys a.decoration token).trans hvalue
      simpa [hvalue] using localWord_of_some hdecorated

/-- The affixes do not show in what a translation writes. -/
theorem translate_decorated {separators : Separators} {source destination : Side}
    (hseparators : t.settings.separators = separators)
    (hsource : t.source = some (source.decorated a))
    (hdestination : t.destination = some (destination.decorated a))
    (hconsistent : source.vocabulary.Consistent)
    (htokens : ∀ token ∈ source.vocabulary.forward.keys,
      token ∈ destination.vocabulary.forward.keys)
    (hwords : ∀ token ∈ source.vocabulary.forward.keys, separators.IsWord (a.decorate token))
    {code : String}
    (hcode : ∀ word ∈ separators.words code, ∀ token ∈ destination.vocabulary.forward.keys,
      word ≠ a.decorate token) :
    t.translate code false =
      .ok (separators.mapWords (directWord source.vocabulary destination.vocabulary) code) := by
  have habstract : ∀ word ∈ separators.words code,
      separators.IsWord (abstractWord (a.decorateKeys source.vocabulary) word) := by
    intro word hword
    refine isWord_abstractWord (hconsistent.mapKeys a.decoration) ?_
      (Separators.isWord_of_mem_words hword)
    intro token htoken
    obtain ⟨bare, hbare, rfl⟩ := (Bimap.mem_keys_mapKeys a.decoration _).mp htoken
    exact hwords bare hbare
  -- The second pass finds the words again that the first has written, and so the two come to one.
  rw [translate_without_names hsource hdestination, hseparators, Side.decorated, Side.decorated,
    Separators.mapWords_mapWords habstract]
  refine congrArg Except.ok (Separators.mapWords_congr ?_)
  intro word hword
  apply localWord_abstractWord_decorateKeys hconsistent htokens
  intro hmem
  obtain ⟨token, htoken, rfl⟩ := (Bimap.mem_keys_mapKeys a.decoration _).mp hmem
  exact hcode _ hword token htoken rfl

/-! ## Two translators -/

theorem decorate_mem_keys_iff {vocabulary : Vocabulary} {token : String} :
    a.decorate token ∈ (a.decorateKeys vocabulary).forward.keys ↔
      token ∈ vocabulary.forward.keys := by
  rw [← Bimap.hasKey_eq_true_iff, Affixes.hasKey_decorateKeys, Bimap.hasKey_eq_true_iff]

/-- Translators that differ in the affixes alone translate code to the same text when the
destination spells the tokens of the source, these tokens are words either way, and the code holds
no token of the destination. -/
theorem translate_of_affixes {source destination : Side} (other : Affixes)
    (hbuilt : (ofSettings settings).result = .ok t)
    (hsource : t.source = some source) (hdestination : t.destination = some destination)
    (htokens : ∀ token, settings.affixes.decorate token ∈ source.vocabulary.forward.keys →
      settings.affixes.decorate token ∈ destination.vocabulary.forward.keys)
    (hwords : ∀ token, settings.affixes.decorate token ∈ source.vocabulary.forward.keys →
      settings.separators.IsWord (settings.affixes.decorate token) ∧
        settings.separators.IsWord (other.decorate token)) :
    ∃ t', (ofSettings { settings with affixes := other }).result = .ok t' ∧
      ∀ code,
        (∀ word ∈ settings.separators.words code, ∀ token,
          settings.affixes.decorate token ∈ destination.vocabulary.forward.keys →
            word ≠ settings.affixes.decorate token ∧ word ≠ other.decorate token) →
        ∃ output, t.translate code false = .ok output ∧ t'.translate code false = .ok output := by
  obtain ⟨read, written, hbare⟩ := exists_bareSides hbuilt
  obtain ⟨same, hsame, hreads, hwrites⟩ := hbare.built settings.affixes
  obtain rfl : t = same := Except.ok.inj (hbuilt.symm.trans hsame)
  obtain ⟨t', hbuilt', hreads', hwrites'⟩ := hbare.built other
  obtain ⟨source, rfl, rfl⟩ := Option.map_eq_some_iff.mp (hreads.symm.trans hsource)
  obtain ⟨destination, rfl, rfl⟩ := Option.map_eq_some_iff.mp (hwrites.symm.trans hdestination)
  simp only [Side.decorated, decorate_mem_keys_iff] at htokens hwords
  have hconsistent := hbare.consistent source rfl
  have hseparators : t.settings.separators = settings.separators := by
    rw [settings_of_built hbuilt]
  have hseparators' : t'.settings.separators = settings.separators := by
    rw [settings_of_built hbuilt']
  refine ⟨t', hbuilt', ?_⟩
  intro code hcode
  simp only [Side.decorated, decorate_mem_keys_iff] at hcode
  exact ⟨_,
    translate_decorated hseparators hsource hdestination hconsistent htokens
      (fun token htoken => (hwords token htoken).1)
      fun word hword token htoken => (hcode word hword token htoken).1,
    translate_decorated hseparators' hreads' hwrites' hconsistent htokens
      (fun token htoken => (hwords token htoken).2)
      fun word hword token htoken => (hcode word hword token htoken).2⟩

theorem translate_of_affixes_colours :
    ∃ t t' : Translator,
      (ofSettings (.between Registry.colours .standard .standard "fr" "de")).result = .ok t ∧
      (ofSettings (.between Registry.colours ⟨"", "_"⟩ .standard "fr" "de")).result = .ok t' ∧
      t.source = some ⟨"fr", Registry.french⟩ ∧ t.destination = some ⟨"de", Registry.german⟩ ∧
      ∃ output, t.translate "rouge(bleu, jaune) $rot" false = .ok output ∧
        t'.translate "rouge(bleu, jaune) $rot" false = .ok output := by
  obtain ⟨registry, haccepted, hgerman, hfrench⟩ := Registry.exists_colours
  have hkeys : ∀ key ∈ Registry.french.forward.keys, key ∈ Registry.german.forward.keys ∧
      Separators.standard.IsWord key ∧
      Separators.standard.IsWord (Affixes.decorate ⟨"", "_"⟩ (Affixes.standard.strip key)) := by
    decide +kernel
  have hfree : ∀ word ∈ Separators.standard.words "rouge(bleu, jaune) $rot",
      ∀ key ∈ Registry.german.forward.keys,
        word ≠ key ∧ word ≠ Affixes.decorate ⟨"", "_"⟩ (Affixes.standard.strip key) := by
    decide +kernel
  have hstrip := Affixes.standard.strip_decorate
  have hbuilt := ofSettings_between haccepted .standard hfrench hgerman
  obtain ⟨t', hbuilt', htranslate⟩ := translate_of_affixes ⟨"", "_"⟩ hbuilt rfl rfl
    (fun token htoken => (hkeys _ htoken).1)
    (fun token htoken => ⟨(hkeys _ htoken).2.1, hstrip token ▸ (hkeys _ htoken).2.2⟩)
  refine ⟨_, t', hbuilt, hbuilt', rfl, rfl, htranslate _ ?_⟩
  intro word hword token htoken
  exact ⟨(hfree word hword _ htoken).1, hstrip token ▸ (hfree word hword _ htoken).2⟩

end Vernacular.Translator
