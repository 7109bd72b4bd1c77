import Mathlib.Data.List.TakeWhile
import Vernacular.Proofs.Locale.Spellings
import Vernacular.Proofs.Locale.Stripping
import Vernacular.Proofs.Translator.Construction
import Vernacular.Proofs.Word.Reading

/-!
# Tokens that are read as words

A translator finds a decorated token again if a cursor reads it as one word.  Setting up warns when
an affix holds a separator.  A token name may hold one as well, by the choice of the separators or
of the name, and of that no warning is given.
-/

namespace Vernacular

theorem Cursor.nextWord_ofText_iff {s : Separators} {text : String} :
    (Cursor.ofText text s 0).nextWord.1 = some text ↔ s.IsWord text := by
  have hahead : (Cursor.ofText text s 0).ahead = text.toList := by simp [ofText]
  have haccepts : (Cursor.ofText text s 0).isWordChar = fun c => !s.contains c := rfl
  rw [nextWord, fst_past, peekWord, haccepts]
  constructor
  · intro h
    have hwhole := toList_of_runAhead h
    rw [hahead, eq_comm, List.takeWhile_eq_self_iff] at hwhole
    refine ⟨?_, by simpa using hwhole⟩
    rintro rfl
    simp [runAhead, hahead] at h
  · intro h
    have hwhole : text.toList.takeWhile (fun c => !s.contains c) = text.toList :=
      List.takeWhile_eq_self_iff.mpr (by simpa using h.chars)
    unfold runAhead
    rw [hahead, hwhole]
    split
    · next hnil => exact absurd (by simpa using hnil) h.nonempty
    · rw [String.ofList_toList]

namespace Translator

variable {settings : Settings} {t : Translator}

theorem records_of_built (hbuilt : (ofSettings settings).result = .ok t) :
    (ofSettings settings).records =
      (Registry.withBuiltins settings.affixes settings.locales).records ++ t.setupRecords := by
  obtain ⟨registry, haccepted, hresult⟩ := ofSettings_eq_ok_iff.mp hbuilt
  rw [ofSettings, Logged.records_andThen (Logged.mapError_eq_ok_iff.mpr haccepted),
    Logged.records_mapError, hresult]

def cutWarning (settings : Settings) : Log.Record :=
  ⟨.warning, .translator, cutMessage settings.affixes⟩

theorem cutWarning_mem_iff (hbuilt : (ofSettings settings).result = .ok t) :
    cutWarning settings ∈ (ofSettings settings).records ↔ settings.cutsTokens = true := by
  have hregistry :
      cutWarning settings ∉ (Registry.withBuiltins settings.affixes settings.locales).records := by
    intro hmem
    cases Registry.channel_of_mem_registerAll hmem
  rw [records_of_built hbuilt, List.mem_append, or_iff_right hregistry, setupRecords,
    settings_of_built hbuilt]
  by_cases hcuts : settings.cutsTokens = true <;> simp [hcuts, cutWarning]

/-- A name that no separator cuts and whose token is not empty. -/
def Whole (settings : Settings) (token : String) : Prop :=
  settings.affixes.decorate token ≠ "" ∧
    ∀ c ∈ token.toList, settings.separators.contains c = false

theorem isWord_decorate_iff {token : String} :
    settings.separators.IsWord (settings.affixes.decorate token) ↔
      ¬settings.cutsTokens = true ∧ Whole settings token := by
  have hcuts : ¬settings.cutsTokens = true ↔
      ∀ c ∈ (settings.affixes.opening ++ settings.affixes.closing).toList,
        settings.separators.contains c = false := by
    rw [Settings.cutsTokens, Bool.not_eq_true, List.any_eq_false]
    simp only [Bool.not_eq_true]
  rw [hcuts]
  constructor
  · intro h
    have hchars := h.chars
    simp only [Affixes.decorate, String.toList_append, List.forall_mem_append] at hchars ⊢
    exact ⟨⟨hchars.1.1, hchars.2⟩, h.nonempty, hchars.1.2⟩
  · rintro ⟨haffixes, hnonempty, hchars⟩
    refine ⟨hnonempty, ?_⟩
    simp only [Affixes.decorate, String.toList_append, List.forall_mem_append] at haffixes ⊢
    exact ⟨⟨haffixes.1, hchars⟩, haffixes.2⟩

/-- All tokens of all locales are read as words just when no warning is given and all names that
complete definitions bring are whole.  That no warning is given is not enough. -/
theorem tokens_recognized_iff (hbuilt : (ofSettings settings).result = .ok t) :
    (∀ name v, t.registry.vocabulary? name = some v → ∀ key ∈ v.forward.keys,
      (Cursor.ofText key settings.separators 0).nextWord.1 = some key) ↔
        cutWarning settings ∉ (ofSettings settings).records ∧
          ∀ root ∈ Builtin.locales ++ settings.locales, root.2.base? = none →
            ∀ token ∈ root.2.keys, Whole settings token := by
  obtain ⟨registry, haccepted, hresult⟩ := ofSettings_eq_ok_iff.mp hbuilt
  obtain ⟨-, rfl, -⟩ := ofRegistry_eq_ok_iff.mp hresult
  have hresolves := Registry.resolves_of_accepted haccepted
  rw [cutWarning_mem_iff hbuilt]
  simp only [Cursor.nextWord_ofText_iff]
  constructor
  · intro hall
    have htoken : ∀ root ∈ Builtin.locales ++ settings.locales, root.2.base? = none →
        ∀ token ∈ root.2.keys, ¬settings.cutsTokens = true ∧ Whole settings token := by
      intro root hroot hbase token htoken
      obtain ⟨name, v, hv, hkey⟩ :=
        hresolves.exists_key_iff.mpr ⟨root, hroot, hbase, token, htoken, rfl⟩
      exact isWord_decorate_iff.mp (hall name v hv _ hkey)
    -- English brings tokens in any case, so that an affix with a separator cuts some.
    have hprogram : "GBS_DEFINITION_PROGRAM" ∈ Builtin.english.keys := by
      rw [Builtin.keys_english]
      decide
    have hnone := htoken _ (List.mem_append_left _ Builtin.english_mem_locales)
      Builtin.base?_english _ hprogram
    exact ⟨hnone.1, fun root hroot hbase token hmem => (htoken root hroot hbase token hmem).2⟩
  · rintro ⟨hcuts, hwhole⟩ name v hv key hkey
    obtain ⟨root, hroot, hbase, token, htoken, rfl⟩ :=
      hresolves.exists_key_iff.mp ⟨name, v, hv, hkey⟩
    exact isWord_decorate_iff.mpr ⟨hcuts, hwhole root hroot hbase token htoken⟩

/-- A complete definition whose token name is no word. -/
def spacedSettings : Settings where
  locales := [("de", .ofList [("HELL BLAU", "hellblau")])]

theorem tokens_recognized_iff_spaced :
    ∃ t, (ofSettings spacedSettings).result = .ok t ∧
      cutWarning spacedSettings ∉ (ofSettings spacedSettings).records ∧
      ¬∀ name v, t.registry.vocabulary? name = some v → ∀ key ∈ v.forward.keys,
        (Cursor.ofText key spacedSettings.separators 0).nextWord.1 = some key := by
  obtain ⟨registry, haccepted⟩ : ∃ registry, (Registry.withBuiltins spacedSettings.affixes
      spacedSettings.locales).result = .ok registry :=
    Registry.exists_withBuiltins_iff.mpr (by decide +kernel)
  have hsource : IsSide spacedSettings registry .source none := ⟨rfl, by simp⟩
  have hdestination : IsSide spacedSettings registry .destination none := ⟨rfl, by simp⟩
  obtain ⟨t, hbuilt⟩ : ∃ t, (ofSettings spacedSettings).result = .ok t :=
    ⟨_, ofSettings_eq_ok haccepted hsource hdestination⟩
  refine ⟨t, hbuilt, ?_, ?_⟩
  · rw [cutWarning_mem_iff hbuilt]
    decide +kernel
  · rw [tokens_recognized_iff hbuilt]
    rintro ⟨-, hwhole⟩
    have hspaced := hwhole ("de", .ofList [("HELL BLAU", "hellblau")])
      (List.mem_append_right _ (List.mem_singleton_self _)) rfl "HELL BLAU" (by decide)
    have hblank : Separators.standard.contains ' ' = false := hspaced.2 ' ' (by decide)
    revert hblank
    decide +kernel

/-- The underscore is a separator, too. -/
def underscoreSettings : Settings where
  source := some "es"
  destination := some "es"
  separators := .ofChars " \n\t()[]\x7b\x7d,;.:=<>-_"

theorem cut_token_without_warning :
    ∃ t v, (ofSettings underscoreSettings).result = .ok t ∧
      cutWarning underscoreSettings ∉ (ofSettings underscoreSettings).records ∧
      t.registry.vocabulary? "es" = some v ∧ "$GBS_COMMAND_DROP$" ∈ v.forward.keys ∧
      (Cursor.ofText "$GBS_COMMAND_DROP$" underscoreSettings.separators 0).nextWord.1 =
        some "$GBS" := by
  obtain ⟨registry, haccepted⟩ : ∃ registry, (Registry.withBuiltins underscoreSettings.affixes
      underscoreSettings.locales).result = .ok registry :=
    Registry.exists_withBuiltins_iff.mpr trivial
  have hname : "es" ∈ Builtin.locales.map Prod.fst := by decide +kernel
  obtain ⟨overriding, hregional, hvocabulary⟩ := Registry.exists_regional_vocabulary hname
  have hspanish := hvocabulary haccepted
  have hsource : IsSide underscoreSettings registry .source (some ⟨"es", _⟩) :=
    ⟨rfl, by simpa using hspanish⟩
  have hdestination : IsSide underscoreSettings registry .destination (some ⟨"es", _⟩) :=
    ⟨rfl, by simpa using hspanish⟩
  have hbuilt := ofSettings_eq_ok haccepted hsource hdestination
  refine ⟨_, _, hbuilt, ?_, hspanish, ?_, by decide +kernel⟩
  · rw [cutWarning_mem_iff hbuilt]
    decide +kernel
  · rw [(Registry.faithful_entries underscoreSettings.affixes hregional).tokens]
    exact List.mem_map.mpr ⟨"GBS_COMMAND_DROP", by decide, by decide⟩

end Translator

end Vernacular
