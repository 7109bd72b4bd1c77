import Vernacular.Proofs.Locale.Records

/-!
# Overriding a locale

A definition that extends a locale gets the tokens of that locale and no others.  Each token that it
spells itself either takes the new spelling, or keeps the one of the locale because the new one is
empty, or is unknown to the locale, and exactly the unknown ones are warned about.
-/

namespace Vernacular

namespace Entries

variable {α β : Type} [DecidableEq α]

theorem find?_map_values (f : α → β → β) (key : α) (entries : List (α × β)) :
    find? key (entries.map fun entry => (entry.1, f entry.1 entry.2)) =
      (find? key entries).map (f key) := by
  induction entries with
  | nil => rfl
  | cons entry rest ih =>
    obtain ⟨k, old⟩ := entry
    by_cases hk : k = key
    · simp [find?, hk]
    · simp [find?, hk, ih]

end Entries

namespace Definition

variable {d : Definition} {affixes : Affixes} {base : Vocabulary} {token spelling : String}

theorem toList_ofList_extendedEntries :
    (Bimap.ofList (d.extendedEntries affixes base)).toList = d.extendedEntries affixes base := by
  have hkeys : (d.extendedEntries affixes base).map Prod.fst = base.forward.keys := by
    rw [extendedEntries, List.map_map]
    rfl
  exact Bimap.toList_ofList (hkeys ▸ base.forward.nodup_keys)

theorem value?_ofList_extendedEntries (word : String) :
    (Bimap.ofList (d.extendedEntries affixes base)).value? word =
      (base.value? word).map fun inherited => d.spellingOver affixes (word, inherited) := by
  rw [Bimap.value?, Dictionary.get?]
  change Entries.find? word (Bimap.ofList (d.extendedEntries affixes base)).toList = _
  rw [toList_ofList_extendedEntries]
  exact Entries.find?_map_values (fun word inherited => d.spellingOver affixes (word, inherited))
    word base.toList

/-- An extending definition has the tokens of the locale that it extends. -/
theorem hasKey_ofList_extendedEntries (word : String) :
    (Bimap.ofList (d.extendedEntries affixes base)).hasKey word = base.hasKey word := by
  rw [Bimap.hasKey, Dictionary.contains]
  change ((Bimap.ofList (d.extendedEntries affixes base)).value? word).isSome = _
  rw [value?_ofList_extendedEntries, Option.isSome_map]
  rfl

theorem spellingOver_of_get? (h : d.get? token = some spelling) (inherited : String) :
    d.spellingOver affixes (affixes.decorate token, inherited) =
      if spelling = "" then inherited else spelling := by
  rw [spellingOver, affixes.strip_decorate, h]

theorem mem_unknownNames_iff :
    token ∈ d.unknownNames affixes base ↔
      token ∈ d.keys ∧ token ≠ baseKey ∧ base.hasKey (affixes.decorate token) = false := by
  simp [unknownNames]

theorem nodup_unknownNames : (d.unknownNames affixes base).Nodup := d.nodup_keys.filter _

end Definition

namespace Registry

variable {affixes : Affixes} {definitions : List (String × Definition)} {r registry : Registry}
  {name target token spelling : String} {d : Definition} {place : Nat} {base : Vocabulary}

/-- The warning that a definition spells a token which the locale it extends does not have. -/
def unknownWarning (name target token : String) : Log.Record :=
  warningRecord (.unknownOverrideToken name token target)

theorem unknownWarning_injective (name target : String) :
    Function.Injective (unknownWarning name target) := by
  intro token other h
  have hmessage := congrArg Log.Record.message h
  simpa [unknownWarning, warningRecord, Diagnostic.unknownOverrideToken, toString] using hmessage

theorem warnings_recordsOver_locale :
    warnings (r.recordsOver name d (.locale target base)) =
      (d.unknownNames r.affixes base).map (unknownWarning name target) := by
  rw [warnings_recordsOver, warningsOver, List.map_map]
  rfl

/-- The names that are warned about are some of the definition's keys, so no name comes twice. -/
theorem count_unknownWarning (hkey : token ∈ d.keys) (htoken : token ≠ Definition.baseKey) :
    (r.recordsOver name d (.locale target base)).count (unknownWarning name target token) =
      if base.hasKey (r.affixes.decorate token) then 0 else 1 := by
  have hinjective := unknownWarning_injective name target
  have hnodup : ((d.unknownNames r.affixes base).map (unknownWarning name target)).Nodup :=
    Definition.nodup_unknownNames.map hinjective
  have hwarned : unknownWarning name target token ∈
      (d.unknownNames r.affixes base).map (unknownWarning name target) ↔
        base.hasKey (r.affixes.decorate token) = false := by
    rw [List.mem_map_of_injective hinjective, Definition.mem_unknownNames_iff,
      and_iff_right hkey, and_iff_right htoken]
  rw [← count_warnings (unknownWarning name target token) rfl, warnings_recordsOver_locale,
    hnodup.count]
  cases hknown : base.hasKey (r.affixes.decorate token) <;> simp [hwarned, hknown]

/-- What becomes of a token that an extending definition spells, by whether the locale that it
extends has the token and whether the spelling is empty. -/
structure Overrides (affixes : Affixes) (base vocabulary : Vocabulary) (token spelling : String)
    (warned : Nat) : Prop where
  unknown : base.hasKey (affixes.decorate token) = false →
    warned = 1 ∧ vocabulary.hasKey (affixes.decorate token) = false
  inherited : base.hasKey (affixes.decorate token) = true → spelling = "" →
    warned = 0 ∧ vocabulary.value? (affixes.decorate token) = base.value? (affixes.decorate token)
  replaced : base.hasKey (affixes.decorate token) = true → spelling ≠ "" →
    warned = 0 ∧ vocabulary.value? (affixes.decorate token) = some spelling
  not_lost : spelling ≠ "" →
    vocabulary.value? (affixes.decorate token) = some spelling ∨ warned = 1

theorem value?_decorate (hspelled : d.get? token = some spelling)
    (hknown : base.hasKey (affixes.decorate token) = true) :
    (Bimap.ofList (d.extendedEntries affixes base)).value? (affixes.decorate token) =
      if spelling = "" then base.value? (affixes.decorate token) else some spelling := by
  obtain ⟨inherited, hinherited⟩ := Option.isSome_iff_exists.mp hknown
  change base.value? _ = _ at hinherited
  rw [Definition.value?_ofList_extendedEntries, hinherited, Option.map_some,
    Definition.spellingOver_of_get? hspelled]
  split <;> rfl

theorem overrides_of_get? (hspelled : d.get? token = some spelling)
    (htoken : token ≠ Definition.baseKey) :
    Overrides r.affixes base (Bimap.ofList (d.extendedEntries r.affixes base)) token spelling
      ((r.recordsOver name d (.locale target base)).count (unknownWarning name target token)) := by
  rw [count_unknownWarning (Dictionary.mem_keys_of_get? hspelled) htoken]
  cases hknown : base.hasKey (r.affixes.decorate token) with
  | false =>
    refine ⟨fun _ => ⟨rfl, ?_⟩, by simp [hknown], by simp [hknown], fun _ => .inr rfl⟩
    rw [Definition.hasKey_ofList_extendedEntries, hknown]
  | true =>
    have hvalue := value?_decorate hspelled hknown
    refine ⟨by simp [hknown], fun _ hempty => ⟨rfl, ?_⟩, fun _ hgiven => ⟨rfl, ?_⟩,
      fun hgiven => .inl ?_⟩
    · rw [hvalue, if_pos hempty]
    · rw [hvalue, if_neg hgiven]
    · rw [hvalue, if_neg hgiven]

/-- Registering a definition that extends `target` warns about its unknown tokens and nothing else,
once each and in their order.  The tokens of `target` take the spellings given, or keep their own
where these are empty, and `target` itself stays as it was. -/
theorem overrides_of_extending
    (haccepted : (ofDefinitions affixes definitions).result = .ok registry)
    (hplace : definitions[place]? = some (name, d)) (hbase : d.base? = some target) :
    ∃ (earlier : Registry) (base vocabulary : Vocabulary),
      (ofDefinitions affixes (definitions.take place)).result = .ok earlier ∧
      earlier.vocabulary? target = some base ∧
      registry.vocabulary? target = some base ∧
      registry.vocabulary? name = some vocabulary ∧
      (ofDefinitions affixes definitions).records =
        (List.range definitions.length).flatMap (loggedAt affixes definitions) ∧
      warnings (loggedAt affixes definitions place) =
        (d.keys.filter fun token =>
          token ≠ Definition.baseKey && !base.hasKey (affixes.decorate token)).map
            (unknownWarning name target) ∧
      ∀ token spelling, d.get? token = some spelling → token ≠ Definition.baseKey →
        Overrides affixes base vocabulary token spelling
          ((loggedAt affixes definitions place).count (unknownWarning name target token)) := by
  obtain ⟨earlier, _, hregistered⟩ := exists_registered haccepted hplace
  have haffixes : earlier.affixes = affixes := (resolves_of_accepted hregistered.before).affixes_eq
  obtain ⟨base, rfl, htarget⟩ := hregistered.admits.exists_of_base? hbase
  refine ⟨earlier, base, Bimap.ofList (d.extendedEntries affixes base), hregistered.before,
    htarget, ?_, ?_, records_ofDefinitions affixes definitions, ?_, ?_⟩
  · rw [← htarget]
    exact hregistered.vocabulary?_eq (mem_names_of_vocabulary? htarget)
  · rw [hregistered.vocabulary?_self, entriesOver, haffixes]
  · rw [hregistered.logged, warnings_recordsOver_locale, haffixes]
    rfl
  · intro token spelling hspelled htoken
    rw [hregistered.logged, ← haffixes]
    exact overrides_of_get? hspelled htoken

/-- The tokens of "nl" are replaced, inherited and unknown. -/
theorem overrides_of_extending_colours :
    ∃ registry d base vocabulary, (ofDefinitions .standard colours).result = .ok registry ∧
      colours[2]? = some ("nl", d) ∧ d.base? = some "de" ∧
      registry.vocabulary? "de" = some base ∧ registry.vocabulary? "nl" = some vocabulary ∧
      Overrides .standard base vocabulary "RED" "rood" 0 ∧
      Overrides .standard base vocabulary "BLUE" "" 0 ∧
      Overrides .standard base vocabulary "GREEN" "groen" 1 := by
  have haccepted : (ofDefinitions .standard colours).result = .ok _ := rfl
  have hplace : colours[2]? = some ("nl", _) := rfl
  obtain ⟨earlier, base, vocabulary, -, -, hbase, hvocabulary, -, -, hoverrides⟩ :=
    overrides_of_extending haccepted hplace rfl
  have hred := hoverrides "RED" "rood" rfl (by decide)
  have hblue := hoverrides "BLUE" "" rfl (by decide)
  have hgreen := hoverrides "GREEN" "groen" rfl (by decide)
  exact ⟨_, _, base, vocabulary, haccepted, hplace, rfl, hbase, hvocabulary, hred, hblue, hgreen⟩

end Registry

end Vernacular
