import Vernacular.Proofs.Bimap.Renaming
import Vernacular.Proofs.Locale.Lineage
import Vernacular.Proofs.Locale.Registration

/-!
# Affixes decorate and do nothing else

Definitions may as well be registered with no affixes at all and be decorated in the end.  So
whether they are accepted, what is logged and what the vocabularies say of bare tokens is the same
for all affixes, those included that are empty, equal or part of a token name.
-/

namespace Vernacular

/-! ## Vocabularies -/

namespace Affixes

/-- No affixes: a token is spelled by its bare name. -/
def bare : Affixes := ⟨"", ""⟩

@[simp] theorem decorate_bare (token : String) : bare.decorate token = token := by
  simp [bare, decorate]

@[simp] theorem strip_bare (word : String) : bare.strip word = word := by
  simpa using bare.strip_decorate word

def decoration (a : Affixes) : String ↪ String := ⟨a.decorate, a.decorate_injective⟩

@[simp] theorem decoration_apply (a : Affixes) (token : String) :
    a.decoration token = a.decorate token := rfl

def decorateKeys (a : Affixes) (vocabulary : Vocabulary) : Vocabulary :=
  vocabulary.mapKeys a.decoration

@[simp] theorem hasKey_decorateKeys (a : Affixes) (vocabulary : Vocabulary) (token : String) :
    (a.decorateKeys vocabulary).hasKey (a.decorate token) = vocabulary.hasKey token :=
  vocabulary.hasKey_mapKeys a.decoration token

theorem toList_decorateKeys (a : Affixes) (vocabulary : Vocabulary) :
    (a.decorateKeys vocabulary).toList =
      vocabulary.toList.map fun entry => (a.decorate entry.1, entry.2) := rfl

end Affixes

namespace Definition

variable (d : Definition) (a : Affixes) (vocabulary : Vocabulary)

theorem ownEntries_eq_map : d.ownEntries a = (d.ownEntries .bare).map (Prod.map a.decorate id) := by
  simp [ownEntries]

theorem spellingOver_decorate (entry : String × String) :
    d.spellingOver a (a.decorate entry.1, entry.2) = d.spellingOver .bare entry := by
  simp only [spellingOver, a.strip_decorate, Affixes.strip_bare]

theorem extendedEntries_eq_map :
    d.extendedEntries a (a.decorateKeys vocabulary) =
      (d.extendedEntries .bare vocabulary).map (Prod.map a.decorate id) := by
  simp [extendedEntries, Affixes.toList_decorateKeys, spellingOver_decorate, Function.comp_def]

theorem unknownNames_decorateKeys :
    d.unknownNames a (a.decorateKeys vocabulary) = d.unknownNames .bare vocabulary := by
  simp [unknownNames]

end Definition

/-! ## Registries -/

theorem Logged.andThen_map {α α' β β' ε : Type} {l : Logged (Except ε α)} {f : α → α'}
    {g : β → β'} {next : α → Logged (Except ε β)} {next' : α' → Logged (Except ε β')}
    (hnext : ∀ value, l.result = .ok value → next' (f value) = (next value).map (Except.map g)) :
    (l.map (Except.map f)).andThen next' = (l.andThen next).map (Except.map g) := by
  unfold andThen
  cases hresult : l.result with
  | error error => simp [map, hresult, Except.map]
  | ok value =>
    simp only [map, hresult, Except.map, hnext value hresult]
    rfl

namespace Registry

variable {r : Registry} {name : String} {d : Definition} {base : Base} {a : Affixes}

def ResolvedLocale.decorated (a : Affixes) (l : ResolvedLocale) : ResolvedLocale :=
  ⟨l.definition, a.decorateKeys l.vocabulary⟩

def Base.decorated (a : Affixes) : Base → Base
  | .none => .none
  | .locale name vocabulary => .locale name (a.decorateKeys vocabulary)

def decorated (a : Affixes) (r : Registry) : Registry where
  affixes := a
  locales := r.locales.map (.refl String) (ResolvedLocale.decorated a)

theorem get?_decorated :
    (r.decorated a).get? name = (r.get? name).map (ResolvedLocale.decorated a) :=
  r.locales.get?_map (.refl String) _ name

theorem vocabulary?_decorated :
    (r.decorated a).vocabulary? name = (r.vocabulary? name).map a.decorateKeys := by
  rw [vocabulary?, get?_decorated, vocabulary?, Option.map_map, Option.map_map]
  rfl

theorem definition?_decorated : (r.decorated a).definition? name = r.definition? name := by
  rw [definition?, get?_decorated, definition?, Option.map_map]
  rfl

theorem contains_decorated : (r.decorated a).contains name = r.contains name := by
  rw [contains, Dictionary.contains, contains, Dictionary.contains]
  change ((r.decorated a).get? name).isSome = (r.get? name).isSome
  rw [get?_decorated, Option.isSome_map]

theorem names_decorated : (r.decorated a).names = r.names := by
  rw [names, decorated, Dictionary.keys_map]
  exact List.map_id _

/-! ## Registration -/

theorem admit?_decorated :
    (r.decorated a).admit? name d = (r.admit? name d).map (Base.decorated a) := by
  unfold admit?
  rw [contains_decorated]
  cases d.base? with
  | none => cases r.contains name <;> rfl
  | some target =>
    simp only [vocabulary?_decorated]
    cases r.vocabulary? target with
    | none => rfl
    | some vocabulary => cases r.contains name <;> rfl

section Bare

variable (hbare : r.affixes = .bare)

include hbare

theorem entriesOver_decorated :
    (r.decorated a).entriesOver d (base.decorated a) =
      (r.entriesOver d base).map (Prod.map a.decorate id) := by
  cases base with
  | none =>
    rw [entriesOver, hbare]
    exact d.ownEntries_eq_map a
  | locale target vocabulary =>
    rw [entriesOver, hbare]
    exact d.extendedEntries_eq_map a vocabulary

theorem warningsOver_decorated :
    (r.decorated a).warningsOver name d (base.decorated a) = r.warningsOver name d base := by
  cases base with
  | none =>
    unfold warningsOver Base.decorated
    rfl
  | locale target vocabulary =>
    have hunknown := d.unknownNames_decorateKeys a vocabulary
    rw [← hbare] at hunknown
    exact congrArg (List.map (Diagnostic.unknownOverrideToken name · target)) hunknown

theorem recordsOver_decorated :
    (r.decorated a).recordsOver name d (base.decorated a) = r.recordsOver name d base := by
  have hmessage : ∀ count, registeredMessage name count (base.decorated a) =
      registeredMessage name count base := by
    intro count
    cases base <;> rfl
  rw [recordsOver, recordsOver, warningsOver_decorated hbare, entriesOver_decorated hbare,
    List.length_map, hmessage]

theorem addOver_decorated :
    (r.decorated a).addOver name d (base.decorated a) = (r.addOver name d base).decorated a := by
  have hvocabulary := Bimap.ofList_mapKeys a.decoration (r.entriesOver d base)
  have hinsert := r.locales.insert_map (.refl String) (ResolvedLocale.decorated a) name
    ⟨d, Bimap.ofList (r.entriesOver d base)⟩
  rw [ResolvedLocale.decorated, Affixes.decorateKeys, ← hvocabulary] at hinsert
  rw [addOver, entriesOver_decorated hbare]
  exact congrArg (Registry.mk a) hinsert

theorem register_decorated :
    (r.decorated a).register name d = (r.register name d).map (Except.map (decorated a)) := by
  rw [register, register, admit?_decorated]
  cases r.admit? name d with
  | error error => rfl
  | ok base =>
    simp only [Except.map, Logged.map, recordsOver_decorated hbare, addOver_decorated hbare]

theorem registerAll_decorated (definitions : List (String × Definition)) :
    (r.decorated a).registerAll definitions =
      (r.registerAll definitions).map (Except.map (decorated a)) := by
  induction definitions generalizing r with
  | nil => rfl
  | cons given rest ih =>
    obtain ⟨name, d⟩ := given
    rw [registerAll, registerAll, register_decorated hbare]
    apply Logged.andThen_map
    -- Registering leaves the affixes of the registry alone, so the rest starts without any as well.
    intro next hnext
    obtain ⟨base, -, rfl⟩ := register_eq_ok_iff.mp hnext
    exact ih hbare

end Bare

theorem ofDefinitions_eq_decorated (a : Affixes) (definitions : List (String × Definition)) :
    ofDefinitions a definitions =
      (ofDefinitions .bare definitions).map (Except.map (decorated a)) :=
  registerAll_decorated (r := empty .bare) rfl definitions

theorem result_eq_decorated (a : Affixes) (definitions : List (String × Definition)) :
    (ofDefinitions a definitions).result =
      (ofDefinitions .bare definitions).result.map (decorated a) :=
  congrArg Logged.result (ofDefinitions_eq_decorated a definitions)

/-! ## Two pairs of affixes -/

theorem missingNames_decorateKeys (vocabulary : Vocabulary) :
    (r.decorated a).missingNames (a.decorateKeys vocabulary) =
      Token.names.filter fun token => !vocabulary.hasKey token := by
  have haffixes : (r.decorated a).affixes = a := rfl
  simp only [missingNames, haffixes, Affixes.hasKey_decorateKeys]

/-- The same tokens in the same order, decorated in two ways: forward each with the same spelling,
and backward as the answer to the same spellings. -/
structure SameTokens (a b : Affixes) (v w : Vocabulary) : Prop where
  forward : ∃ entries : List (String × String),
    v.forward.toList = entries.map (fun entry => (a.decorate entry.1, entry.2)) ∧
    w.forward.toList = entries.map (fun entry => (b.decorate entry.1, entry.2))
  backward : ∃ answers : List (String × String),
    v.backward.toList = answers.map (fun answer => (answer.1, a.decorate answer.2)) ∧
    w.backward.toList = answers.map (fun answer => (answer.1, b.decorate answer.2))

theorem sameTokens_decorateKeys (a b : Affixes) (vocabulary : Vocabulary) :
    SameTokens a b (a.decorateKeys vocabulary) (b.decorateKeys vocabulary) :=
  ⟨⟨vocabulary.forward.toList, rfl, rfl⟩, ⟨vocabulary.backward.toList, rfl, rfl⟩⟩

/-- Two runs that differ in the affixes alone log the same and come to the same error, or to the
same locales up to the affixes. -/
theorem ofDefinitions_of_affixes (a b : Affixes) (definitions : List (String × Definition)) :
    (ofDefinitions a definitions).records = (ofDefinitions b definitions).records ∧
    ((∃ error, (ofDefinitions a definitions).result = .error error ∧
        (ofDefinitions b definitions).result = .error error) ∨
      ∃ first second, (ofDefinitions a definitions).result = .ok first ∧
        (ofDefinitions b definitions).result = .ok second ∧
        first.names = second.names ∧
        (∀ name, first.definition? name = second.definition? name) ∧
        ∀ name ∈ first.names, ∃ v w, first.vocabulary? name = some v ∧
          second.vocabulary? name = some w ∧ SameTokens a b v w ∧
          first.missingNames v = second.missingNames w) := by
  refine ⟨?_, ?_⟩
  · rw [ofDefinitions_eq_decorated a, ofDefinitions_eq_decorated b]
    rfl
  rw [result_eq_decorated a, result_eq_decorated b]
  cases (ofDefinitions .bare definitions).result with
  | error error => exact .inl ⟨error, rfl, rfl⟩
  | ok r =>
    refine .inr ⟨r.decorated a, r.decorated b, rfl, rfl, ?_, ?_, ?_⟩
    · rw [names_decorated, names_decorated]
    · intro name
      rw [definition?_decorated, definition?_decorated]
    · intro name hname
      rw [names_decorated] at hname
      obtain ⟨vocabulary, hvocabulary⟩ := exists_vocabulary?_iff.mpr hname
      refine ⟨a.decorateKeys vocabulary, b.decorateKeys vocabulary, ?_, ?_,
        sameTokens_decorateKeys a b vocabulary, ?_⟩
      · rw [vocabulary?_decorated, hvocabulary, Option.map_some]
      · rw [vocabulary?_decorated, hvocabulary, Option.map_some]
      · rw [missingNames_decorateKeys, missingNames_decorateKeys]

end Registry

end Vernacular
