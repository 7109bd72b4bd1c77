import Vernacular.Proofs.Translator.RoundTrip

/-!
# Normal forms

Take a locale that tells its spellings apart from each other and from its tokens.  Reading leaves no
spelling in a text and writing leaves no token, so that each has nothing more to do where it was the
last to be done, and each undoes the other.  A text that mixes tokens with spellings therefore comes
to one abstract and to one localized form.
-/

namespace Vernacular.Translator

variable {v : Vocabulary} {word : String}

/-! ## Words -/

section Apart

variable (hapart : ∀ token ∈ v.forward.keys, token ∉ v.forward.values)

include hapart

theorem localWord_notMem_keys : localWord v word ∉ v.forward.keys := by
  cases hvalue : v.value? word with
  | some spelling =>
    rw [localWord_of_some hvalue]
    exact fun htoken => hapart spelling htoken (Bimap.mem_values_of_value? hvalue)
  | none =>
    rw [localWord_of_none hvalue]
    exact Bimap.value?_eq_none_iff.mp hvalue

theorem localWord_localWord : localWord v (localWord v word) = localWord v word :=
  localWord_of_none (Bimap.value?_eq_none_iff.mpr (localWord_notMem_keys hapart))

variable (hconsistent : v.Consistent) (hcovering : v.Covering)

include hconsistent hcovering

theorem abstractWord_notMem_values : abstractWord v word ∉ v.forward.values := by
  cases hkey : v.key? word with
  | some token =>
    rw [abstractWord_of_some hkey]
    exact hapart token (hconsistent.mem_keys hkey)
  | none =>
    rw [abstractWord_of_none hkey]
    exact (hconsistent.key?_eq_none_iff hcovering).mp hkey

theorem abstractWord_abstractWord :
    abstractWord v (abstractWord v word) = abstractWord v word :=
  abstractWord_of_none
    (hconsistent.key?_eq_none (abstractWord_notMem_values hapart hconsistent hcovering))

theorem localWord_abstractWord : localWord v (abstractWord v word) = localWord v word := by
  by_cases htoken : word ∈ v.forward.keys
  · rw [abstractWord_of_none (hconsistent.key?_eq_none (hapart word htoken))]
  · rw [localWord_of_none (Bimap.value?_eq_none_iff.mpr htoken),
      localWord_abstractWord_eq_iff hconsistent hcovering]
    exact fun h => absurd h htoken

theorem abstractWord_localWord_of_apart (hdistinct : v.forward.values.Nodup) :
    abstractWord v (localWord v word) = abstractWord v word := by
  by_cases hspelling : word ∈ v.forward.values
  · have hforeign : word ∉ v.forward.keys := fun h => hapart word h hspelling
    rw [localWord_of_none (Bimap.value?_eq_none_iff.mpr hforeign)]
  · rw [abstractWord_localWord hconsistent hcovering hdistinct hspelling,
      abstractWord_of_none (hconsistent.key?_eq_none hspelling)]

end Apart

/-! ## Texts -/

variable {definitions : List (String × Definition)} {affixes : Affixes} {registry : Registry}
  {A : String} {a : Vocabulary}

theorem exists_within
    (haccepted : (Registry.withBuiltins affixes definitions).result = .ok registry)
    (hA : registry.vocabulary? A = some a) (separators : Separators) :
    ∃ t : Translator, (ofSettings (.between definitions affixes separators A A)).result = .ok t ∧
      (∀ text, t.toTokens text false = .ok (separators.mapWords (abstractWord a) text)) ∧
      ∀ text, t.fromTokens text false = .ok (separators.mapWords (localWord a) text) := by
  refine ⟨_, ofSettings_between haccepted separators hA hA, ?_, ?_⟩
  · intro text
    rw [toTokens_without_names rfl]
    rfl
  · intro text
    rw [fromTokens_without_names rfl]
    rfl

/-- Every text has one abstract form and one localized form, which reading and writing find from the
text and from each other, and leave alone.  Texts with the same form of one kind have the same form
of the other kind. -/
theorem normal_forms
    (haccepted : (Registry.withBuiltins affixes definitions).result = .ok registry)
    (hA : registry.vocabulary? A = some a) (separators : Separators)
    (htokens : ∀ token ∈ a.forward.keys, separators.IsWord token)
    (hspellings : ∀ spelling ∈ a.forward.values, separators.IsWord spelling)
    (hdistinct : a.forward.values.Nodup)
    (hapart : ∀ token ∈ a.forward.keys, token ∉ a.forward.values) :
    ∃ t : Translator, (ofSettings (.between definitions affixes separators A A)).result = .ok t ∧
      (∀ text, ∃ abstract localized,
        t.toTokens text false = .ok abstract ∧ t.fromTokens text false = .ok localized ∧
        t.toTokens abstract false = .ok abstract ∧ t.fromTokens localized false = .ok localized ∧
        t.toTokens localized false = .ok abstract ∧ t.fromTokens abstract false = .ok localized) ∧
      ∀ text other, t.toTokens text false = t.toTokens other false ↔
        t.fromTokens text false = t.fromTokens other false := by
  obtain ⟨hconsistent, hcovering⟩ := consistent_of_vocabulary? haccepted hA
  obtain ⟨t, hbuilt, hto, hfrom⟩ := exists_within haccepted hA separators
  have habstract : ∀ word, separators.IsWord word → separators.IsWord (abstractWord a word) :=
    fun word => isWord_abstractWord hconsistent htokens
  have hlocal : ∀ word, separators.IsWord word → separators.IsWord (localWord a word) :=
    fun word => isWord_localWord hspellings
  have hread := Separators.mapWords_mapWords_of_forall habstract
    fun _ => abstractWord_abstractWord hapart hconsistent hcovering
  have hwritten := Separators.mapWords_mapWords_of_forall hlocal fun _ => localWord_localWord hapart
  have hreadAgain := Separators.mapWords_mapWords_of_forall hlocal
    fun _ => abstractWord_localWord_of_apart hapart hconsistent hcovering hdistinct
  have hwrittenAgain := Separators.mapWords_mapWords_of_forall habstract
    fun _ => localWord_abstractWord hapart hconsistent hcovering
  refine ⟨t, hbuilt, ?_, ?_⟩
  · intro text
    refine ⟨_, _, hto text, hfrom text, ?_⟩
    simp only [hto, hfrom, hread, hwritten, hreadAgain, hwrittenAgain, and_self]
  · intro text other
    simp only [hto, hfrom, Except.ok.injEq]
    constructor
    · intro hsame
      rw [← hwrittenAgain text, hsame, hwrittenAgain]
    · intro hsame
      rw [← hreadAgain text, hsame, hreadAgain]

theorem isWord_french_tokens :
    ∀ token ∈ Registry.french.forward.keys, Separators.standard.IsWord token := by
  decide +kernel

theorem normal_forms_colours :
    ∃ registry, (Registry.withBuiltins .standard Registry.colours).result = .ok registry ∧
      registry.vocabulary? "fr" = some Registry.french ∧
      (∀ token ∈ Registry.french.forward.keys, Separators.standard.IsWord token) ∧
      (∀ spelling ∈ Registry.french.forward.values, Separators.standard.IsWord spelling) ∧
      Registry.french.forward.values.Nodup ∧
      (∀ token ∈ Registry.french.forward.keys, token ∉ Registry.french.forward.values) ∧
      ∃ t : Translator,
        (ofSettings (.between Registry.colours .standard .standard "fr" "fr")).result = .ok t ∧
        (∀ text, ∃ abstract localized,
          t.toTokens text false = .ok abstract ∧ t.fromTokens text false = .ok localized ∧
          t.toTokens abstract false = .ok abstract ∧
          t.fromTokens localized false = .ok localized ∧
          t.toTokens localized false = .ok abstract ∧
          t.fromTokens abstract false = .ok localized) ∧
        ∀ text other, t.toTokens text false = t.toTokens other false ↔
          t.fromTokens text false = t.fromTokens other false := by
  obtain ⟨registry, haccepted, -, hfrench⟩ := Registry.exists_colours
  have hdistinct : Registry.french.forward.values.Nodup := by decide +kernel
  have hapart : ∀ token ∈ Registry.french.forward.keys,
      token ∉ Registry.french.forward.values := by
    decide +kernel
  exact ⟨registry, haccepted, hfrench, isWord_french_tokens, isWord_french, hdistinct, hapart,
    normal_forms haccepted hfrench .standard isWord_french_tokens isWord_french hdistinct hapart⟩

end Vernacular.Translator
