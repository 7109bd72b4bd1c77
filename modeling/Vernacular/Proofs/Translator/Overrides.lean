import Vernacular.Proofs.Translator.RoundTrip

/-!
# Overrides there and back

Overrides stand in front of the vocabulary both ways: an override hides a spelling while reading,
and the name that it gave hides a token while writing.  Code comes back from a round trip in one
locale when all overrides have names of their own and no other word is taken for one of these names
on the way back.
-/

namespace Vernacular.Translator

variable {v : Vocabulary} {s : Separators} {names : Bimap String String} {word : String}

/-! ## Words -/

/-- What reading makes of a word that is not overridden is not taken for something else while
writing: it is none of the names that overrides give, and no token unless the word spells it. -/
structure Returns (names : Dictionary String String) (v : Vocabulary) (word : String) : Prop where
  notName : word ∉ names.values
  tokenNotName : ∀ token ∈ v.key? word, token ∉ names.values
  notToken : word ∉ v.forward.values → word ∉ v.forward.keys

instance (names : Dictionary String String) (v : Vocabulary) (word : String) :
    Decidable (Returns names v word) :=
  decidable_of_iff
    (word ∉ names.values ∧ (∀ token ∈ v.key? word, token ∉ names.values) ∧
      (word ∉ v.forward.values → word ∉ v.forward.keys))
    ⟨fun ⟨hname, htoken, hforeign⟩ => ⟨hname, htoken, hforeign⟩,
      fun h => ⟨h.notName, h.tokenNotName, h.notToken⟩⟩

def renamedWord (v : Vocabulary) (names : Bimap String String) (word : String) : String :=
  (reading v (some names) word).getD word

def restoredWord (v : Vocabulary) (names : Bimap String String) (word : String) : String :=
  (writing v (some names) word).getD word

theorem renamedWord_of_override {name : String} (hname : names.value? word = some name) :
    renamedWord v names word = name := by
  simp [renamedWord, reading, hname]

theorem renamedWord_of_none (hword : names.value? word = none) :
    renamedWord v names word = abstractWord v word := by
  simp [renamedWord, reading, hword, abstractWord]

theorem restoredWord_of_override {name : String} (hname : names.key? word = some name) :
    restoredWord v names word = name := by
  simp [restoredWord, writing, hname]

theorem restoredWord_of_none (hword : names.key? word = none) :
    restoredWord v names word = localWord v word := by
  simp [restoredWord, writing, hword, localWord]

theorem isWord_renamedWord (hconsistent : v.Consistent)
    (htokens : ∀ token ∈ v.forward.keys, s.IsWord token)
    (hnames : ∀ name ∈ names.forward.values, s.IsWord name) (hword : s.IsWord word) :
    s.IsWord (renamedWord v names word) := by
  apply hword.getD
  intro found hfound
  rcases Option.or_eq_some_iff.mp hfound with hname | ⟨-, hkey⟩
  · exact hnames found (Bimap.mem_values_of_value? hname)
  · exact htokens found (hconsistent.mem_keys hkey)

theorem Returns.restoredWord_abstractWord (h : Returns names.forward v word)
    (hconsistent : v.Consistent) (hcovering : v.Covering) (hnames : names.Consistent) :
    restoredWord v names (abstractWord v word) = word := by
  have hfree : names.key? (abstractWord v word) = none := by
    apply hnames.key?_eq_none
    cases hkey : v.key? word with
    | some token =>
      rw [abstractWord_of_some hkey]
      exact h.tokenNotName token hkey
    | none =>
      rw [abstractWord_of_none hkey]
      exact h.notName
  rw [restoredWord_of_none hfree, localWord_abstractWord_eq_iff hconsistent hcovering]
  exact fun htoken => Decidable.by_contra fun hspelling => h.notToken hspelling htoken

theorem restoredWord_renamedWord (hconsistent : v.Consistent) (hcovering : v.Covering)
    (hnames : names.Consistent) (hnamesCovering : names.Covering)
    (hdistinct : names.forward.values.Nodup)
    (hword : word ∉ names.forward.keys → Returns names.forward v word) :
    restoredWord v names (renamedWord v names word) = word := by
  cases hname : names.value? word with
  | some name =>
    rw [renamedWord_of_override hname]
    exact restoredWord_of_override (hnames.key?_of_value? hnamesCovering hdistinct hname)
  | none =>
    rw [renamedWord_of_none hname]
    exact (hword (Bimap.value?_eq_none_iff.mp hname)).restoredWord_abstractWord hconsistent
      hcovering hnames

/-! ## Texts -/

/-- The settings of a translator that stays in one locale and renames. -/
def Settings.renaming (definitions : List (String × Definition)) (affixes : Affixes)
    (separators : Separators) (localeName : String) (names : Dictionary String String) :
    Settings :=
  { Settings.between definitions affixes separators localeName localeName with
    names := some names.toList }

variable {definitions : List (String × Definition)} {affixes : Affixes} {registry : Registry}
  {A : String} {a : Vocabulary}

theorem exists_renaming
    (haccepted : (Registry.withBuiltins affixes definitions).result = .ok registry)
    (hA : registry.vocabulary? A = some a) (separators : Separators)
    (names : Dictionary String String) :
    ∃ t : Translator,
      (ofSettings (.renaming definitions affixes separators A names)).result = .ok t ∧
      (∀ text, t.toTokens text true =
        .ok (separators.mapWords (renamedWord a (.ofList names.toList)) text)) ∧
      ∀ text, t.fromTokens text true =
        .ok (separators.mapWords (restoredWord a (.ofList names.toList)) text) := by
  have hside : ∀ role, IsSide (.renaming definitions affixes separators A names) registry role
      (some ⟨A, a⟩) := by
    intro role
    cases role <;> exact ⟨rfl, by simpa using hA⟩
  refine ⟨_, ofSettings_eq_ok haccepted (hside .source) (hside .destination), ?_, ?_⟩
  · intro text
    exact congrArg Except.ok (Separators.replaceWords_eq_mapWords _ _ text)
  · intro text
    exact congrArg Except.ok (Separators.replaceWords_eq_mapWords _ _ text)

/-- Reading code with overrides and writing it back with them gives the same code, whatever
spellings the overrides hide. -/
theorem fromTokens_toTokens_with_names
    (haccepted : (Registry.withBuiltins affixes definitions).result = .ok registry)
    (hA : registry.vocabulary? A = some a) (separators : Separators)
    (names : Dictionary String String) (hdistinct : names.values.Nodup)
    (htokens : ∀ token ∈ a.forward.keys, separators.IsWord token)
    (hnames : ∀ name ∈ names.values, separators.IsWord name) :
    ∃ t : Translator,
      (ofSettings (.renaming definitions affixes separators A names)).result = .ok t ∧
      ∀ code, (∀ word ∈ separators.words code, word ∉ names.keys → Returns names a word) →
        ∃ abstract, t.toTokens code true = .ok abstract ∧
          t.fromTokens abstract true = .ok code := by
  obtain ⟨hconsistent, hcovering⟩ := consistent_of_vocabulary? haccepted hA
  obtain ⟨t, hbuilt, hto, hfrom⟩ := exists_renaming haccepted hA separators names
  have hforward := Bimap.forward_ofList_toList names
  have hnamesCovering : (Bimap.ofList names.toList).Covering :=
    Bimap.covering_ofList names.nodup_keys
  have hrenamed : ∀ word, separators.IsWord word →
      separators.IsWord (renamedWord a (.ofList names.toList) word) := by
    intro word
    apply isWord_renamedWord hconsistent htokens
    rwa [hforward]
  refine ⟨t, hbuilt, ?_⟩
  intro code hcode
  refine ⟨_, hto code, ?_⟩
  rw [hfrom, Separators.mapWords_mapWords fun word hword =>
    hrenamed word (Separators.isWord_of_mem_words hword)]
  apply congrArg Except.ok
  rw [Separators.mapWords_eq_self_iff]
  intro word hword
  apply restoredWord_renamedWord hconsistent hcovering (Bimap.consistent_ofList _) hnamesCovering
  · rwa [hforward]
  · rw [hforward]
    exact hcode word hword

/-- The first override hides a spelling. -/
def colourNames : Dictionary String String := .ofList [("rot", "wort"), ("blume", "fleur")]

theorem fromTokens_toTokens_with_names_colours :
    ∃ registry, (Registry.withBuiltins .standard Registry.colours).result = .ok registry ∧
      registry.vocabulary? "de" = some Registry.german ∧
      colourNames.values.Nodup ∧
      (∀ token ∈ Registry.german.forward.keys, Separators.standard.IsWord token) ∧
      (∀ name ∈ colourNames.values, Separators.standard.IsWord name) ∧
      (∀ word ∈ Separators.standard.words "rot(blau, blume) gelb $GREEN$",
        word ∉ colourNames.keys → Returns colourNames Registry.german word) ∧
      ∃ t : Translator,
        (ofSettings (.renaming Registry.colours .standard .standard "de" colourNames)).result =
          .ok t ∧
        ∃ abstract, t.toTokens "rot(blau, blume) gelb $GREEN$" true = .ok abstract ∧
          t.fromTokens abstract true = .ok "rot(blau, blume) gelb $GREEN$" := by
  obtain ⟨registry, haccepted, hgerman, -⟩ := Registry.exists_colours
  have hdistinct : colourNames.values.Nodup := by decide +kernel
  have hnames : ∀ name ∈ colourNames.values, Separators.standard.IsWord name := by decide +kernel
  have hcode : ∀ word ∈ Separators.standard.words "rot(blau, blume) gelb $GREEN$",
      word ∉ colourNames.keys → Returns colourNames Registry.german word := by
    decide +kernel
  obtain ⟨t, hbuilt, hback⟩ := fromTokens_toTokens_with_names haccepted hgerman .standard
    colourNames hdistinct isWord_german hnames
  exact ⟨registry, haccepted, hgerman, hdistinct, isWord_german, hnames, hcode, t, hbuilt,
    hback _ hcode⟩

end Vernacular.Translator
