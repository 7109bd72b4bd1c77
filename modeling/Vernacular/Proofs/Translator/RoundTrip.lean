import Vernacular.Proofs.Translator.Words

/-!
# Round trips

Code that is read and written in the same locale comes back unless one of its words already is a
token.  Translating through a second locale is as good as translating directly when the second
locale tells all its spellings apart from each other and from tokens.
-/

namespace Vernacular.Translator

variable {v : Vocabulary} {s : Separators} {t : Translator} {word code : String}

/-! ## One vocabulary -/

def abstractWord (v : Vocabulary) (word : String) : String := (v.key? word).getD word

def localWord (v : Vocabulary) (token : String) : String := (v.value? token).getD token

theorem abstractWord_of_some {token : String} (hkey : v.key? word = some token) :
    abstractWord v word = token := by
  rw [abstractWord, hkey, Option.getD_some]

theorem abstractWord_of_none (hkey : v.key? word = none) : abstractWord v word = word := by
  rw [abstractWord, hkey, Option.getD_none]

theorem localWord_of_some {spelling : String} (hvalue : v.value? word = some spelling) :
    localWord v word = spelling := by
  rw [localWord, hvalue, Option.getD_some]

theorem localWord_of_none (hvalue : v.value? word = none) : localWord v word = word := by
  rw [localWord, hvalue, Option.getD_none]

theorem isWord_abstractWord (hconsistent : v.Consistent)
    (htokens : ∀ token ∈ v.forward.keys, s.IsWord token) (hword : s.IsWord word) :
    s.IsWord (abstractWord v word) :=
  hword.getD fun token hkey => htokens token (hconsistent.mem_keys hkey)

theorem isWord_localWord (hspellings : ∀ spelling ∈ v.forward.values, s.IsWord spelling)
    (hword : s.IsWord word) : s.IsWord (localWord v word) :=
  hword.getD fun spelling hvalue => hspellings spelling (Bimap.mem_values_of_value? hvalue)

/-- A spelling goes back to its token when no other token shares it. -/
theorem abstractWord_localWord (hconsistent : v.Consistent) (hcovering : v.Covering)
    (hdistinct : v.forward.values.Nodup) (hword : word ∉ v.forward.values) :
    abstractWord v (localWord v word) = word := by
  cases hvalue : v.value? word with
  | some spelling =>
    rw [localWord_of_some hvalue]
    exact abstractWord_of_some (hconsistent.key?_of_value? hcovering hdistinct hvalue)
  | none =>
    rw [localWord_of_none hvalue]
    exact abstractWord_of_none (hconsistent.key?_eq_none hword)

/-- Reading and writing a word changes it just when it is a token and not a spelling too. -/
theorem localWord_abstractWord_eq_iff (hconsistent : v.Consistent) (hcovering : v.Covering) :
    localWord v (abstractWord v word) = word ↔
      (word ∈ v.forward.keys → word ∈ v.forward.values) := by
  cases hkey : v.key? word with
  | some token =>
    have hvalue := hconsistent word token hkey
    rw [abstractWord_of_some hkey, localWord_of_some hvalue]
    exact iff_of_true rfl fun _ => Bimap.mem_values_of_value? hvalue
  | none =>
    have hforeign := (hconsistent.key?_eq_none_iff hcovering).mp hkey
    rw [abstractWord_of_none hkey]
    cases hvalue : v.value? word with
    | some spelling =>
      have hspelling := Bimap.mem_values_of_value? hvalue
      have htoken := Bimap.mem_keys_of_value? hvalue
      have hne : spelling ≠ word := fun heq => hforeign (heq ▸ hspelling)
      simp [localWord_of_some hvalue, hforeign, htoken, hne]
    | none =>
      have hno := Bimap.value?_eq_none_iff.mp hvalue
      simp [localWord_of_none hvalue, hno]

/-! ## Translators without names -/

theorem toTokens_without_names {side : Side} (hsource : t.source = some side) (code : String) :
    t.toTokens code false =
      .ok (t.settings.separators.mapWords (abstractWord side.vocabulary) code) := by
  have hread : t.readWord false = abstractWord side.vocabulary := by
    funext word
    simp [readWord, overrides, hsource, abstractWord]
  exact toTokens_eq_ok_iff.mpr ⟨by simp [hsource], by simp, by rw [hread]⟩

theorem fromTokens_without_names {side : Side} (hdestination : t.destination = some side)
    (code : String) :
    t.fromTokens code false =
      .ok (t.settings.separators.mapWords (localWord side.vocabulary) code) := by
  have hwritten : t.writtenWord false = localWord side.vocabulary := by
    funext word
    simp [writtenWord, overrides, hdestination, localWord]
  exact fromTokens_eq_ok_iff.mpr ⟨by simp [hdestination], by simp, by rw [hwritten]⟩

theorem translate_without_names {source destination : Side} (hsource : t.source = some source)
    (hdestination : t.destination = some destination) (code : String) :
    t.translate code false =
      .ok (t.settings.separators.mapWords (localWord destination.vocabulary)
        (t.settings.separators.mapWords (abstractWord source.vocabulary) code)) :=
  translate_eq_ok_iff.mpr
    ⟨_, toTokens_without_names hsource code, fromTokens_without_names hdestination _⟩

/-- The settings of a translator from one locale to another, without names. -/
def Settings.between (definitions : List (String × Definition)) (affixes : Affixes)
    (separators : Separators) (source destination : String) : Settings where
  source := some source
  destination := some destination
  locales := definitions
  affixes := affixes
  separators := separators

variable {definitions : List (String × Definition)} {affixes : Affixes} {registry : Registry}
  {A B C : String} {a b c : Vocabulary}

theorem ofSettings_between
    (haccepted : (Registry.withBuiltins affixes definitions).result = .ok registry)
    (separators : Separators) (hA : registry.vocabulary? A = some a)
    (hB : registry.vocabulary? B = some b) :
    (ofSettings (.between definitions affixes separators A B)).result =
      .ok ⟨.between definitions affixes separators A B, registry, some ⟨A, a⟩, some ⟨B, b⟩, none⟩ :=
  ofSettings_eq_ok haccepted ⟨rfl, by simpa using hA⟩ ⟨rfl, by simpa using hB⟩

theorem consistent_of_vocabulary?
    (haccepted : (Registry.withBuiltins affixes definitions).result = .ok registry)
    (hA : registry.vocabulary? A = some a) :
    a.Consistent ∧ a.Covering := by
  rw [Registry.withBuiltins_eq] at haccepted
  exact (Registry.resolves_of_accepted haccepted).consistent hA

/-- Reading what was written in a second locale gives the abstract code that was written from. -/
theorem mapWords_abstractWord_localWord
    (haccepted : (Registry.withBuiltins affixes definitions).result = .ok registry)
    (hA : registry.vocabulary? A = some a) (hB : registry.vocabulary? B = some b)
    {separators : Separators}
    (htokens : ∀ token ∈ a.forward.keys, separators.IsWord token)
    (hspellings : ∀ spelling ∈ b.forward.values, separators.IsWord spelling)
    (hdistinct : b.forward.values.Nodup)
    (hapart : ∀ token ∈ a.forward.keys, token ∉ b.forward.values)
    (hcode : ∀ word ∈ separators.words code, word ∉ a.forward.values → word ∉ b.forward.values) :
    separators.mapWords (abstractWord b)
        (separators.mapWords (localWord b) (separators.mapWords (abstractWord a) code)) =
      separators.mapWords (abstractWord a) code := by
  obtain ⟨haConsistent, haCovering⟩ := consistent_of_vocabulary? haccepted hA
  obtain ⟨hbConsistent, hbCovering⟩ := consistent_of_vocabulary? haccepted hB
  have habstract : ∀ word ∈ separators.words code, separators.IsWord (abstractWord a word) :=
    fun word hword =>
      isWord_abstractWord haConsistent htokens (Separators.isWord_of_mem_words hword)
  have hlocal : ∀ word ∈ separators.words code,
      separators.IsWord (localWord b (abstractWord a word)) :=
    fun word hword => isWord_localWord hspellings (habstract word hword)
  rw [Separators.mapWords_mapWords habstract, Separators.mapWords_mapWords hlocal]
  apply Separators.mapWords_congr
  intro word hword
  apply abstractWord_localWord hbConsistent hbCovering hdistinct
  unfold abstractWord
  cases hkey : a.key? word with
  | some token => exact hapart token (haConsistent.mem_keys hkey)
  | none => exact hcode word hword ((haConsistent.key?_eq_none_iff haCovering).mp hkey)

/-- Translating from `A` to `B` and then from `B` to `C` is translating from `A` to `C`. -/
theorem translate_translate
    (haccepted : (Registry.withBuiltins affixes definitions).result = .ok registry)
    (hA : registry.vocabulary? A = some a) (hB : registry.vocabulary? B = some b)
    (hC : registry.vocabulary? C = some c) (separators : Separators)
    (htokens : ∀ token ∈ a.forward.keys, separators.IsWord token)
    (hspellings : ∀ spelling ∈ b.forward.values, separators.IsWord spelling)
    (hdistinct : b.forward.values.Nodup)
    (hapart : ∀ token ∈ a.forward.keys, token ∉ b.forward.values) :
    ∃ ab bc ac : Translator,
      (ofSettings (.between definitions affixes separators A B)).result = .ok ab ∧
      (ofSettings (.between definitions affixes separators B C)).result = .ok bc ∧
      (ofSettings (.between definitions affixes separators A C)).result = .ok ac ∧
      ∀ code,
        (∀ word ∈ separators.words code, word ∉ a.forward.values → word ∉ b.forward.values) →
        ∃ middle final, ab.translate code false = .ok middle ∧
          bc.translate middle false = .ok final ∧ ac.translate code false = .ok final := by
  refine ⟨_, _, _, ofSettings_between haccepted separators hA hB,
    ofSettings_between haccepted separators hB hC,
    ofSettings_between haccepted separators hA hC, ?_⟩
  intro code hcode
  have hagain := mapWords_abstractWord_localWord haccepted hA hB htokens hspellings hdistinct
    hapart hcode
  refine ⟨_, _, translate_without_names rfl rfl code, translate_without_names rfl rfl _, ?_⟩
  rw [translate_without_names rfl rfl]
  exact congrArg (fun abstract => Except.ok (separators.mapWords (localWord c) abstract))
    hagain.symm

theorem translate_translate_colours :
    ∃ registry, (Registry.withBuiltins .standard Registry.colours).result = .ok registry ∧
      registry.vocabulary? "de" = some Registry.german ∧
      registry.vocabulary? "fr" = some Registry.french ∧
      (∀ token ∈ Registry.german.forward.keys, Separators.standard.IsWord token) ∧
      (∀ spelling ∈ Registry.french.forward.values, Separators.standard.IsWord spelling) ∧
      Registry.french.forward.values.Nodup ∧
      (∀ token ∈ Registry.german.forward.keys, token ∉ Registry.french.forward.values) ∧
      (∀ word ∈ Separators.standard.words "rot(blau, gelb) $PALE$",
        word ∉ Registry.german.forward.values → word ∉ Registry.french.forward.values) ∧
      ∃ there back still : Translator,
        (ofSettings (.between Registry.colours .standard .standard "de" "fr")).result = .ok there ∧
        (ofSettings (.between Registry.colours .standard .standard "fr" "de")).result = .ok back ∧
        (ofSettings (.between Registry.colours .standard .standard "de" "de")).result = .ok still ∧
        ∃ middle final, there.translate "rot(blau, gelb) $PALE$" false = .ok middle ∧
          back.translate middle false = .ok final ∧
          still.translate "rot(blau, gelb) $PALE$" false = .ok final := by
  obtain ⟨registry, haccepted, hgerman, hfrench⟩ := Registry.exists_colours
  have hdistinct : Registry.french.forward.values.Nodup := by decide +kernel
  have hapart : ∀ token ∈ Registry.german.forward.keys,
      token ∉ Registry.french.forward.values := by
    decide +kernel
  have hcode : ∀ word ∈ Separators.standard.words "rot(blau, gelb) $PALE$",
      word ∉ Registry.german.forward.values → word ∉ Registry.french.forward.values := by
    decide +kernel
  obtain ⟨there, back, still, hthere, hback, hstill, htranslate⟩ :=
    translate_translate haccepted hgerman hfrench hgerman .standard isWord_german isWord_french
      hdistinct hapart
  exact ⟨registry, haccepted, hgerman, hfrench, isWord_german, isWord_french, hdistinct, hapart,
    hcode, there, back, still, hthere, hback, hstill, htranslate _ hcode⟩

/-- Reading code and writing it back gives the same code just when none of its words is a token
without being a spelling too. -/
theorem fromTokens_toTokens_eq_iff
    (haccepted : (Registry.withBuiltins affixes definitions).result = .ok registry)
    (hA : registry.vocabulary? A = some a) (separators : Separators)
    (htokens : ∀ token ∈ a.forward.keys, separators.IsWord token) :
    ∃ t : Translator, (ofSettings (.between definitions affixes separators A A)).result = .ok t ∧
      ∀ code, ∃ abstract back, t.toTokens code false = .ok abstract ∧
        t.fromTokens abstract false = .ok back ∧
        (back = code ↔
          ∀ word ∈ separators.words code, ¬(word ∈ a.forward.keys ∧ word ∉ a.forward.values)) := by
  obtain ⟨hconsistent, hcovering⟩ := consistent_of_vocabulary? haccepted hA
  refine ⟨_, ofSettings_between haccepted separators hA hA, ?_⟩
  intro code
  refine ⟨_, _, toTokens_without_names rfl code, fromTokens_without_names rfl _, ?_⟩
  have habstract : ∀ word ∈ separators.words code, separators.IsWord (abstractWord a word) :=
    fun word hword => isWord_abstractWord hconsistent htokens (Separators.isWord_of_mem_words hword)
  have honePass := Separators.mapWords_mapWords (g := localWord a) habstract
  change separators.mapWords (localWord a) (separators.mapWords (abstractWord a) code) = code ↔ _
  rw [honePass, Separators.mapWords_eq_self_iff]
  apply forall₂_congr
  intro word _
  rw [localWord_abstractWord_eq_iff hconsistent hcovering, not_and_not_right]

theorem fromTokens_toTokens_eq_iff_colours :
    ∃ registry, (Registry.withBuiltins .standard Registry.colours).result = .ok registry ∧
      registry.vocabulary? "de" = some Registry.german ∧
      (∀ token ∈ Registry.german.forward.keys, Separators.standard.IsWord token) ∧
      ∃ t : Translator,
        (ofSettings (.between Registry.colours .standard .standard "de" "de")).result = .ok t ∧
        ∀ code, ∃ abstract back, t.toTokens code false = .ok abstract ∧
          t.fromTokens abstract false = .ok back ∧
          (back = code ↔ ∀ word ∈ Separators.standard.words code,
            ¬(word ∈ Registry.german.forward.keys ∧ word ∉ Registry.german.forward.values)) := by
  obtain ⟨registry, haccepted, hgerman, -⟩ := Registry.exists_colours
  exact ⟨registry, haccepted, hgerman, isWord_german,
    fromTokens_toTokens_eq_iff haccepted hgerman .standard isWord_german⟩

end Vernacular.Translator
