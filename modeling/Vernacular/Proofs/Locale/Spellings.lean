import Vernacular.Proofs.Locale.Resolution
import Vernacular.Proofs.Locale.Token

/-!
# Vocabularies of the built-in locales

Every built-in locale goes back to English, which spells all token names.  So each of them spells
all token names, each by a word of its own, and can be read backward.  The lineage of a built-in
locale lies within the built-in definitions, hence neither the affixes nor any definition that is
registered later can change that.
-/

namespace Vernacular

theorem Lineage.spelling_eq_or_mem (overriding : List (String × Definition)) (token own : String) :
    spelling overriding token own = own ∨
      ∃ link ∈ overriding, spelling overriding token own ∈ link.2.values := by
  unfold spelling
  cases hfirst : (overriding.filterMap fun link => link.2.get? token).find? (· ≠ "") with
  | none => exact .inl rfl
  | some spelled =>
    obtain ⟨link, hlink, hget⟩ := List.mem_filterMap.mp (List.mem_of_find?_eq_some hfirst)
    exact .inr ⟨link, hlink, Dictionary.mem_values_iff.mpr ⟨token, hget⟩⟩

namespace Builtin

/-! ## The tables -/

/-- The octets of a text as the digits of one number, after a leading one. -/
def octetNumber (text : String) : Nat :=
  text.toByteArray.data.toList.foldl (fun number octet => number * 256 + octet.toNat) 1

-- Two texts are compared octet by octet, two numbers at once, and there are thousands of pairs.
theorem nodup_of_octetNumbers {texts : List String} (h : (texts.map octetNumber).Nodup) :
    texts.Nodup :=
  h.of_map

/-- A word that is no decorated token: token names hold an underscore. -/
structure Plain (spelling : String) : Prop where
  isWord : Separators.standard.IsWord spelling
  no_underscore : '_' ∉ spelling.toList

theorem english_mem_locales : ("en", english) ∈ locales := by
  simp [locales]

theorem nodup_names : Token.names.Nodup :=
  nodup_of_octetNumbers (by decide +kernel)

theorem keys_english : english.keys = Token.names := by
  change english.toList.map Prod.fst = Token.names
  rw [english, Dictionary.toList_ofList (by exact nodup_names)]
  rfl

/-- No octet of a separator, an underscore or a carriage return is in the spelling. -/
structure PlainOctets (spelling : String) : Prop where
  nonempty : spelling ≠ ""
  separators : Utf8.Apart spelling " \n\t()[]\x7b\x7d,;.:=<>-"
  others : Utf8.Apart spelling "_\r"

instance (spelling : String) : Decidable (PlainOctets spelling) :=
  decidable_of_iff (spelling ≠ "" ∧ Utf8.Apart spelling " \n\t()[]\x7b\x7d,;.:=<>-" ∧
      Utf8.Apart spelling "_\r")
    ⟨fun h => ⟨h.1, h.2.1, h.2.2⟩, fun h => ⟨h.nonempty, h.separators, h.others⟩⟩

theorem PlainOctets.notMem {spelling : String} {c : Char} (h : PlainOctets spelling)
    (hc : c ∈ "_\r".toList) : c ∉ spelling.toList :=
  fun hmem => h.others.notMem hmem hc

theorem PlainOctets.plain {spelling : String} (h : PlainOctets spelling) : Plain spelling :=
  ⟨Separators.isWord_of_apart h.nonempty h.separators, h.notMem (by decide)⟩

theorem plainOctets_english : ∀ spelling ∈ english.values, PlainOctets spelling :=
  Dictionary.forall_values_ofList (by decide +kernel)

theorem plainOctets_britishEnglish : ∀ spelling ∈ britishEnglish.values, PlainOctets spelling :=
  Dictionary.forall_values_ofList (by decide +kernel)

theorem plainOctets_spanish : ∀ spelling ∈ spanish.values, PlainOctets spelling :=
  Dictionary.forall_values_ofList (by decide +kernel)

/-- What the token names are spelled by, in their order, when definitions stand over English. -/
def spellings (overriding : List (String × Definition)) : List String :=
  english.toList.map fun entry => Lineage.spelling overriding entry.1 entry.2

/-! ## Lineages -/

/-- What can stand over English in the lineage of a built-in locale. -/
inductive Regional : List (String × Definition) → Prop
  | none : Regional []
  | british (name : String) : Regional [(name, britishEnglish)]
  | spanish (name : String) : Regional [(name, spanish)]

theorem Regional.nodup {overriding : List (String × Definition)} (h : Regional overriding) :
    (spellings overriding).Nodup := by
  rw [spellings, english, Dictionary.toList_ofList (by exact nodup_names)]
  apply nodup_of_octetNumbers
  cases h with
  | none => decide +kernel
  | british name =>
    simp only [Lineage.spelling_cons]
    decide +kernel
  | spanish name =>
    simp only [Lineage.spelling_cons]
    decide +kernel

theorem Regional.plainOctets {overriding : List (String × Definition)} (h : Regional overriding) :
    ∀ spelling ∈ spellings overriding, PlainOctets spelling := by
  have hlinks : ∀ link ∈ overriding, ∀ spelling ∈ link.2.values, PlainOctets spelling := by
    cases h with
    | none => simp
    | british name => simpa using plainOctets_britishEnglish
    | spanish name => simpa using plainOctets_spanish
  intro spelling hspelling
  obtain ⟨entry, hentry, rfl⟩ := List.mem_map.mp hspelling
  rcases Lineage.spelling_eq_or_mem overriding entry.1 entry.2 with hown | ⟨link, hlink, hmem⟩
  · rw [hown]
    exact plainOctets_english _ (Dictionary.mem_values_of_mem hentry)
  · exact hlinks link hlink _ hmem

theorem Regional.plain {overriding : List (String × Definition)} (h : Regional overriding) :
    ∀ spelling ∈ spellings overriding, Plain spelling :=
  fun spelling hspelling => (h.plainOctets spelling hspelling).plain

theorem definition_of_mem_locales {link : String × Definition} (h : link ∈ locales) :
    link.2 = english ∨ link.2 = britishEnglish ∨ link.2 = spanish := by
  revert link
  simp [locales, englishRegions, spanishRegions]

theorem exists_lineage {name : String} (hname : name ∈ locales.map Prod.fst) :
    ∃ (place : Nat) (overriding : List (String × Definition)) (root : String × Definition),
      locales[place]?.map Prod.fst = some name ∧ Lineage locales place overriding root ∧
        Regional overriding ∧ root.2 = english := by
  obtain ⟨⟨name, d⟩, hmem, rfl⟩ := List.mem_map.mp hname
  obtain ⟨place, hplace⟩ := List.mem_iff_getElem?.mp hmem
  have hnamed : locales[place]?.map Prod.fst = some name := by rw [hplace]; rfl
  -- English itself stands first, so what extends it stands later.
  have hextending (hbase : d.base? = some "en") :
      Lineage locales place [(name, d)] ("en", english) := by
    have hlater : place ≠ 0 := by
      rintro rfl
      obtain ⟨-, rfl⟩ := Prod.mk.inj (Option.some.inj hplace)
      rw [base?_english] at hbase
      cases hbase
    exact .extending hplace hbase (Nat.pos_of_ne_zero hlater) rfl (.complete rfl base?_english)
  rcases definition_of_mem_locales hmem with rfl | rfl | rfl
  · exact ⟨place, [], (name, english), hnamed, .complete hplace base?_english, .none, rfl⟩
  · exact ⟨place, _, _, hnamed, hextending base?_britishEnglish, .british name, rfl⟩
  · exact ⟨place, _, _, hnamed, hextending base?_spanish, .spanish name, rfl⟩

end Builtin

/-! ## Vocabularies -/

/-- Decorated token names and these spellings stand for each other, in the same order: the spellings
are words, no two of them are alike, and reading backward undoes reading forward. -/
structure Faithful (affixes : Affixes) (spellings : List String) (v : Vocabulary) : Prop where
  tokens : v.forward.keys = Token.names.map affixes.decorate
  spelled : v.forward.values = spellings
  distinct : spellings.Nodup
  words : ∀ spelling ∈ spellings, Separators.standard.IsWord spelling
  mirrored : v.backward.toList = v.forward.toList.map Prod.swap
  inverse : ∀ token spelling, v.key? spelling = some token ↔ v.value? token = some spelling

namespace Registry

variable {affixes : Affixes} {definitions : List (String × Definition)} {registry : Registry}
  {name : String} {overriding : List (String × Definition)} {spellings : List String}
  {v : Vocabulary}

theorem faithful_entries (affixes : Affixes) (hregional : Builtin.Regional overriding) :
    Faithful affixes (Builtin.spellings overriding)
      (Bimap.ofList (Lineage.entries affixes overriding Builtin.english)) := by
  have hkeys := Lineage.nodup_keys_entries affixes overriding Builtin.english
  have hvalues : ((Lineage.entries affixes overriding Builtin.english).map Prod.snd).Nodup := by
    rw [Lineage.values_entries]
    exact hregional.nodup
  have hmirrored := Bimap.toList_backward_ofList hkeys hvalues
  refine ⟨?_, ?_, hregional.nodup, ?_, hmirrored, ?_⟩
  · rw [Lineage.keys_ofList_entries, Builtin.keys_english]
  · rw [Lineage.values_ofList_entries, Builtin.spellings]
  · intro spelling hspelling
    exact (hregional.plain spelling hspelling).isWord
  · intro token spelling
    exact Bimap.key?_eq_some_iff_of_swap hmirrored

theorem missingNames_eq_nil_of_faithful (h : Faithful registry.affixes spellings v) :
    registry.missingNames v = [] := by
  rw [missingNames, List.filter_eq_nil_iff]
  intro token htoken
  have hkey : v.hasKey (registry.affixes.decorate token) = true := by
    rw [Bimap.hasKey_eq_true_iff, h.tokens]
    exact List.mem_map_of_mem htoken
  simp [hkey]

/-- A built-in locale comes to the same whatever follows the built-in definitions. -/
theorem exists_regional_vocabulary (hname : name ∈ Builtin.locales.map Prod.fst) :
    ∃ overriding, Builtin.Regional overriding ∧
      ∀ {affixes : Affixes} {definitions : List (String × Definition)} {registry : Registry},
        (withBuiltins affixes definitions).result = .ok registry →
        registry.vocabulary? name =
          some (Bimap.ofList (Lineage.entries affixes overriding Builtin.english)) := by
  obtain ⟨place, overriding, root, hplace, hlineage, hregional, hroot⟩ :=
    Builtin.exists_lineage hname
  refine ⟨overriding, hregional, ?_⟩
  intro affixes definitions registry haccepted
  rw [withBuiltins_eq] at haccepted
  rw [← hroot]
  exact (resolves_of_accepted haccepted).vocabulary?_eq_of_links hplace hlineage
    fun link hlink => List.mem_append_left _ (hlineage.links_mem link hlink)

/-- A token name keeps its underscore in between all affixes, and no built-in spelling has one. -/
theorem decorate_notMem_values (hname : name ∈ Builtin.locales.map Prod.fst)
    (haccepted : (withBuiltins affixes definitions).result = .ok registry)
    (hv : registry.vocabulary? name = some v) {token : String} (htoken : token ∈ Token.names) :
    affixes.decorate token ∉ v.forward.values := by
  obtain ⟨overriding, hregional, hvocabulary⟩ := exists_regional_vocabulary hname
  obtain rfl := Option.some.inj ((hvocabulary haccepted).symm.trans hv)
  rw [(faithful_entries affixes hregional).spelled]
  intro hmem
  apply (hregional.plain _ hmem).no_underscore
  have hunderscore := Token.underscore_mem htoken
  simp [Affixes.decorate, hunderscore]

/-- A built-in locale has the same spellings under all affixes and in front of all definitions that
are accepted: one word for each token name, and each word tells its token.  No built-in locale
spells anything like a decorated token name. -/
theorem faithful_of_builtin (hname : name ∈ Builtin.locales.map Prod.fst) :
    ∃ spellings : List String,
      ∀ (affixes : Affixes) (definitions : List (String × Definition)) (registry : Registry),
        (withBuiltins affixes definitions).result = .ok registry →
        (∃ v, registry.vocabulary? name = some v ∧ Faithful affixes spellings v ∧
          registry.missingNames v = []) ∧
        ∀ other ∈ Builtin.locales.map Prod.fst, ∀ v, registry.vocabulary? other = some v →
          ∀ token ∈ Token.names, affixes.decorate token ∉ v.forward.values := by
  obtain ⟨overriding, hregional, hvocabulary⟩ := exists_regional_vocabulary hname
  refine ⟨Builtin.spellings overriding, ?_⟩
  intro affixes definitions registry haccepted
  have hfaithful := faithful_entries affixes hregional
  have haffixes : registry.affixes = affixes := (resolves_of_accepted haccepted).affixes_eq
  refine ⟨⟨_, hvocabulary haccepted, hfaithful, ?_⟩, ?_⟩
  · subst haffixes
    exact missingNames_eq_nil_of_faithful hfaithful
  · intro other hother v hv token htoken
    exact decorate_notMem_values hother haccepted hv htoken

/-- Definitions that spell tokens as a built-in locale spells others, and as tokens. -/
def intruders : List (String × Definition) :=
  [("fr", .ofList [("extends", "es"), ("GBS_COLOR_RED", "Azul"), ("GBS_COLOR_BLUE", "")]),
   ("es-XX", .ofList [("GBS_COLOR_RED", "_GBS_COLOR_RED_")])]

theorem faithful_of_builtin_intruders :
    "es-AR" ∈ Builtin.locales.map Prod.fst ∧
      ∃ registry, (withBuiltins ⟨"", "_"⟩ intruders).result = .ok registry ∧
        ∃ spellings,
          (∃ v, registry.vocabulary? "es-AR" = some v ∧ Faithful ⟨"", "_"⟩ spellings v ∧
            registry.missingNames v = []) ∧
          ∀ other ∈ Builtin.locales.map Prod.fst, ∀ v, registry.vocabulary? other = some v →
            ∀ token ∈ Token.names, Affixes.decorate ⟨"", "_"⟩ token ∉ v.forward.values := by
  have hname : "es-AR" ∈ Builtin.locales.map Prod.fst := by decide +kernel
  obtain ⟨registry, haccepted⟩ : ∃ registry,
      (withBuiltins ⟨"", "_"⟩ intruders).result = .ok registry :=
    exists_withBuiltins_iff.mpr (by decide +kernel)
  obtain ⟨spellings, hspellings⟩ := faithful_of_builtin hname
  exact ⟨hname, registry, haccepted, spellings, hspellings _ _ registry haccepted⟩

end Registry

end Vernacular
