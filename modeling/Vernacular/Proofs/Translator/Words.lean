import Vernacular.Proofs.Translator.Construction
import Vernacular.Proofs.Word.Mapping

/-!
# Translators word by word

Every operation is a map over the words of the code.  Translating reads abstract code that it has
just written; the words are found again as long as tokens, spellings and names are words, so the two
passes come to one.
-/

namespace Vernacular.Translator

variable {settings : Settings} {t : Translator} {code output : String} {includeNames : Bool}

/-! ## What becomes of a word -/

def overrides (t : Translator) (includeNames : Bool) : Option (Bimap String String) :=
  if includeNames then t.names else none

/-- An override if there is one, else the token that the word spells, else the word. -/
def readWord (t : Translator) (includeNames : Bool) (word : String) : String :=
  (((t.overrides includeNames).bind fun names => names.value? word).or
    (t.source.bind fun side => side.vocabulary.key? word)).getD word

/-- The word that an override stands for if there is one, else the spelling of the token, else the
word. -/
def writtenWord (t : Translator) (includeNames : Bool) (word : String) : String :=
  (((t.overrides includeNames).bind fun names => names.key? word).or
    (t.destination.bind fun side => side.vocabulary.value? word)).getD word

/-- Names are overridden while reading and not again while writing. -/
def image (t : Translator) (includeNames : Bool) : Operation → String → String
  | .toTokens, word => t.readWord includeNames word
  | .fromTokens, word => t.writtenWord includeNames word
  | .translate, word => t.writtenWord false (t.readWord includeNames word)

/-! ## Operations as maps -/

theorem chosenNames_eq_ok_iff {names : Option (Bimap String String)} :
    t.chosenNames includeNames = .ok names ↔
      (includeNames = true → t.hasNames = true) ∧ t.overrides includeNames = names := by
  unfold chosenNames overrides hasNames
  cases includeNames <;> cases t.names <;> simp

theorem sourceSide_eq_ok_iff {side : Side} :
    t.sourceSide = .ok side ↔ t.source = some side := by
  unfold sourceSide
  cases t.source <;> simp

theorem destinationSide_eq_ok_iff {side : Side} :
    t.destinationSide = .ok side ↔ t.destination = some side := by
  unfold destinationSide
  cases t.destination <;> simp

theorem toTokens_eq_ok_iff :
    t.toTokens code includeNames = .ok output ↔
      t.source.isSome = true ∧ (includeNames = true → t.hasNames = true) ∧
        t.settings.separators.mapWords (t.readWord includeNames) code = output := by
  simp only [toTokens, except_bind_eq_ok_iff, sourceSide_eq_ok_iff, chosenNames_eq_ok_iff, pure,
    Except.pure, Except.ok.injEq, replace, Separators.replaceWords_eq_mapWords]
  cases hsource : t.source with
  | none => simp
  | some side =>
    have hread : t.readWord includeNames = fun word =>
        (reading side.vocabulary (t.overrides includeNames) word).getD word := by
      funext word
      simp [readWord, reading, hsource]
    simp [hread]

theorem fromTokens_eq_ok_iff :
    t.fromTokens code includeNames = .ok output ↔
      t.destination.isSome = true ∧ (includeNames = true → t.hasNames = true) ∧
        t.settings.separators.mapWords (t.writtenWord includeNames) code = output := by
  simp only [fromTokens, except_bind_eq_ok_iff, destinationSide_eq_ok_iff, chosenNames_eq_ok_iff,
    pure, Except.pure, Except.ok.injEq, replace, Separators.replaceWords_eq_mapWords]
  cases hdestination : t.destination with
  | none => simp
  | some side =>
    have hwritten : t.writtenWord includeNames = fun word =>
        (writing side.vocabulary (t.overrides includeNames) word).getD word := by
      funext word
      simp [writtenWord, writing, hdestination]
    simp [hwritten]

theorem translate_eq_ok_iff :
    t.translate code includeNames = .ok output ↔
      ∃ abstract, t.toTokens code includeNames = .ok abstract ∧
        t.fromTokens abstract false = .ok output := by
  simp only [translate, except_bind_eq_ok_iff, sourceSide_eq_ok_iff, destinationSide_eq_ok_iff]
  constructor
  · rintro ⟨-, -, -, -, abstract, hread, hwritten⟩
    exact ⟨abstract, hread, hwritten⟩
  · rintro ⟨abstract, hread, hwritten⟩
    obtain ⟨source, hsource⟩ := Option.isSome_iff_exists.mp (toTokens_eq_ok_iff.mp hread).1
    obtain ⟨destination, hdestination⟩ :=
      Option.isSome_iff_exists.mp (fromTokens_eq_ok_iff.mp hwritten).1
    exact ⟨source, hsource, destination, hdestination, abstract, hread, hwritten⟩

/-! ## Words that stay words -/

/-- All that a translator writes in place of words are words again. -/
structure KeepsWords (t : Translator) : Prop where
  tokens : ∀ side ∈ t.source, ∀ token ∈ side.vocabulary.forward.keys,
    t.settings.separators.IsWord token
  spellings : ∀ side ∈ t.destination, ∀ spelling ∈ side.vocabulary.forward.values,
    t.settings.separators.IsWord spelling
  names : ∀ names ∈ t.names, ∀ name ∈ names.forward.keys ++ names.forward.values,
    t.settings.separators.IsWord name

theorem mem_names_of_overrides {names : Bimap String String}
    (h : names ∈ t.overrides includeNames) : names ∈ t.names := by
  unfold overrides at h
  split at h
  · exact h
  · cases h

theorem KeepsWords.readWord (h : t.KeepsWords) (hcoherent : t.Coherent) {word : String}
    (hword : t.settings.separators.IsWord word) :
    t.settings.separators.IsWord (t.readWord includeNames word) := by
  apply hword.getD
  intro found hfound
  rcases Option.or_eq_some_iff.mp hfound with hrenamed | ⟨-, htoken⟩
  · obtain ⟨names, hnames, hvalue⟩ := Option.bind_eq_some_iff.mp hrenamed
    exact h.names names (mem_names_of_overrides hnames) found
      (List.mem_append_right _ (Bimap.mem_values_of_value? hvalue))
  · obtain ⟨side, hside, hkey⟩ := Option.bind_eq_some_iff.mp htoken
    exact h.tokens side hside found ((hcoherent.source side hside).1.mem_keys hkey)

theorem KeepsWords.writtenWord (h : t.KeepsWords) (hcoherent : t.Coherent) {word : String}
    (hword : t.settings.separators.IsWord word) :
    t.settings.separators.IsWord (t.writtenWord includeNames word) := by
  apply hword.getD
  intro found hfound
  rcases Option.or_eq_some_iff.mp hfound with hrenamed | ⟨-, hspelling⟩
  · obtain ⟨names, hnames, hkey⟩ := Option.bind_eq_some_iff.mp hrenamed
    have hgiven := mem_names_of_overrides hnames
    exact h.names names hgiven found
      (List.mem_append_left _ ((hcoherent.names names hgiven).mem_keys hkey))
  · obtain ⟨side, hside, hvalue⟩ := Option.bind_eq_some_iff.mp hspelling
    exact h.spellings side hside found (Bimap.mem_values_of_value? hvalue)

theorem KeepsWords.image (h : t.KeepsWords) (hcoherent : t.Coherent) (operation : Operation)
    {word : String} (hword : t.settings.separators.IsWord word) :
    t.settings.separators.IsWord (t.image includeNames operation word) := by
  cases operation with
  | toTokens => exact h.readWord hcoherent hword
  | fromTokens => exact h.writtenWord hcoherent hword
  | translate => exact h.writtenWord hcoherent (h.readWord hcoherent hword)

/-- An operation is one pass over the words of the code, and so is a translation. -/
theorem KeepsWords.apply_eq_mapWords (h : t.KeepsWords) (hcoherent : t.Coherent)
    {operation : Operation} (hrun : t.apply operation code includeNames = .ok output) :
    output = t.settings.separators.mapWords (t.image includeNames operation) code := by
  cases operation with
  | toTokens => exact (toTokens_eq_ok_iff.mp hrun).2.2.symm
  | fromTokens => exact (fromTokens_eq_ok_iff.mp hrun).2.2.symm
  | translate =>
    obtain ⟨abstract, hread, hwritten⟩ := translate_eq_ok_iff.mp hrun
    rw [← (fromTokens_eq_ok_iff.mp hwritten).2.2, ← (toTokens_eq_ok_iff.mp hread).2.2]
    exact Separators.mapWords_mapWords fun word hword =>
      h.readWord hcoherent (Separators.isWord_of_mem_words hword)

/-- The spans of the result are those of the code: separators are the same, and each word is what
the operation makes of it, so that a translation is one pass over the code. -/
theorem spans_of_operation (hbuilt : (ofSettings settings).result = .ok t)
    (hwords : t.KeepsWords) {operation : Operation}
    (hrun : t.apply operation code includeNames = .ok output) :
    List.Forall₂ (Span.MapsTo (t.image includeNames operation))
        (settings.separators.spans code) (settings.separators.spans output) ∧
      output = String.join
        ((settings.separators.spans code).map (Span.mapText (t.image includeNames operation))) := by
  have hcoherent := coherent_of_built hbuilt
  rw [← settings_of_built hbuilt, hwords.apply_eq_mapWords hcoherent hrun]
  refine ⟨Separators.spans_mapWords ?_, Separators.mapWords_eq_join _ _ _⟩
  intro word hword
  exact hwords.image hcoherent operation (Separators.isWord_of_mem_words hword)

theorem isWord_german :
    ∀ token ∈ Registry.german.forward.keys, Separators.standard.IsWord token := by
  decide +kernel

theorem isWord_french :
    ∀ spelling ∈ Registry.french.forward.values, Separators.standard.IsWord spelling := by
  decide +kernel

/-- An override shares its name with a spelling of the source. -/
def colourSettings : Settings where
  source := some "de"
  destination := some "fr"
  names := some [("rot", "wort"), ("blume", "fleur")]
  locales := Registry.colours

theorem spans_of_operation_colours :
    ∃ t, (ofSettings colourSettings).result = .ok t ∧ t.KeepsWords ∧
      ∃ output, t.apply .translate "blau(rot, blume) $RED$" true = .ok output ∧
        List.Forall₂ (Span.MapsTo (t.image true .translate))
          (Separators.standard.spans "blau(rot, blume) $RED$")
          (Separators.standard.spans output) ∧
        output = String.join ((Separators.standard.spans "blau(rot, blume) $RED$").map
          (Span.mapText (t.image true .translate))) := by
  obtain ⟨registry, haccepted, hgerman, hfrench⟩ := Registry.exists_colours
  have hbuilt : (ofSettings colourSettings).result =
      .ok ⟨colourSettings, registry, some ⟨"de", Registry.german⟩, some ⟨"fr", Registry.french⟩,
        some (.ofList [("rot", "wort"), ("blume", "fleur")])⟩ :=
    ofSettings_eq_ok haccepted ⟨rfl, by simpa using hgerman⟩ ⟨rfl, by simpa using hfrench⟩
  have hwords : ∀ name ∈ ["rot", "blume", "wort", "fleur"], Separators.standard.IsWord name := by
    decide +kernel
  have hkeeps : KeepsWords ⟨colourSettings, registry, some ⟨"de", Registry.german⟩,
      some ⟨"fr", Registry.french⟩, some (.ofList [("rot", "wort"), ("blume", "fleur")])⟩ := by
    refine ⟨?_, ?_, ?_⟩
    · rintro _ ⟨⟩
      exact isWord_german
    · rintro _ ⟨⟩
      exact isWord_french
    · rintro _ ⟨⟩
      exact hwords
  exact ⟨_, hbuilt, hkeeps, _, rfl, spans_of_operation hbuilt hkeeps rfl⟩

end Vernacular.Translator
