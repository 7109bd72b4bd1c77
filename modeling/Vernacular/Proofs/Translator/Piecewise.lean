import Vernacular.Proofs.Translator.Words

/-!
# Code in pieces

Whether an operation does anything is decided by the settings alone.  If it does, it may as well be
done on both sides of a separator apart, and so line by line, whatever the vocabularies hold: what
reading puts in place of a word may be cut up when it is written, but a separator of the code stays
where it is.
-/

namespace Vernacular.Translator

variable {t : Translator} {operation : Operation} {includeNames : Bool}

/-! ## What an operation needs -/

def Operation.reads : Operation → Bool
  | .toTokens | .translate => true
  | .fromTokens => false

def Operation.writes : Operation → Bool
  | .fromTokens | .translate => true
  | .toTokens => false

/-- The first setting that an operation misses. -/
def lacking? (t : Translator) (operation : Operation) (includeNames : Bool) :
    Option OperationError :=
  if operation.reads ∧ t.source.isNone then some .noSource
  else if operation.writes ∧ t.destination.isNone then some .noDestination
  else if includeNames ∧ t.names.isNone then some .noNames
  else none

/-- What an operation makes of code once nothing is missing. -/
def rewrite (t : Translator) (includeNames : Bool) : Operation → String → String
  | .toTokens => t.settings.separators.mapWords (t.readWord includeNames)
  | .fromTokens => t.settings.separators.mapWords (t.writtenWord includeNames)
  | .translate =>
    t.settings.separators.mapWords (t.writtenWord false) ∘
      t.settings.separators.mapWords (t.readWord includeNames)

theorem lacking?_eq_none_iff :
    t.lacking? operation includeNames = none ↔
      (operation.reads = true → t.source.isSome = true) ∧
        (operation.writes = true → t.destination.isSome = true) ∧
          (includeNames = true → t.hasNames = true) := by
  unfold lacking? hasNames
  split_ifs with hsource hdestination hnames <;> simp_all [Option.isSome_iff_ne_none]

theorem apply_eq_ok_iff {code output : String} :
    t.apply operation code includeNames = .ok output ↔
      t.lacking? operation includeNames = none ∧
        t.rewrite includeNames operation code = output := by
  rw [lacking?_eq_none_iff]
  cases operation with
  | toTokens =>
    have hreading : t.toTokens code includeNames = .ok output ↔ _ := toTokens_eq_ok_iff
    simpa [apply, rewrite, Operation.reads, Operation.writes, and_assoc] using hreading
  | fromTokens =>
    have hwriting : t.fromTokens code includeNames = .ok output ↔ _ := fromTokens_eq_ok_iff
    simpa [apply, rewrite, Operation.reads, Operation.writes, and_assoc] using hwriting
  | translate =>
    change t.translate code includeNames = .ok output ↔ _
    simp only [translate_eq_ok_iff, toTokens_eq_ok_iff, fromTokens_eq_ok_iff, Operation.reads,
      Operation.writes, rewrite, Function.comp_apply, forall_const]
    constructor
    · rintro ⟨abstract, ⟨hsource, hnames, rfl⟩, hdestination, -, rfl⟩
      exact ⟨⟨hsource, hdestination, hnames⟩, rfl⟩
    · rintro ⟨⟨hsource, hdestination, hnames⟩, rfl⟩
      exact ⟨_, ⟨hsource, hnames, rfl⟩, hdestination, by simp, rfl⟩

theorem apply_eq_ok (hlacking : t.lacking? operation includeNames = none) (code : String) :
    t.apply operation code includeNames = .ok (t.rewrite includeNames operation code) :=
  apply_eq_ok_iff.mpr ⟨hlacking, rfl⟩

theorem sourceSide_of_isNone (h : t.source.isNone = true) : t.sourceSide = .error .noSource := by
  rw [sourceSide, Option.isNone_iff_eq_none.mp h]

theorem destinationSide_of_isNone (h : t.destination.isNone = true) :
    t.destinationSide = .error .noDestination := by
  rw [destinationSide, Option.isNone_iff_eq_none.mp h]

theorem chosenNames_of_isNone (h : t.names.isNone = true) :
    t.chosenNames true = .error .noNames := by
  rw [chosenNames, if_pos rfl, Option.isNone_iff_eq_none.mp h]

theorem exists_sourceSide (h : ¬t.source.isNone = true) : ∃ side, t.sourceSide = .ok side := by
  obtain ⟨side, hside⟩ := Option.ne_none_iff_exists'.mp (mt Option.isNone_iff_eq_none.mpr h)
  exact ⟨side, sourceSide_eq_ok_iff.mpr hside⟩

theorem exists_destinationSide (h : ¬t.destination.isNone = true) :
    ∃ side, t.destinationSide = .ok side := by
  obtain ⟨side, hside⟩ := Option.ne_none_iff_exists'.mp (mt Option.isNone_iff_eq_none.mpr h)
  exact ⟨side, destinationSide_eq_ok_iff.mpr hside⟩

/-- What is missing is reported whatever the code is. -/
theorem apply_eq_error {error : OperationError}
    (hlacking : t.lacking? operation includeNames = some error) (code : String) :
    t.apply operation code includeNames = .error error := by
  unfold lacking? at hlacking
  split_ifs at hlacking with hsource hdestination hnames
  · obtain rfl := Option.some.inj hlacking
    have herror := sourceSide_of_isNone hsource.2
    cases operation with
    | toTokens => rw [apply, toTokens, herror]; rfl
    | fromTokens => cases hsource.1
    | translate => rw [apply, translate, herror]; rfl
  · obtain rfl := Option.some.inj hlacking
    have herror := destinationSide_of_isNone hdestination.2
    cases operation with
    | toTokens => cases hdestination.1
    | fromTokens => rw [apply, fromTokens, herror]; rfl
    | translate =>
      obtain ⟨source, hread⟩ := exists_sourceSide fun h => hsource ⟨rfl, h⟩
      rw [apply, translate, hread, herror]
      rfl
  · obtain rfl := Option.some.inj hlacking
    obtain ⟨rfl, hnone⟩ := hnames
    have herror := chosenNames_of_isNone hnone
    cases operation with
    | toTokens =>
      obtain ⟨source, hread⟩ := exists_sourceSide fun h => hsource ⟨rfl, h⟩
      rw [apply, toTokens, hread, herror]
      rfl
    | fromTokens =>
      obtain ⟨destination, hwritten⟩ := exists_destinationSide fun h => hdestination ⟨rfl, h⟩
      rw [apply, fromTokens, hwritten, herror]
      rfl
    | translate =>
      -- The destination is looked at before the names that the first pass wants.
      obtain ⟨source, hread⟩ := exists_sourceSide fun h => hsource ⟨rfl, h⟩
      obtain ⟨destination, hwritten⟩ := exists_destinationSide fun h => hdestination ⟨rfl, h⟩
      rw [apply, translate, toTokens, hread, hwritten, herror]
      rfl

/-! ## Pieces of code -/

/-- Both passes of a translation leave the separators of the code where they are. -/
theorem piecewise_rewrite {c : Char} (hc : t.settings.separators.contains c = true) :
    Separators.Piecewise c (t.rewrite includeNames operation) := by
  cases operation with
  | toTokens => exact Separators.piecewise_mapWords hc _
  | fromTokens => exact Separators.piecewise_mapWords hc _
  | translate =>
    exact (Separators.piecewise_mapWords hc _).comp (Separators.piecewise_mapWords hc _)

/-- An operation fails on all code alike or on none, and then code can be cut at any separator: the
pieces are rewritten apart and put together again. -/
theorem apply_piecewise (t : Translator) (operation : Operation) (includeNames : Bool) {c : Char}
    (hc : t.settings.separators.contains c = true) :
    (∃ error, ∀ code, t.apply operation code includeNames = .error error) ∨
      ∃ rewrite : String → String,
        (∀ code, t.apply operation code includeNames = .ok (rewrite code)) ∧
        (∀ before after, rewrite (before ++ String.singleton c ++ after) =
          rewrite before ++ String.singleton c ++ rewrite after) ∧
        ∀ code, rewrite code =
          (String.singleton c).intercalate ((Separators.pieces c code).map rewrite) := by
  cases hlacking : t.lacking? operation includeNames with
  | some error => exact .inl ⟨error, apply_eq_error hlacking⟩
  | none =>
    have hpieces : Separators.Piecewise c (t.rewrite includeNames operation) :=
      piecewise_rewrite hc
    exact .inr ⟨t.rewrite includeNames operation, apply_eq_ok hlacking, hpieces,
      hpieces.eq_intercalate⟩

theorem exists_colourTranslator :
    ∃ t, (ofSettings colourSettings).result = .ok t ∧ t.settings = colourSettings ∧
      t.lacking? .translate true = none := by
  obtain ⟨registry, haccepted, hgerman, hfrench⟩ := Registry.exists_colours
  have hsource : IsSide colourSettings registry .source (some ⟨"de", _⟩) :=
    ⟨rfl, by simpa using hgerman⟩
  have hdestination : IsSide colourSettings registry .destination (some ⟨"fr", _⟩) :=
    ⟨rfl, by simpa using hfrench⟩
  exact ⟨_, ofSettings_eq_ok haccepted hsource hdestination, rfl, rfl⟩

theorem apply_piecewise_colours :
    ∃ t, (ofSettings colourSettings).result = .ok t ∧
      t.settings.separators.contains '\n' = true ∧
      ∃ rewrite : String → String,
        (∀ code, t.apply .translate code true = .ok (rewrite code)) ∧
        (∀ before after, rewrite (before ++ String.singleton '\n' ++ after) =
          rewrite before ++ String.singleton '\n' ++ rewrite after) ∧
        ∀ code, rewrite code =
          (String.singleton '\n').intercalate ((Separators.pieces '\n' code).map rewrite) := by
  obtain ⟨t, hbuilt, hsettings, hlacking⟩ := exists_colourTranslator
  have hnewline : t.settings.separators.contains '\n' = true := by
    rw [hsettings]
    decide +kernel
  refine ⟨t, hbuilt, hnewline, ?_⟩
  rcases apply_piecewise t .translate true hnewline with ⟨error, herror⟩ | hpieces
  · cases (herror "").symm.trans (apply_eq_ok hlacking "")
  · exact hpieces

end Vernacular.Translator
