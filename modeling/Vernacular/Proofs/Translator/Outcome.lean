import Vernacular.Proofs.Translator.Piecewise

/-!
# What can fail

The settings decide whether there is a translator, and for every operation whether it gives a text.
Locales are looked up once, when the translator is set up; no operation can miss one afterwards, and
none depends on the code for its success.
-/

namespace Vernacular.Translator

variable {settings : Settings} {registry : Registry} {t : Translator} {role : Role}
  {operation : Operation} {includeNames : Bool}

/-! ## Setting up -/

/-- The failures of setting up: definitions come first, then the source, then the destination. -/
inductive SetupFails (settings : Settings) : Failure → Prop
  | definitions {error : RegistrationError}
      (hrefused :
        (Registry.withBuiltins settings.affixes settings.locales).result = .error error) :
      SetupFails settings error.failure
  | source {registry : Registry} {localeName : String}
      (haccepted : (Registry.withBuiltins settings.affixes settings.locales).result = .ok registry)
      (hgiven : settings.source = some localeName) (hunknown : localeName ∉ registry.names) :
      SetupFails settings
        ⟨.unknownLocale localeName "source", .diagnostic (.unknownLocale localeName "source")⟩
  | destination {registry : Registry} {localeName : String}
      (haccepted : (Registry.withBuiltins settings.affixes settings.locales).result = .ok registry)
      (hsource : ∀ given ∈ settings.source, given ∈ registry.names)
      (hgiven : settings.destination = some localeName) (hunknown : localeName ∉ registry.names) :
      SetupFails settings ⟨.unknownLocale localeName "destination",
        .diagnostic (.unknownLocale localeName "destination")⟩

theorem side_eq_error_iff {error : SetupError} :
    side settings registry role = .error error ↔
      ∃ localeName, settings.localeFor role = some localeName ∧ localeName ∉ registry.names ∧
        .unknownLocale localeName role = error := by
  unfold side
  cases settings.localeFor role with
  | none => simp
  | some localeName =>
    cases hvocabulary : registry.vocabulary? localeName with
    | none => simp [← Registry.vocabulary?_eq_none_iff, hvocabulary]
    | some vocabulary => simp [hvocabulary, Registry.mem_names_of_vocabulary? hvocabulary]

theorem exists_side_iff :
    (∃ given, side settings registry role = .ok given) ↔
      ∀ localeName ∈ settings.localeFor role, localeName ∈ registry.names := by
  cases hside : side settings registry role with
  | ok given =>
    obtain ⟨hname, hregistered⟩ := side_eq_ok_iff.mp hside
    refine iff_of_true ⟨given, rfl⟩ ?_
    rw [← hname]
    intro localeName hgiven
    obtain ⟨chosen, hchosen, rfl⟩ := Option.map_eq_some_iff.mp hgiven
    exact Registry.mem_names_of_vocabulary? (hregistered chosen hchosen)
  | error error =>
    obtain ⟨localeName, hgiven, hunknown, -⟩ := side_eq_error_iff.mp hside
    refine iff_of_false (by simp) ?_
    intro hall
    exact hunknown (hall localeName hgiven)

theorem ofRegistry_eq_error_iff {error : SetupError} :
    ofRegistry settings registry = .error error ↔
      side settings registry .source = .error error ∨
        (∃ given, side settings registry .source = .ok given) ∧
          side settings registry .destination = .error error := by
  simp [ofRegistry, except_bind_eq_error_iff, pure, Except.pure]

theorem ofSettings_eq_error_iff {error : SetupError} :
    (ofSettings settings).result = .error error ↔
      (∃ cause, (Registry.withBuiltins settings.affixes settings.locales).result = .error cause ∧
        .registration cause = error) ∨
      ∃ registry, (Registry.withBuiltins settings.affixes settings.locales).result = .ok registry ∧
        ofRegistry settings registry = .error error := by
  rw [ofSettings, Logged.andThen_eq_error_iff, Logged.mapError_eq_error_iff]
  simp only [Logged.mapError_eq_ok_iff]
  refine or_congr_right (exists_congr fun registry => and_congr_right fun _ => ?_)
  cases hresult : ofRegistry settings registry <;> simp [Logged.silent]

theorem setupFails_iff {failure : Failure} :
    (∃ error, (ofSettings settings).result = .error error ∧ error.failure = failure) ↔
      SetupFails settings failure := by
  constructor
  · rintro ⟨error, herror, rfl⟩
    rcases ofSettings_eq_error_iff.mp herror with ⟨cause, hrefused, rfl⟩ | ⟨registry, haccepted, h⟩
    · exact .definitions hrefused
    rcases ofRegistry_eq_error_iff.mp h with hsource | ⟨hsource, hdestination⟩
    · obtain ⟨localeName, hgiven, hunknown, rfl⟩ := side_eq_error_iff.mp hsource
      exact .source haccepted hgiven hunknown
    · obtain ⟨localeName, hgiven, hunknown, rfl⟩ := side_eq_error_iff.mp hdestination
      exact .destination haccepted (exists_side_iff.mp hsource) hgiven hunknown
  · intro h
    cases h with
    | definitions hrefused =>
      exact ⟨_, ofSettings_eq_error_iff.mpr (.inl ⟨_, hrefused, rfl⟩), rfl⟩
    | @source registry localeName haccepted hgiven hunknown =>
      have hsource : side settings registry .source = .error (.unknownLocale localeName .source) :=
        side_eq_error_iff.mpr ⟨localeName, hgiven, hunknown, rfl⟩
      have hside := ofRegistry_eq_error_iff.mpr (.inl hsource)
      exact ⟨_, ofSettings_eq_error_iff.mpr (.inr ⟨_, haccepted, hside⟩), rfl⟩
    | @destination registry localeName haccepted hsource hgiven hunknown =>
      have hdestination : side settings registry .destination =
          .error (.unknownLocale localeName .destination) :=
        side_eq_error_iff.mpr ⟨localeName, hgiven, hunknown, rfl⟩
      have hside := ofRegistry_eq_error_iff.mpr (.inr ⟨exists_side_iff.mpr hsource, hdestination⟩)
      exact ⟨_, ofSettings_eq_error_iff.mpr (.inr ⟨_, haccepted, hside⟩), rfl⟩

/-! ## Operations -/

def sideFor (t : Translator) : Role → Option Side
  | .source => t.source
  | .destination => t.destination

theorem side_of_built (hbuilt : (ofSettings settings).result = .ok t) (role : Role) :
    side settings t.registry role = .ok (t.sideFor role) := by
  obtain ⟨registry, -, hresult⟩ := ofSettings_eq_ok_iff.mp hbuilt
  obtain ⟨-, rfl, hsource, hdestination, -⟩ := ofRegistry_eq_ok_iff.mp hresult
  cases role with
  | source => exact side_eq_ok_iff.mpr hsource
  | destination => exact side_eq_ok_iff.mpr hdestination

/-- The setting that an operation misses.  What it reads with is asked for before what it writes
with, and both before the names. -/
inductive Lacks (settings : Settings) (operation : Operation) (includeNames : Bool) :
    OperationError → Prop
  | source (hreads : operation.reads = true) (hnone : settings.source = none) :
      Lacks settings operation includeNames .noSource
  | destination (hsource : operation.reads = true → settings.source ≠ none)
      (hwrites : operation.writes = true) (hnone : settings.destination = none) :
      Lacks settings operation includeNames .noDestination
  | names (hsource : operation.reads = true → settings.source ≠ none)
      (hdestination : operation.writes = true → settings.destination ≠ none)
      (hwanted : includeNames = true) (hnone : settings.names = none) :
      Lacks settings operation includeNames .noNames

theorem sideFor_eq_none_iff (hbuilt : (ofSettings settings).result = .ok t) (role : Role) :
    t.sideFor role = none ↔ settings.localeFor role = none := by
  have hname := (side_eq_ok_iff.mp (side_of_built hbuilt role)).1
  rw [← hname, Option.map_eq_none_iff]

theorem names_eq_none_iff (hbuilt : (ofSettings settings).result = .ok t) :
    t.names = none ↔ settings.names = none := by
  obtain ⟨registry, -, hresult⟩ := ofSettings_eq_ok_iff.mp hbuilt
  rw [(ofRegistry_eq_ok_iff.mp hresult).2.2.2.2, Option.map_eq_none_iff]

theorem lacking?_eq_some_iff (hbuilt : (ofSettings settings).result = .ok t)
    {error : OperationError} :
    t.lacking? operation includeNames = some error ↔
      Lacks settings operation includeNames error := by
  have hsource : t.source = none ↔ settings.source = none := sideFor_eq_none_iff hbuilt .source
  have hdestination : t.destination = none ↔ settings.destination = none :=
    sideFor_eq_none_iff hbuilt .destination
  have hnames := names_eq_none_iff hbuilt
  simp only [lacking?, Option.isNone_iff_eq_none, hsource, hdestination, hnames]
  constructor
  · intro h
    split_ifs at h with hread hwritten hwanted <;> obtain rfl := Option.some.inj h
    · exact .source hread.1 hread.2
    · exact .destination (fun hreads hnone => hread ⟨hreads, hnone⟩) hwritten.1 hwritten.2
    · exact .names (fun hreads hnone => hread ⟨hreads, hnone⟩)
        (fun hwrites hnone => hwritten ⟨hwrites, hnone⟩) hwanted.1 hwanted.2
  · intro h
    cases h with
    | source hreads hnone => rw [if_pos ⟨hreads, hnone⟩]
    | destination hsource hwrites hnone =>
      rw [if_neg fun h => hsource h.1 h.2, if_pos ⟨hwrites, hnone⟩]
    | names hsource hdestination hwanted hnone =>
      rw [if_neg fun h => hsource h.1 h.2, if_neg fun h => hdestination h.1 h.2,
        if_pos ⟨hwanted, hnone⟩]

theorem apply_eq_error_iff {code : String} {error : OperationError} :
    t.apply operation code includeNames = .error error ↔
      t.lacking? operation includeNames = some error := by
  refine ⟨fun happly => ?_, fun hlacking => apply_eq_error hlacking code⟩
  cases hlacking : t.lacking? operation includeNames with
  | none => cases happly.symm.trans (apply_eq_ok hlacking code)
  | some other =>
    obtain rfl := Except.error.inj (happly.symm.trans (apply_eq_error hlacking code))
    rfl

theorem exists_apply_iff {code : String} :
    (∃ output, t.apply operation code includeNames = .ok output) ↔
      t.lacking? operation includeNames = none := by
  simp [apply_eq_ok_iff]

/-- There is a translator unless a definition is refused or a role is given to an unknown locale.
It finds the locales of its roles again whenever it looks for them, so an operation fails just when
a setting that it needs was left out, and then it fails on all code. -/
theorem outcomes_of_settings (settings : Settings) :
    (∀ failure, (∃ error, (ofSettings settings).result = .error error ∧ error.failure = failure) ↔
      SetupFails settings failure) ∧
    ∀ t, (ofSettings settings).result = .ok t →
      (∀ role, side settings t.registry role = .ok (t.sideFor role)) ∧
      ∀ operation includeNames code,
        (∀ error, t.apply operation code includeNames = .error error ↔
          Lacks settings operation includeNames error) ∧
        ((∃ output, t.apply operation code includeNames = .ok output) ↔
          ∀ error, ¬Lacks settings operation includeNames error) := by
  refine ⟨fun failure => setupFails_iff, fun t hbuilt => ⟨side_of_built hbuilt, ?_⟩⟩
  intro operation includeNames code
  refine ⟨fun error => apply_eq_error_iff.trans (lacking?_eq_some_iff hbuilt), ?_⟩
  rw [exists_apply_iff, Option.eq_none_iff_forall_ne_some]
  exact forall_congr' fun error => not_congr (lacking?_eq_some_iff hbuilt)

/-- No source and no names. -/
def writingSettings : Settings where
  destination := some "de"
  locales := Registry.colours

theorem outcomes_of_settings_writing :
    ∃ t, (ofSettings writingSettings).result = .ok t ∧
      ∀ code, t.apply .translate code true = .error .noSource ∧
        t.apply .fromTokens code true = .error .noNames ∧
        ∃ output, t.apply .fromTokens code false = .ok output := by
  obtain ⟨registry, haccepted, hgerman, -⟩ := Registry.exists_colours
  have hsource : IsSide writingSettings registry .source none := ⟨rfl, by simp⟩
  have hdestination : IsSide writingSettings registry .destination (some ⟨"de", _⟩) :=
    ⟨rfl, by simpa using hgerman⟩
  obtain ⟨t, hbuilt⟩ : ∃ t, (ofSettings writingSettings).result = .ok t :=
    ⟨_, ofSettings_eq_ok haccepted hsource hdestination⟩
  obtain ⟨-, hoperations⟩ := (outcomes_of_settings writingSettings).2 t hbuilt
  refine ⟨t, hbuilt, fun code => ⟨?_, ?_, ?_⟩⟩
  · exact ((hoperations .translate true code).1 _).mpr (.source rfl rfl)
  · exact ((hoperations .fromTokens true code).1 _).mpr (.names nofun nofun rfl rfl)
  · refine (hoperations .fromTokens false code).2.mpr ?_
    rintro _ (⟨hreads, -⟩ | ⟨-, -, hnone⟩ | ⟨-, -, hwanted, -⟩)
    · cases hreads
    · cases hnone
    · cases hwanted

end Vernacular.Translator
