import Vernacular.Proofs.Locale.Resolution

/-!
# Which definitions are accepted

Definitions are read in order, and each is held against the names that stand before it.  A list is
accepted if none of its definitions is refused; otherwise the first one that is refused says why.
-/

namespace Vernacular.Registry

variable {affixes : Affixes} {definitions : List (String × Definition)} {r registry : Registry}
  {names : List String} {name : String} {d : Definition} {error : RegistrationError} {place : Nat}

/-! ## One definition -/

/-- Why a definition cannot follow locales of the given names.  That it extends an unknown locale is
said first; a name that is taken matters only after that. -/
inductive Refused (names : List String) (name : String) (d : Definition) :
    RegistrationError → Prop
  | unknownBase {target : String} (hbase : d.base? = some target) (hunknown : target ∉ names) :
      Refused names name d (.unknownBase name target)
  | duplicateName (hbase : ∀ target ∈ d.base?, target ∈ names) (hname : name ∈ names) :
      Refused names name d (.duplicateName name)

def Fits (names : List String) (name : String) (d : Definition) : Prop :=
  (∀ target ∈ d.base?, target ∈ names) ∧ name ∉ names

theorem Refused.unique {other : RegistrationError} (h : Refused names name d error)
    (h' : Refused names name d other) : error = other := by
  cases h with
  | unknownBase hbase hunknown =>
    cases h' with
    | unknownBase hbase' _ =>
      obtain rfl := Option.some.inj (hbase.symm.trans hbase')
      rfl
    | duplicateName hpresent _ => exact absurd (hpresent _ hbase) hunknown
  | duplicateName hpresent _ =>
    cases h' with
    | unknownBase hbase hunknown => exact absurd (hpresent _ hbase) hunknown
    | duplicateName _ _ => rfl

theorem not_refused_iff : (∀ error, ¬Refused names name d error) ↔ Fits names name d := by
  constructor
  · intro h
    have hbase : ∀ target ∈ d.base?, target ∈ names := by
      intro target htarget
      by_contra hunknown
      exact h _ (.unknownBase htarget hunknown)
    exact ⟨hbase, fun hname => h _ (.duplicateName hbase hname)⟩
  · rintro ⟨hbase, hname⟩ error hrefused
    cases hrefused with
    | unknownBase htarget hunknown => exact hunknown (hbase _ htarget)
    | duplicateName _ htaken => exact hname htaken

theorem admit?_eq_error_iff : r.admit? name d = .error error ↔ Refused r.names name d error := by
  constructor
  · intro h
    unfold admit? at h
    split at h
    · next hbase =>
      split at h
      · next htaken =>
        obtain rfl := Except.error.inj h
        exact .duplicateName (by simp [hbase]) (contains_eq_true_iff.mp htaken)
      · cases h
    · next target hbase =>
      split at h
      · next hunknown =>
        obtain rfl := Except.error.inj h
        exact .unknownBase hbase (vocabulary?_eq_none_iff.mp hunknown)
      · next vocabulary htarget =>
        split at h
        · next htaken =>
          obtain rfl := Except.error.inj h
          refine .duplicateName ?_ (contains_eq_true_iff.mp htaken)
          simpa [hbase] using mem_names_of_vocabulary? htarget
        · cases h
  · intro h
    unfold admit?
    cases h with
    | unknownBase hbase hunknown => simp [hbase, vocabulary?_eq_none_iff.mpr hunknown]
    | duplicateName hbase htaken =>
      have hcontains := contains_eq_true_iff.mpr htaken
      cases hd : d.base? with
      | none => simp [hcontains]
      | some target =>
        cases htarget : r.vocabulary? target with
        | none => exact absurd (hbase target hd) (vocabulary?_eq_none_iff.mp htarget)
        | some vocabulary => simp [htarget, hcontains]

/-! ## A run of registrations -/

theorem register_eq_error_iff :
    (r.register name d).result = .error error ↔ Refused r.names name d error := by
  rw [← admit?_eq_error_iff, register]
  cases r.admit? name d <;> simp [Logged.silent]

theorem registerAll_append_eq_ok_iff {earlier later : List (String × Definition)} :
    (r.registerAll (earlier ++ later)).result = .ok registry ↔
      ∃ middle, (r.registerAll earlier).result = .ok middle ∧
        (middle.registerAll later).result = .ok registry := by
  rw [registerAll_append]
  exact Logged.andThen_eq_ok_iff

/-- A run stops at a definition that is refused after all those before it were registered. -/
theorem exists_split_of_error (h : (r.registerAll definitions).result = .error error) :
    ∃ earlier name d later middle, definitions = earlier ++ (name, d) :: later ∧
      (r.registerAll earlier).result = .ok middle ∧ Refused middle.names name d error := by
  induction definitions generalizing r with
  | nil => cases h
  | cons given rest ih =>
    obtain ⟨name, d⟩ := given
    rw [registerAll, Logged.andThen] at h
    cases hregister : (r.register name d).result with
    | error first =>
      rw [hregister] at h
      obtain rfl := Except.error.inj h
      exact ⟨[], name, d, rest, r, rfl, rfl, register_eq_error_iff.mp hregister⟩
    | ok next =>
      rw [hregister] at h
      obtain ⟨earlier, name', d', later, middle, rfl, hearlier, hrefused⟩ := ih h
      exact ⟨(name, d) :: earlier, name', d', later, middle, rfl,
        registerAll_cons_eq_ok_iff.mpr ⟨next, hregister, hearlier⟩, hrefused⟩

/-! ## Places -/

def namesBefore (definitions : List (String × Definition)) (place : Nat) : List String :=
  (definitions.take place).map Prod.fst

/-- The definition at `place` is refused over the names before it. -/
def RefusedAt (definitions : List (String × Definition)) (place : Nat)
    (error : RegistrationError) : Prop :=
  ∃ name d, definitions[place]? = some (name, d) ∧
    Refused (namesBefore definitions place) name d error

theorem not_refusedAt_iff :
    (∀ place error, ¬RefusedAt definitions place error) ↔
      ∀ place name d, definitions[place]? = some (name, d) →
        Fits (namesBefore definitions place) name d := by
  simp only [← not_refused_iff]
  constructor
  · intro h place name d hplace error hrefused
    exact h place error ⟨name, d, hplace, hrefused⟩
  · rintro h place error ⟨name, d, hplace, hrefused⟩
    exact h place name d hplace error hrefused

theorem refusedAt_length {earlier later : List (String × Definition)} :
    RefusedAt (earlier ++ (name, d) :: later) earlier.length error ↔
      Refused (earlier.map Prod.fst) name d error := by
  simp [RefusedAt, namesBefore]

theorem refusedAt_append_left {earlier later : List (String × Definition)}
    (hplace : place < earlier.length) :
    RefusedAt (earlier ++ later) place error ↔ RefusedAt earlier place error := by
  simp only [RefusedAt, namesBefore, List.getElem?_append_left hplace,
    List.take_append_of_le_length (Nat.le_of_lt hplace)]

theorem split_at_place {given : String × Definition} (hplace : definitions[place]? = some given) :
    definitions.take place ++ given :: definitions.drop (place + 1) = definitions := by
  obtain ⟨hlength, rfl⟩ := List.getElem?_eq_some_iff.mp hplace
  rw [← List.drop_eq_getElem_cons hlength, List.take_append_drop]

theorem names_of_accepted (haccepted : (ofDefinitions affixes definitions).result = .ok registry) :
    registry.names = definitions.map Prod.fst :=
  (resolves_of_accepted haccepted).names_eq

theorem not_refusedAt_of_accepted
    (haccepted : (ofDefinitions affixes definitions).result = .ok registry) :
    ¬RefusedAt definitions place error := by
  rintro ⟨name, d, hplace, hrefused⟩
  -- The run up to `place` is accepted too, and it holds the names that `RefusedAt` speaks of.
  rw [ofDefinitions, ← split_at_place hplace, registerAll_append_eq_ok_iff] at haccepted
  obtain ⟨middle, hmiddle, hlater⟩ := haccepted
  obtain ⟨next, hnext, -⟩ := registerAll_cons_eq_ok_iff.mp hlater
  rw [namesBefore, ← names_of_accepted hmiddle, ← register_eq_error_iff, hnext] at hrefused
  cases hrefused

def FirstRefused (definitions : List (String × Definition)) (place : Nat)
    (error : RegistrationError) : Prop :=
  RefusedAt definitions place error ∧
    ∀ earlier < place, ∀ other, ¬RefusedAt definitions earlier other

theorem FirstRefused.unique {place' : Nat} {other : RegistrationError}
    (h : FirstRefused definitions place error) (h' : FirstRefused definitions place' other) :
    error = other := by
  obtain ⟨⟨name, d, hplace, hrefused⟩, hfirst⟩ := h
  obtain ⟨⟨name', d', hplace', hrefused'⟩, hfirst'⟩ := h'
  obtain rfl : place = place' := by
    rcases Nat.lt_trichotomy place place' with hlt | heq | hgt
    · exact absurd ⟨name, d, hplace, hrefused⟩ (hfirst' place hlt error)
    · exact heq
    · exact absurd ⟨name', d', hplace', hrefused'⟩ (hfirst place' hgt other)
  obtain ⟨rfl, rfl⟩ := Prod.mk.inj (Option.some.inj (hplace.symm.trans hplace'))
  exact hrefused.unique hrefused'

theorem exists_firstRefused (h : (ofDefinitions affixes definitions).result = .error error) :
    ∃ place, FirstRefused definitions place error := by
  obtain ⟨earlier, name, d, later, middle, rfl, hmiddle, hrefused⟩ := exists_split_of_error h
  refine ⟨earlier.length, ?_, ?_⟩
  · rw [refusedAt_length, ← names_of_accepted hmiddle]
    exact hrefused
  · intro place hplace other
    rw [refusedAt_append_left hplace]
    exact not_refusedAt_of_accepted hmiddle

theorem exists_ofDefinitions_iff :
    (∃ registry, (ofDefinitions affixes definitions).result = .ok registry) ↔
      ∀ place error, ¬RefusedAt definitions place error := by
  constructor
  · rintro ⟨registry, haccepted⟩ place error
    exact not_refusedAt_of_accepted haccepted
  · intro h
    cases hresult : (ofDefinitions affixes definitions).result with
    | ok registry => exact ⟨registry, rfl⟩
    | error error =>
      obtain ⟨place, hrefused, -⟩ := exists_firstRefused hresult
      exact absurd hrefused (h place error)

theorem ofDefinitions_eq_error_iff :
    (ofDefinitions affixes definitions).result = .error error ↔
      ∃ place, FirstRefused definitions place error := by
  refine ⟨exists_firstRefused, ?_⟩
  rintro ⟨place, hfirst⟩
  cases hresult : (ofDefinitions affixes definitions).result with
  | ok registry => exact absurd hfirst.1 (not_refusedAt_of_accepted hresult)
  | error other =>
    obtain ⟨place', hfirst'⟩ := exists_firstRefused hresult
    rw [hfirst.unique hfirst']

/-! ## What is there in the end -/

theorem Resolves.definition?_eq_some_iff (h : Resolves affixes definitions registry) :
    registry.definition? name = some d ↔ (name, d) ∈ definitions := by
  constructor
  · intro hdefinition
    obtain ⟨found, hget, rfl⟩ := Option.map_eq_some_iff.mp hdefinition
    have hname : name ∈ registry.names := Dictionary.mem_keys_of_get? hget
    obtain ⟨place, e, hplace⟩ := h.exists_place hname
    obtain ⟨overriding, root, -, hresolved⟩ := h.resolved hplace
    obtain rfl := Option.some.inj (hget.symm.trans hresolved)
    exact List.mem_of_getElem? hplace
  · intro hmem
    obtain ⟨place, hplace⟩ := List.mem_iff_getElem?.mp hmem
    obtain ⟨overriding, root, -, hresolved⟩ := h.resolved hplace
    rw [definition?, hresolved, Option.map_some]

theorem Resolves.base_eq_some_iff (h : Resolves affixes definitions registry)
    {base : Option String} :
    (registry.definition? name).map Definition.base? = some base ↔
      (name, base) ∈ headers definitions := by
  simp only [Option.map_eq_some_iff, h.definition?_eq_some_iff, headers, List.mem_map,
    Prod.mk.injEq, Prod.exists]
  constructor
  · rintro ⟨d, hmem, hbase⟩
    exact ⟨name, d, hmem, rfl, hbase⟩
  · rintro ⟨_, d, hmem, rfl, hbase⟩
    exact ⟨d, hmem, hbase⟩

theorem length_builtin_le_of_refusedAt
    (h : RefusedAt (Builtin.locales ++ definitions) place error) :
    Builtin.locales.length ≤ place := by
  by_contra hplace
  have hbuiltin : ∃ registry, (withBuiltins .standard []).result = .ok registry :=
    exists_withBuiltins_iff.mpr trivial
  obtain ⟨registry, haccepted⟩ := hbuiltin
  rw [withBuiltins_eq, List.append_nil] at haccepted
  rw [refusedAt_append_left (Nat.lt_of_not_le hplace)] at h
  exact not_refusedAt_of_accepted haccepted h

/-- A list of definitions is accepted if each of them fits behind those before it, and then it is
what the registry holds.  Otherwise the first one that is refused decides on the error.  The
built-in definitions come before the given ones and are never refused themselves. -/
theorem ofDefinitions_outcome (affixes : Affixes) (definitions : List (String × Definition)) :
    ((∃ registry, (ofDefinitions affixes definitions).result = .ok registry) ↔
      ∀ place name d, definitions[place]? = some (name, d) →
        (∀ target ∈ d.base?, target ∈ namesBefore definitions place) ∧
          name ∉ namesBefore definitions place) ∧
    (∀ registry, (ofDefinitions affixes definitions).result = .ok registry →
      registry.names = definitions.map Prod.fst ∧
      (∀ name d, registry.definition? name = some d ↔ (name, d) ∈ definitions) ∧
      (∀ name base, (registry.definition? name).map Definition.base? = some base ↔
        (name, base) ∈ headers definitions) ∧
      ∀ name, (∃ vocabulary, registry.vocabulary? name = some vocabulary) ↔
        name ∈ definitions.map Prod.fst) ∧
    (∀ error, (ofDefinitions affixes definitions).result = .error error ↔
      ∃ place, RefusedAt definitions place error ∧
        ∀ earlier < place, ∀ other, ¬RefusedAt definitions earlier other) ∧
    withBuiltins affixes definitions = ofDefinitions affixes (Builtin.locales ++ definitions) ∧
    ∀ place error, RefusedAt (Builtin.locales ++ definitions) place error →
      Builtin.locales.length ≤ place := by
  refine ⟨exists_ofDefinitions_iff.trans not_refusedAt_iff, ?_,
    fun error => ofDefinitions_eq_error_iff, withBuiltins_eq affixes definitions,
    fun place error => length_builtin_le_of_refusedAt⟩
  intro registry haccepted
  have hresolves := resolves_of_accepted haccepted
  exact ⟨hresolves.names_eq, fun name d => hresolves.definition?_eq_some_iff,
    fun name base => hresolves.base_eq_some_iff,
    fun name => hresolves.names_eq ▸ exists_vocabulary?_iff⟩

/-- The name of the second definition is taken, and what it extends is not there either. -/
def doubled : List (String × Definition) :=
  [("fr", .ofList [("RED", "rouge")]), ("fr", .ofList [("extends", "it"), ("RED", "rosso")]),
   ("fr", .ofList [("RED", "pourpre")])]

theorem ofDefinitions_outcome_doubled :
    RefusedAt doubled 1 (.unknownBase "fr" "it") ∧
      (ofDefinitions .standard doubled).result = .error (.unknownBase "fr" "it") := by
  have hrefused : RefusedAt doubled 1 (.unknownBase "fr" "it") :=
    ⟨"fr", _, rfl, .unknownBase rfl (by decide)⟩
  have hcomplete : Definition.base? (.ofList [("RED", "rouge")]) = none := rfl
  have hfirst : Fits (namesBefore doubled 0) "fr" (.ofList [("RED", "rouge")]) :=
    ⟨by simp [hcomplete], by simp [namesBefore]⟩
  refine ⟨hrefused, ((ofDefinitions_outcome .standard doubled).2.2.1 _).mpr ⟨1, hrefused, ?_⟩⟩
  intro earlier hearlier other
  obtain rfl : earlier = 0 := by omega
  rintro ⟨name, d, hplace, h⟩
  obtain ⟨rfl, rfl⟩ := Prod.mk.inj (Option.some.inj hplace)
  exact not_refused_iff.mpr hfirst other h

end Vernacular.Registry
