import Vernacular.Locale.Registry
import Vernacular.Proofs.Bimap

/-!
# What registration does

A definition that is admitted puts its name behind those that are there and changes nothing else.
So whatever a single registration keeps holds of every registry that comes to be.
-/

namespace Vernacular.Logged

variable {α β γ ε ε' : Type} {l : Logged (Except ε α)}

theorem andThen_silent (l : Logged (Except ε α)) :
    l.andThen (fun value => silent (.ok value)) = l := by
  obtain ⟨records, result⟩ := l
  cases result with
  | error error => rfl
  | ok value => simp [andThen, after, silent]

theorem andThen_assoc (l : Logged (Except ε α)) (next : α → Logged (Except ε β))
    (last : β → Logged (Except ε γ)) :
    (l.andThen next).andThen last = l.andThen fun value => (next value).andThen last := by
  obtain ⟨records, result⟩ := l
  cases result with
  | error error => rfl
  | ok value =>
    unfold andThen after
    cases hresult : (next value).result <;> simp [hresult]

theorem andThen_eq_ok_iff {next : α → Logged (Except ε β)} {result : β} :
    (l.andThen next).result = .ok result ↔
      ∃ value, l.result = .ok value ∧ (next value).result = .ok result := by
  unfold andThen
  cases l.result with
  | error e => simp
  | ok value => simp [after]

theorem andThen_eq_error_iff {next : α → Logged (Except ε β)} {error : ε} :
    (l.andThen next).result = .error error ↔
      l.result = .error error ∨
        ∃ value, l.result = .ok value ∧ (next value).result = .error error := by
  unfold andThen
  cases l.result with
  | error e => simp
  | ok value => simp [after]

theorem records_andThen {next : α → Logged (Except ε β)} {value : α} (h : l.result = .ok value) :
    (l.andThen next).records = l.records ++ (next value).records := by
  rw [andThen, h]
  rfl

theorem mem_records_andThen {next : α → Logged (Except ε β)} {record : Log.Record}
    (h : record ∈ (l.andThen next).records) :
    record ∈ l.records ∨ ∃ value, record ∈ (next value).records := by
  unfold andThen at h
  split at h
  · exact .inl h
  · next value _ =>
    rcases List.mem_append.mp h with hbefore | hafter
    · exact .inl hbefore
    · exact .inr ⟨value, hafter⟩

theorem records_mapError (l : Logged (Except ε α)) (f : ε → ε') :
    (l.mapError f).records = l.records := rfl

theorem mapError_eq_ok_iff {f : ε → ε'} {value : α} :
    (l.mapError f).result = .ok value ↔ l.result = .ok value := by
  unfold mapError map
  cases l.result <;> simp [Except.mapError]

theorem mapError_eq_error_iff {f : ε → ε'} {error : ε'} :
    (l.mapError f).result = .error error ↔ ∃ cause, l.result = .error cause ∧ f cause = error := by
  unfold mapError map
  cases l.result <;> simp [Except.mapError]

end Vernacular.Logged

namespace Vernacular.Registry

variable {r next : Registry} {name : String} {d : Definition} {base : Base}

/-! ## One registration -/

theorem vocabulary?_eq_none_iff {target : String} :
    r.vocabulary? target = none ↔ target ∉ r.names := by
  rw [vocabulary?, Option.map_eq_none_iff]
  exact r.locales.get?_eq_none_iff target

theorem mem_names_of_vocabulary? {vocabulary : Vocabulary}
    (h : r.vocabulary? name = some vocabulary) : name ∈ r.names := by
  by_contra hmissing
  rw [vocabulary?_eq_none_iff.mpr hmissing] at h
  cases h

theorem exists_vocabulary?_iff : (∃ vocabulary, r.vocabulary? name = some vocabulary) ↔
    name ∈ r.names := by
  rw [← Option.ne_none_iff_exists', ne_eq, vocabulary?_eq_none_iff, Decidable.not_not]

theorem contains_eq_true_iff : r.contains name = true ↔ name ∈ r.names :=
  r.locales.contains_eq_true_iff name

/-- The locales a definition may be resolved over: none if it names none, else the one it names. -/
inductive Admits (r : Registry) (d : Definition) : Base → Prop
  | complete (hbase : d.base? = none) : Admits r d .none
  | extending {target : String} {vocabulary : Vocabulary} (hbase : d.base? = some target)
      (htarget : r.vocabulary? target = some vocabulary) : Admits r d (.locale target vocabulary)

theorem Admits.exists_of_base? {target : String} (h : r.Admits d base)
    (hbase : d.base? = some target) :
    ∃ vocabulary, base = .locale target vocabulary ∧ r.vocabulary? target = some vocabulary := by
  cases h with
  | complete hnone => simp [hnone] at hbase
  | extending hsome htarget =>
    obtain rfl := Option.some.inj (hbase.symm.trans hsome)
    exact ⟨_, rfl, htarget⟩

theorem Admits.eq_none_of_base? (h : r.Admits d base) (hbase : d.base? = none) :
    base = .none := by
  cases h with
  | complete hnone => rfl
  | extending hsome htarget => simp [hsome] at hbase

theorem admit?_eq_ok_iff :
    r.admit? name d = .ok base ↔ name ∉ r.names ∧ r.Admits d base := by
  rw [← contains_eq_true_iff]
  unfold admit?
  constructor
  · intro h
    split at h
    · next hbase =>
      split at h
      · cases h
      · next hname =>
        obtain rfl := Except.ok.inj h
        exact ⟨hname, .complete hbase⟩
    · next target hbase =>
      split at h
      · cases h
      · next vocabulary htarget =>
        split at h
        · cases h
        · next hname =>
          obtain rfl := Except.ok.inj h
          exact ⟨hname, .extending hbase htarget⟩
  · rintro ⟨hname, hadmits⟩
    cases hadmits with
    | complete hbase => simp [hbase, hname]
    | extending hbase htarget => simp [hbase, htarget, hname]

theorem register_eq_ok_iff :
    (r.register name d).result = .ok next ↔
      ∃ base, (name ∉ r.names ∧ r.Admits d base) ∧ r.addOver name d base = next := by
  simp only [← admit?_eq_ok_iff]
  unfold register
  cases r.admit? name d <;> simp [Logged.silent]

theorem names_addOver (d : Definition) (base : Base) (hname : name ∉ r.names) :
    (r.addOver name d base).names = r.names ++ [name] := by
  have hkeys := r.locales.keys_insert name ⟨d, Bimap.ofList (r.entriesOver d base)⟩
  exact hkeys.trans (if_neg hname)

theorem get?_addOver (other : String) :
    (r.addOver name d base).get? other =
      if name = other then some ⟨d, Bimap.ofList (r.entriesOver d base)⟩ else r.get? other :=
  r.locales.get?_insert name other _

theorem get?_addOver_self :
    (r.addOver name d base).get? name = some ⟨d, Bimap.ofList (r.entriesOver d base)⟩ := by
  rw [get?_addOver, if_pos rfl]

theorem get?_addOver_of_mem {other : String} (hname : name ∉ r.names) (hother : other ∈ r.names) :
    (r.addOver name d base).get? other = r.get? other := by
  have hne : ¬name = other := by
    rintro rfl
    exact hname hother
  rw [get?_addOver, if_neg hne]

theorem exists_admits_iff : (∃ base, r.Admits d base) ↔ ∀ target ∈ d.base?, target ∈ r.names := by
  constructor
  · rintro ⟨base, hadmits⟩ target hbase
    obtain ⟨vocabulary, -, htarget⟩ := hadmits.exists_of_base? hbase
    exact mem_names_of_vocabulary? htarget
  · intro hpresent
    cases hbase : d.base? with
    | none => exact ⟨.none, .complete hbase⟩
    | some target =>
      cases htarget : r.vocabulary? target with
      | none => exact absurd (hpresent target hbase) (vocabulary?_eq_none_iff.mp htarget)
      | some vocabulary => exact ⟨.locale target vocabulary, .extending hbase htarget⟩

theorem channel_of_mem_register {record : Log.Record} (h : record ∈ (r.register name d).records) :
    record.channel = .registry := by
  unfold register at h
  split at h
  · cases h
  · rcases List.mem_append.mp h with hwarning | hdebug
    · obtain ⟨warning, -, rfl⟩ := List.mem_map.mp hwarning
      rfl
    · obtain rfl := List.mem_singleton.mp hdebug
      rfl

/-! ## A run of registrations -/

theorem registerAll_cons_eq_ok_iff {rest : List (String × Definition)} {final : Registry} :
    (r.registerAll ((name, d) :: rest)).result = .ok final ↔
      ∃ next, (r.register name d).result = .ok next ∧ (next.registerAll rest).result = .ok final :=
  Logged.andThen_eq_ok_iff

theorem registerAll_append (earlier later : List (String × Definition)) :
    r.registerAll (earlier ++ later) =
      (r.registerAll earlier).andThen (fun middle => middle.registerAll later) := by
  induction earlier generalizing r with
  | nil => rfl
  | cons given earlier ih =>
    obtain ⟨name, d⟩ := given
    rw [List.cons_append, registerAll, registerAll, Logged.andThen_assoc]
    exact congrArg _ (funext fun next => ih)

theorem channel_of_mem_registerAll {definitions : List (String × Definition)}
    {record : Log.Record} (h : record ∈ (r.registerAll definitions).records) :
    record.channel = .registry := by
  induction definitions generalizing r with
  | nil => cases h
  | cons entry rest ih =>
    rcases Logged.mem_records_andThen h with hfirst | ⟨next, hlater⟩
    · exact channel_of_mem_register hfirst
    · exact ih hlater

/-- All of the definitions that decides whether they are registered: names and what they extend. -/
def headers (definitions : List (String × Definition)) : List (String × Option String) :=
  definitions.map fun given => (given.1, given.2.base?)

/-- Definitions that can follow locales of the given names: each extends one that is there by then
and brings a new name. -/
def Admissible : List String → List (String × Option String) → Prop
  | _, [] => True
  | names, (name, base) :: rest =>
    (∀ target ∈ base, target ∈ names) ∧ name ∉ names ∧ Admissible (names ++ [name]) rest

instance Admissible.decidable :
    (names : List String) → (given : List (String × Option String)) →
      Decidable (Admissible names given)
  | _, [] => .isTrue trivial
  | names, (name, _) :: rest =>
    have := Admissible.decidable (names ++ [name]) rest
    instDecidableAnd

theorem admissible_append {names : List String} {given later : List (String × Option String)} :
    Admissible names (given ++ later) ↔
      Admissible names given ∧ Admissible (names ++ given.map Prod.fst) later := by
  induction given generalizing names with
  | nil => simp [Admissible]
  | cons header rest ih => simp [Admissible, ih, and_assoc]

theorem exists_registerAll_iff {definitions : List (String × Definition)} :
    (∃ final, (r.registerAll definitions).result = .ok final) ↔
      Admissible r.names (headers definitions) := by
  induction definitions generalizing r with
  | nil => simp [registerAll, Logged.silent, headers, Admissible]
  | cons entry rest ih =>
    obtain ⟨name, d⟩ := entry
    change _ ↔ (∀ target ∈ d.base?, target ∈ r.names) ∧ name ∉ r.names ∧
      Admissible (r.names ++ [name]) (headers rest)
    rw [← exists_admits_iff]
    constructor
    · rintro ⟨final, hrun⟩
      obtain ⟨next, hregister, hrest⟩ := registerAll_cons_eq_ok_iff.mp hrun
      obtain ⟨base, ⟨hname, hadmits⟩, rfl⟩ := register_eq_ok_iff.mp hregister
      refine ⟨⟨base, hadmits⟩, hname, ?_⟩
      rw [← names_addOver d base hname]
      exact ih.mp ⟨final, hrest⟩
    · rintro ⟨⟨base, hadmits⟩, hname, hrest⟩
      rw [← names_addOver d base hname] at hrest
      obtain ⟨final, hlater⟩ := ih.mpr hrest
      have hregister := register_eq_ok_iff.mpr ⟨base, ⟨hname, hadmits⟩, rfl⟩
      exact ⟨final, registerAll_cons_eq_ok_iff.mpr ⟨_, hregister, hlater⟩⟩

/-- What every registration keeps holds of a registry and the definitions that went into it. -/
theorem registerAll_induction {Holds : List (String × Definition) → Registry → Prop}
    (hstep : ∀ {earlier : List (String × Definition)} {r : Registry} {name : String}
      {d : Definition} {base : Base}, Holds earlier r → name ∉ r.names → r.Admits d base →
      Holds (earlier ++ [(name, d)]) (r.addOver name d base))
    {earlier definitions : List (String × Definition)} {final : Registry} (hstart : Holds earlier r)
    (hrun : (r.registerAll definitions).result = .ok final) :
    Holds (earlier ++ definitions) final := by
  induction definitions generalizing earlier r with
  | nil =>
    obtain rfl := Except.ok.inj hrun
    rwa [List.append_nil]
  | cons entry rest ih =>
    obtain ⟨name, d⟩ := entry
    obtain ⟨next, hregister, hrest⟩ := registerAll_cons_eq_ok_iff.mp hrun
    obtain ⟨base, ⟨hname, hadmits⟩, rfl⟩ := register_eq_ok_iff.mp hregister
    have hlater := ih (hstep hstart hname hadmits) hrest
    rwa [List.append_assoc] at hlater

end Vernacular.Registry
