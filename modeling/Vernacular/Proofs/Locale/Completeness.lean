import Mathlib.Logic.Relation
import Vernacular.Proofs.Locale.Overriding

/-!
# Tokens that locales leave out

A locale misses the tokens that the complete definition at the end of its lineage leaves out, and so
does all that extends it.  Only the complete definition itself is warned about, with those tokens.
-/

namespace Vernacular

/-! ## Wording -/

namespace Diagnostic

variable {name target token : String} {missing : List String}

theorem message_incompleteLocale :
    (incompleteLocale name missing).message =
      s!"Locale '{name}' does not define {missing.length} token(s): " ++
        ", ".intercalate (missing.take 5) ++
        if missing.length ≤ 5 then "" else s!", ... ({missing.length - 5} more)" := by
  unfold incompleteLocale shortList
  by_cases hfew : missing.length ≤ 5
  · simp [hfew, Nat.not_lt.mpr hfew, toString]
  · simp [hfew, Nat.lt_of_not_le hfew, toString, String.append_assoc]

/-- Both begin with the name of the locale, and go on differently. -/
theorem message_incompleteLocale_ne :
    (incompleteLocale name missing).message ≠ (unknownOverrideToken name token target).message := by
  intro h
  have hchars := congrArg String.toList h
  simp [incompleteLocale, unknownOverrideToken, toString] at hchars

end Diagnostic

namespace Registry

variable {affixes : Affixes} {definitions : List (String × Definition)} {r registry : Registry}
  {name other target : String} {d : Definition} {place : Nat} {base : Base}

/-! ## Missing tokens -/

theorem missingNames_congr {v w : Vocabulary} (h : ∀ word, v.hasKey word = w.hasKey word) :
    r.missingNames v = r.missingNames w := by
  simp only [missingNames, h]

theorem missingNames_ofList_entries (overriding : List (String × Definition)) (root : Definition) :
    r.missingNames (Bimap.ofList (Lineage.entries r.affixes overriding root)) =
      Token.names.filter (· ∉ root.keys) := by
  rw [missingNames]
  apply List.filter_congr
  intro token _
  rw [Bool.eq_iff_iff, Bool.not_eq_true', decide_eq_true_iff, Bimap.hasKey_eq_false_iff,
    Bimap.value?_eq_none_iff, Lineage.keys_ofList_entries,
    List.mem_map_of_injective r.affixes.decorate_injective]

theorem missingNames_eq_filter (d : Definition) :
    d.missingNames = Token.names.filter (· ∉ d.keys) := by
  rw [Definition.missingNames]
  apply List.filter_congr
  intro token _
  rw [Bool.eq_iff_iff, Bool.not_eq_true', decide_eq_true_iff, ← Bool.not_eq_true,
    Dictionary.contains_eq_true_iff]

/-- The first locale is registered from a definition that extends the second one. -/
def Extends (r : Registry) (name target : String) : Prop :=
  ∃ d, r.definition? name = some d ∧ d.base? = some target

theorem Extends.missing_eq (h : registry.Extends other target)
    (haccepted : (ofDefinitions affixes definitions).result = .ok registry) :
    (registry.vocabulary? other).map registry.missingNames =
      (registry.vocabulary? target).map registry.missingNames := by
  obtain ⟨d, hdefinition, hbase⟩ := h
  have hmem := (resolves_of_accepted haccepted).definition?_eq_some_iff.mp hdefinition
  obtain ⟨place, hplace⟩ := List.mem_iff_getElem?.mp hmem
  obtain ⟨earlier, _, hregistered⟩ := exists_registered haccepted hplace
  obtain ⟨base, rfl, htarget⟩ := hregistered.admits.exists_of_base? hbase
  rw [hregistered.vocabulary?_self, entriesOver,
    hregistered.vocabulary?_eq (mem_names_of_vocabulary? htarget), htarget, Option.map_some,
    Option.map_some]
  exact congrArg some (missingNames_congr Definition.hasKey_ofList_extendedEntries)

theorem missing_eq_of_transGen (h : Relation.TransGen registry.Extends other name)
    (haccepted : (ofDefinitions affixes definitions).result = .ok registry) :
    (registry.vocabulary? other).map registry.missingNames =
      (registry.vocabulary? name).map registry.missingNames := by
  induction h with
  | single hextends => exact hextends.missing_eq haccepted
  | tail _ hextends ih => exact ih.trans (hextends.missing_eq haccepted)

/-! ## Warnings -/

def incompleteWarning (name : String) (missing : List String) : Log.Record :=
  warningRecord (.incompleteLocale name missing)

theorem warnings_recordsOver_none :
    warnings (r.recordsOver name d .none) =
      if d.missingNames = [] then [] else [incompleteWarning name d.missingNames] := by
  rw [warnings_recordsOver, warningsOver]
  cases d.missingNames <;> rfl

theorem incompleteWarning_mem_recordsOver_iff (hadmits : r.Admits d base) :
    (∃ shown, incompleteWarning name shown ∈ r.recordsOver name d base) ↔
      d.base? = none ∧ d.missingNames ≠ [] := by
  have hmem : ∀ shown, incompleteWarning name shown ∈ r.recordsOver name d base ↔
      incompleteWarning name shown ∈ warnings (r.recordsOver name d base) := by
    intro shown
    rw [warnings, List.mem_filter, and_iff_left (by rfl)]
  simp only [hmem]
  cases hadmits with
  | complete hbase =>
    rw [warnings_recordsOver_none, and_iff_right hbase]
    split
    · next hempty => simp [hempty]
    · next hmissing => exact ⟨fun _ => hmissing, fun _ => ⟨_, List.mem_singleton.mpr rfl⟩⟩
  | extending hbase htarget =>
    rw [warnings_recordsOver_locale]
    constructor
    · rintro ⟨shown, hshown⟩
      obtain ⟨token, -, hsame⟩ := List.mem_map.mp hshown
      exact absurd (congrArg Log.Record.message hsame).symm Diagnostic.message_incompleteLocale_ne
    · rintro ⟨hnone, -⟩
      simp [hnone] at hbase

/-- A locale misses what the complete definition of its lineage leaves out, and what extends it
misses the same.  When a complete definition is registered that leaves out any tokens, there is one
warning, which gives their number and the first five; otherwise there is none of this kind. -/
theorem missing_of_registered
    (haccepted : (ofDefinitions affixes definitions).result = .ok registry)
    (hplace : definitions[place]? = some (name, d)) :
    ∃ (overriding : List (String × Definition)) (root : String × Definition)
      (missing : List String),
      Lineage definitions place overriding root ∧
      missing = Token.names.filter (· ∉ root.2.keys) ∧
      (registry.vocabulary? name).map registry.missingNames = some missing ∧
      (∀ other, Relation.TransGen registry.Extends other name →
        (registry.vocabulary? other).map registry.missingNames = some missing) ∧
      (ofDefinitions affixes definitions).records =
        (List.range definitions.length).flatMap (loggedAt affixes definitions) ∧
      ((∃ shown, incompleteWarning name shown ∈ loggedAt affixes definitions place) ↔
        d.base? = none ∧ missing ≠ []) ∧
      (d.base? = none → missing ≠ [] →
        warnings (loggedAt affixes definitions place) = [⟨.warning, .registry,
          s!"Locale '{name}' does not define {missing.length} token(s): " ++
            ", ".intercalate (missing.take 5) ++
            if missing.length ≤ 5 then "" else s!", ... ({missing.length - 5} more)"⟩]) := by
  obtain ⟨overriding, root, hlineage, hget⟩ := (resolves_of_accepted haccepted).resolved hplace
  obtain ⟨earlier, base, hregistered⟩ := exists_registered haccepted hplace
  have haffixes : registry.affixes = affixes := (resolves_of_accepted haccepted).affixes_eq
  have hmissing : (registry.vocabulary? name).map registry.missingNames =
      some (Token.names.filter (· ∉ root.2.keys)) := by
    rw [vocabulary?, hget, Option.map_some, Option.map_some]
    subst haffixes
    exact congrArg some (missingNames_ofList_entries overriding root.2)
  have hcomplete : d.base? = none → d.missingNames = Token.names.filter (· ∉ root.2.keys) := by
    intro hbase
    rw [hlineage.root_eq hplace hbase]
    exact missingNames_eq_filter d
  refine ⟨overriding, root, _, hlineage, rfl, hmissing, ?_,
    records_ofDefinitions affixes definitions, ?_, ?_⟩
  · intro other hextends
    rw [missing_eq_of_transGen hextends haccepted, hmissing]
  · rw [hregistered.logged, incompleteWarning_mem_recordsOver_iff hregistered.admits]
    exact and_congr_right fun hbase => by rw [hcomplete hbase]
  · intro hbase hmissing
    rw [hregistered.logged, hregistered.admits.eq_none_of_base? hbase, warnings_recordsOver_none,
      hcomplete hbase, if_neg hmissing, ← Diagnostic.message_incompleteLocale]
    rfl

/-- "nl-BE" extends "nl" and that extends "de", which is complete and spells no token name. -/
theorem missing_of_registered_colours :
    ∃ registry d missing, (ofDefinitions .standard colours).result = .ok registry ∧
      colours[0]? = some ("de", d) ∧ d.base? = none ∧ missing ≠ [] ∧
      (registry.vocabulary? "de").map registry.missingNames = some missing ∧
      Relation.TransGen registry.Extends "nl-BE" "de" ∧
      (registry.vocabulary? "nl-BE").map registry.missingNames = some missing ∧
      ∃ shown, incompleteWarning "de" shown ∈ loggedAt .standard colours 0 := by
  have haccepted : (ofDefinitions .standard colours).result = .ok _ := rfl
  have hplace : colours[0]? = some ("de", _) := rfl
  obtain ⟨overriding, root, missing, -, -, hmissing, hsame, -, hwarned, -⟩ :=
    missing_of_registered haccepted hplace
  have hsome : missing ≠ [] := by
    rintro rfl
    exact absurd hmissing (by decide +kernel)
  have hextends : ∀ registry, (ofDefinitions .standard colours).result = .ok registry →
      Relation.TransGen registry.Extends "nl-BE" "de" := by
    intro registry hresult
    obtain rfl := Except.ok.inj (haccepted.symm.trans hresult)
    exact .tail (.single ⟨_, rfl, rfl⟩) ⟨_, rfl, rfl⟩
  exact ⟨_, _, missing, haccepted, hplace, rfl, hsome, hmissing, hextends _ haccepted,
    hsame _ (hextends _ haccepted), hwarned.mpr ⟨rfl, hsome⟩⟩

end Registry

end Vernacular
