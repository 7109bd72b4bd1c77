import Mathlib.Data.List.Nodup
import Vernacular.Locale.Registry
import Vernacular.Proofs.Bimap

/-!
# Lineages

Going from a definition to the one that it extends, and on from there, ends at a definition that
extends nothing.  The tokens are those of that last definition; each is spelled by the first
definition on the way that spells it, and empty spellings do not count.
-/

namespace Vernacular

theorem Affixes.decorate_injective (a : Affixes) : Function.Injective a.decorate :=
  Function.LeftInverse.injective a.strip_decorate

/-- From the definition at `place` on, `overriding` are those that extend another one, which has to
stand at an earlier place, and `root` is the complete one in which they end. -/
inductive Lineage (definitions : List (String × Definition)) :
    Nat → List (String × Definition) → String × Definition → Prop
  | complete {place : Nat} {root : String × Definition} (hplace : definitions[place]? = some root)
      (hbase : root.2.base? = none) : Lineage definitions place [] root
  | extending {place earlier : Nat} {name target : String} {d : Definition}
      {overriding : List (String × Definition)} {root : String × Definition}
      (hplace : definitions[place]? = some (name, d)) (hbase : d.base? = some target)
      (hearlier : earlier < place) (htarget : definitions[earlier]?.map Prod.fst = some target)
      (hrest : Lineage definitions earlier overriding root) :
      Lineage definitions place ((name, d) :: overriding) root

namespace Lineage

variable {definitions others : List (String × Definition)} {place : Nat}
  {overriding : List (String × Definition)} {root : String × Definition}

theorem append (h : Lineage definitions place overriding root)
    (later : List (String × Definition)) :
    Lineage (definitions ++ later) place overriding root := by
  have hkeep : ∀ {place : Nat} {link : String × Definition},
      definitions[place]? = some link → (definitions ++ later)[place]? = some link := by
    intro place link hlink
    obtain ⟨hlength, -⟩ := List.getElem?_eq_some_iff.mp hlink
    rwa [List.getElem?_append_left hlength]
  induction h with
  | complete hplace hbase => exact .complete (hkeep hplace) hbase
  | extending hplace hbase hearlier htarget hrest ih =>
    obtain ⟨link, hlink, hname⟩ := Option.map_eq_some_iff.mp htarget
    exact .extending (hkeep hplace) hbase hearlier (by rw [hkeep hlink, Option.map_some, hname]) ih

theorem eq_of_name {link : String × Definition} (hnames : (others.map Prod.fst).Nodup)
    (hmem : link ∈ others) (hname : others[place]?.map Prod.fst = some link.1) :
    others[place]? = some link := by
  obtain ⟨found, hfound, hsame⟩ := Option.map_eq_some_iff.mp hname
  obtain rfl : found = link :=
    List.inj_on_of_nodup_map hnames (List.mem_of_getElem? hfound) hmem hsame
  exact hfound

/-- A lineage is the same wherever its definitions stand, as long as no name stands twice. -/
theorem unique (h : Lineage definitions place overriding root)
    (hnames : (others.map Prod.fst).Nodup) (hmem : ∀ link ∈ overriding ++ [root], link ∈ others)
    {place' : Nat} {overriding' : List (String × Definition)} {root' : String × Definition}
    (h' : Lineage others place' overriding' root')
    (hsame : others[place']?.map Prod.fst = definitions[place]?.map Prod.fst) :
    overriding' = overriding ∧ root' = root := by
  -- The other lineage starts with the same definition, which decides whether it goes on and where.
  induction h generalizing place' overriding' root' with
  | @complete place root hplace hbase =>
    rw [hplace, Option.map_some] at hsame
    have hroot := eq_of_name hnames (hmem root (by simp)) hsame
    cases h' with
    | complete hplace' =>
      exact ⟨rfl, Option.some.inj (hplace'.symm.trans hroot)⟩
    | extending hplace' hbase' =>
      obtain rfl := Option.some.inj (hplace'.symm.trans hroot)
      simp [hbase] at hbase'
  | @extending place earlier name target d overriding root hplace hbase hearlier htarget hrest ih =>
    rw [hplace, Option.map_some] at hsame
    have hlink : others[place']? = some (name, d) := eq_of_name hnames (hmem _ (by simp)) hsame
    cases h' with
    | complete hplace' hbase' =>
      obtain rfl := Option.some.inj (hplace'.symm.trans hlink)
      simp [hbase] at hbase'
    | extending hplace' hbase' hearlier' htarget' hrest' =>
      obtain ⟨rfl, rfl⟩ := Prod.mk.inj (Option.some.inj (hplace'.symm.trans hlink))
      obtain rfl := Option.some.inj (hbase'.symm.trans hbase)
      have hlater := ih (fun link hlink => hmem link (List.mem_cons_of_mem _ hlink)) hrest'
        (htarget'.trans htarget.symm)
      exact ⟨congrArg _ hlater.1, hlater.2⟩

theorem base?_root (h : Lineage definitions place overriding root) : root.2.base? = none := by
  induction h with
  | complete hplace hbase => exact hbase
  | extending hplace hbase hearlier htarget hrest ih => exact ih

theorem root_eq (h : Lineage definitions place overriding root) {name : String} {d : Definition}
    (hplace : definitions[place]? = some (name, d)) (hbase : d.base? = none) :
    root = (name, d) := by
  cases h with
  | complete hroot => exact Option.some.inj (hroot.symm.trans hplace)
  | extending hfirst hextends =>
    obtain ⟨rfl, rfl⟩ := Prod.mk.inj (Option.some.inj (hfirst.symm.trans hplace))
    simp [hbase] at hextends

theorem links_mem (h : Lineage definitions place overriding root) :
    ∀ link ∈ overriding ++ [root], link ∈ definitions := by
  induction h with
  | complete hplace hbase => simpa using List.mem_of_getElem? hplace
  | extending hplace hbase hearlier htarget hrest ih =>
    exact List.forall_mem_cons.mpr ⟨List.mem_of_getElem? hplace, ih⟩

/-! ## Entries -/

/-- The first spelling of a token that is not empty, or else the root's own. -/
def spelling (overriding : List (String × Definition)) (token own : String) : String :=
  ((overriding.filterMap fun link => link.2.get? token).find? (· ≠ "")).getD own

def entries (affixes : Affixes) (overriding : List (String × Definition)) (root : Definition) :
    List (String × String) :=
  root.toList.map fun entry => (affixes.decorate entry.1, spelling overriding entry.1 entry.2)

theorem entries_nil (affixes : Affixes) (root : Definition) :
    entries affixes [] root = root.ownEntries affixes := rfl

theorem spelling_cons (name : String) (d : Definition) (overriding : List (String × Definition))
    (token own : String) :
    spelling ((name, d) :: overriding) token own =
      match d.get? token with
      | some spelled => if spelled = "" then spelling overriding token own else spelled
      | none => spelling overriding token own := by
  cases hspelled : d.get? token with
  | none => simp [spelling, hspelled]
  | some spelled =>
    by_cases hempty : spelled = ""
    · simp [spelling, hspelled, hempty]
    · simp [spelling, hspelled, hempty]

/-- Overriding a resolved vocabulary puts one more definition in front of its lineage. -/
theorem extendedEntries_eq (affixes : Affixes) (name : String) (d : Definition)
    {vocabulary : Vocabulary} {root : Definition}
    (hvocabulary : vocabulary.toList = entries affixes overriding root) :
    d.extendedEntries affixes vocabulary = entries affixes ((name, d) :: overriding) root := by
  rw [Definition.extendedEntries, hvocabulary, entries, entries, List.map_map]
  apply List.map_congr_left
  intro entry _
  rw [Function.comp_apply, Definition.spellingOver, affixes.strip_decorate]
  exact congrArg (Prod.mk _) (spelling_cons name d overriding entry.1 entry.2).symm

theorem keys_entries (affixes : Affixes) (overriding : List (String × Definition))
    (root : Definition) :
    (entries affixes overriding root).map Prod.fst = root.keys.map affixes.decorate := by
  rw [entries, List.map_map, Dictionary.keys, List.map_map]
  rfl

theorem values_entries (affixes : Affixes) (overriding : List (String × Definition))
    (root : Definition) :
    (entries affixes overriding root).map Prod.snd =
      root.toList.map fun entry => spelling overriding entry.1 entry.2 := by
  rw [entries, List.map_map]
  rfl

theorem nodup_keys_entries (affixes : Affixes) (overriding : List (String × Definition))
    (root : Definition) : ((entries affixes overriding root).map Prod.fst).Nodup := by
  rw [keys_entries]
  exact root.nodup_keys.map affixes.decorate_injective

/-! ## Vocabularies -/

theorem keys_ofList_entries (affixes : Affixes) (overriding : List (String × Definition))
    (root : Definition) :
    (Bimap.ofList (entries affixes overriding root)).forward.keys =
      root.keys.map affixes.decorate := by
  change (Bimap.ofList _).toList.map Prod.fst = _
  rw [Bimap.toList_ofList (nodup_keys_entries affixes overriding root), keys_entries]

theorem values_ofList_entries (affixes : Affixes) (overriding : List (String × Definition))
    (root : Definition) :
    (Bimap.ofList (entries affixes overriding root)).forward.values =
      root.toList.map fun entry => spelling overriding entry.1 entry.2 := by
  change (Bimap.ofList _).toList.map Prod.snd = _
  rw [Bimap.toList_ofList (nodup_keys_entries affixes overriding root), values_entries]

/-- What a lineage says of a vocabulary: its entries forward, that the reserved key is not among
them, the spellings that answer, and which token each of them answers. -/
structure Prescribes (affixes : Affixes) (overriding : List (String × Definition))
    (root : Definition) (vocabulary : Vocabulary) : Prop where
  forward : vocabulary.toList =
    root.toList.map fun entry => (affixes.decorate entry.1, spelling overriding entry.1 entry.2)
  no_base : vocabulary.hasKey (affixes.decorate Definition.baseKey) = false
  backward : vocabulary.backward.keys = vocabulary.forward.values.eraseDups
  last : ∀ spelled token, vocabulary.key? spelled = some token ↔
    ∃ earlier later, vocabulary.toList = earlier ++ (token, spelled) :: later ∧
      spelled ∉ later.map Prod.snd

theorem prescribes_ofList (affixes : Affixes) (overriding : List (String × Definition))
    {root : Definition} (hroot : root.base? = none) :
    Prescribes affixes overriding root (Bimap.ofList (entries affixes overriding root)) := by
  have hkeys := nodup_keys_entries affixes overriding root
  have hlist := Bimap.toList_ofList hkeys
  refine ⟨hlist, ?_, ?_, ?_⟩
  · rw [Bool.eq_false_iff, ne_eq, Bimap.hasKey_eq_true_iff]
    intro hmem
    rw [keys_ofList_entries, List.mem_map_of_injective affixes.decorate_injective] at hmem
    exact (root.get?_eq_none_iff Definition.baseKey).mp hroot hmem
  · rw [Bimap.keys_backward_ofList hkeys, values_ofList_entries, values_entries]
  · intro spelled token
    rw [hlist]
    exact Bimap.key?_ofList_eq_some_iff hkeys

end Lineage

end Vernacular
