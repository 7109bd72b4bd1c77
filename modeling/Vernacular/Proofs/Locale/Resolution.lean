import Vernacular.Proofs.Locale.Builtin
import Vernacular.Proofs.Locale.Lineage

/-!
# What a registered locale comes to

Definitions are resolved over vocabularies that are resolved already.  All the same a vocabulary is
what its lineage says, and nothing but its lineage matters.
-/

namespace Vernacular.Registry

variable {affixes : Affixes} {definitions others : List (String × Definition)}
  {registry other : Registry} {name : String} {vocabulary : Vocabulary} {place : Nat}
  {overriding : List (String × Definition)} {root : String × Definition}

/-- The registry holds the definitions in their order, each resolved along its lineage. -/
structure Resolves (affixes : Affixes) (definitions : List (String × Definition))
    (registry : Registry) : Prop where
  affixes_eq : registry.affixes = affixes
  names_eq : registry.names = definitions.map Prod.fst
  resolved : ∀ {place : Nat} {name : String} {d : Definition},
    definitions[place]? = some (name, d) → ∃ overriding root,
      Lineage definitions place overriding root ∧
      registry.get? name = some ⟨d, Bimap.ofList (Lineage.entries affixes overriding root.2)⟩

theorem resolves_empty (affixes : Affixes) : Resolves affixes [] (empty affixes) where
  affixes_eq := rfl
  names_eq := rfl
  resolved h := by simp at h

namespace Resolves

theorem exists_place (h : Resolves affixes definitions registry)
    (hname : name ∈ registry.names) :
    ∃ (place : Nat) (d : Definition), definitions[place]? = some (name, d) := by
  rw [h.names_eq, List.mem_map] at hname
  obtain ⟨⟨name, d⟩, hmem, rfl⟩ := hname
  obtain ⟨place, hplace⟩ := List.mem_iff_getElem?.mp hmem
  exact ⟨place, d, hplace⟩

theorem mem_names (h : Resolves affixes definitions registry) {d : Definition}
    (hplace : definitions[place]? = some (name, d)) : name ∈ registry.names := by
  rw [h.names_eq]
  exact List.mem_map_of_mem (List.mem_of_getElem? hplace)

/-- The definition that comes last is resolved along the lineage of the one it extends. -/
theorem resolved_last (h : Resolves affixes definitions registry) (name : String) {d : Definition}
    {base : Base} (hadmits : registry.Admits d base) :
    ∃ overriding root,
      Lineage (definitions ++ [(name, d)]) definitions.length overriding root ∧
      registry.entriesOver d base = Lineage.entries affixes overriding root.2 := by
  have hlast : (definitions ++ [(name, d)])[definitions.length]? = some (name, d) := by simp
  cases hadmits with
  | complete hbase =>
    refine ⟨[], (name, d), .complete hlast hbase, ?_⟩
    rw [entriesOver, Lineage.entries_nil, h.affixes_eq]
  | @extending target vocabulary hbase htarget =>
    obtain ⟨place, e, hplace⟩ := h.exists_place (mem_names_of_vocabulary? htarget)
    obtain ⟨hearlier, -⟩ := List.getElem?_eq_some_iff.mp hplace
    obtain ⟨overriding, root, hlineage, hget⟩ := h.resolved hplace
    obtain rfl : Bimap.ofList (Lineage.entries affixes overriding root.2) = vocabulary := by
      simpa [vocabulary?, hget] using htarget
    refine ⟨(name, d) :: overriding, root, ?_, ?_⟩
    · refine .extending hlast hbase hearlier ?_ (hlineage.append _)
      rw [List.getElem?_append_left hearlier, hplace, Option.map_some]
    · rw [entriesOver, h.affixes_eq]
      exact Lineage.extendedEntries_eq affixes name d
        (Bimap.toList_ofList (Lineage.nodup_keys_entries affixes overriding root.2))

theorem addOver (h : Resolves affixes definitions registry) {d : Definition} {base : Base}
    (hname : name ∉ registry.names) (hadmits : registry.Admits d base) :
    Resolves affixes (definitions ++ [(name, d)]) (registry.addOver name d base) where
  affixes_eq := h.affixes_eq
  names_eq := by rw [names_addOver d base hname, h.names_eq, List.map_append, List.map_singleton]
  resolved := by
    intro place other e hplace
    -- A lineage only goes back, so the earlier ones stay and just the last place is new.
    rcases Nat.lt_or_ge place definitions.length with hearlier | hlast
    · rw [List.getElem?_append_left hearlier] at hplace
      obtain ⟨overriding, root, hlineage, hget⟩ := h.resolved hplace
      refine ⟨overriding, root, hlineage.append _, ?_⟩
      rw [get?_addOver_of_mem hname (h.mem_names hplace), hget]
    · rw [List.getElem?_append_right hlast, List.getElem?_singleton] at hplace
      obtain ⟨hzero, hsame⟩ : place - definitions.length = 0 ∧ (name, d) = (other, e) := by
        simpa using hplace
      obtain ⟨rfl, rfl⟩ := Prod.mk.inj hsame
      obtain rfl : place = definitions.length := by omega
      obtain ⟨overriding, root, hlineage, hentries⟩ := h.resolved_last name hadmits
      exact ⟨overriding, root, hlineage, by rw [get?_addOver_self, hentries]⟩

end Resolves

theorem resolves_of_accepted
    (haccepted : (ofDefinitions affixes definitions).result = .ok registry) :
    Resolves affixes definitions registry :=
  registerAll_induction (fun h hname hadmits => h.addOver hname hadmits) (resolves_empty affixes)
    haccepted

theorem withBuiltins_eq (affixes : Affixes) (definitions : List (String × Definition)) :
    withBuiltins affixes definitions = ofDefinitions affixes (Builtin.locales ++ definitions) := rfl

/-! ## Registered vocabularies -/

/-- Every registered locale has a lineage, and its vocabulary is built from that. -/
theorem Resolves.exists_lineage (h : Resolves affixes definitions registry)
    (hname : name ∈ registry.names) :
    ∃ (place : Nat) (overriding : List (String × Definition)) (root : String × Definition),
      definitions[place]?.map Prod.fst = some name ∧
      Lineage definitions place overriding root ∧
      registry.vocabulary? name =
        some (Bimap.ofList (Lineage.entries affixes overriding root.2)) := by
  obtain ⟨place, d, hplace⟩ := h.exists_place hname
  obtain ⟨overriding, root, hlineage, hget⟩ := h.resolved hplace
  exact ⟨place, overriding, root, by rw [hplace]; rfl, hlineage, by simp [vocabulary?, hget]⟩

theorem Resolves.nodup_names (h : Resolves affixes definitions registry) :
    (definitions.map Prod.fst).Nodup :=
  h.names_eq ▸ registry.locales.nodup_keys

/-- The same lineage comes to the same vocabulary in every other registry. -/
theorem Resolves.vocabulary?_eq_of_links (h : Resolves affixes others other)
    (hplace : definitions[place]?.map Prod.fst = some name)
    (hlineage : Lineage definitions place overriding root)
    (hlinks : ∀ link ∈ overriding ++ [root], link ∈ others) :
    other.vocabulary? name = some (Bimap.ofList (Lineage.entries affixes overriding root.2)) := by
  have hname : name ∈ other.names := by
    rw [h.names_eq]
    cases hlineage with
    | complete hroot =>
      obtain rfl : root.1 = name := by simpa [hroot] using hplace
      exact List.mem_map_of_mem (hlinks root (by simp))
    | @extending _ _ first _ d _ _ hfirst =>
      obtain rfl : first = name := by simpa [hfirst] using hplace
      exact List.mem_map_of_mem (f := Prod.fst) (hlinks (first, d) (by simp))
  obtain ⟨place', overriding', root', hplace', hlineage', hvocabulary⟩ := h.exists_lineage hname
  obtain ⟨rfl, rfl⟩ := hlineage.unique h.nodup_names hlinks hlineage' (hplace'.trans hplace.symm)
  exact hvocabulary

/-- A lineage among the given definitions is not touched by the built-in ones before them. -/
theorem vocabulary?_withBuiltins
    (haccepted : (withBuiltins affixes definitions).result = .ok registry)
    (hlineage : Lineage definitions place overriding root)
    (hplace : definitions[place]?.map Prod.fst = some name) :
    registry.vocabulary? name =
      some (Bimap.ofList (Lineage.entries affixes overriding root.2)) := by
  rw [withBuiltins_eq] at haccepted
  exact (resolves_of_accepted haccepted).vocabulary?_eq_of_links hplace hlineage
    fun link hlink => List.mem_append_right _ (hlineage.links_mem link hlink)

theorem Resolves.consistent (h : Resolves affixes definitions registry)
    (hvocabulary : registry.vocabulary? name = some vocabulary) :
    vocabulary.Consistent ∧ vocabulary.Covering := by
  have hname := mem_names_of_vocabulary? hvocabulary
  obtain ⟨place, overriding, root, -, -, hbuilt⟩ := h.exists_lineage hname
  obtain rfl := Option.some.inj (hbuilt.symm.trans hvocabulary)
  exact ⟨Bimap.consistent_ofList _,
    Bimap.covering_ofList (Lineage.nodup_keys_entries affixes overriding root.2)⟩

/-- The vocabulary of a registered locale: its lineage goes back through earlier locales to a
complete definition and says all there is in the vocabulary, whatever else is registered. -/
theorem vocabulary_of_lineage
    (haccepted : (ofDefinitions affixes definitions).result = .ok registry)
    (hname : name ∈ registry.names) :
    ∃ (place : Nat) (overriding : List (String × Definition)) (root : String × Definition)
      (vocabulary : Vocabulary),
      registry.names = definitions.map Prod.fst ∧
      definitions[place]?.map Prod.fst = some name ∧
      Lineage definitions place overriding root ∧
      registry.vocabulary? name = some vocabulary ∧
      Lineage.Prescribes affixes overriding root.2 vocabulary ∧
      ∀ others other, (ofDefinitions affixes others).result = .ok other →
        (∀ link ∈ overriding ++ [root], link ∈ others) →
        other.vocabulary? name = some vocabulary := by
  have hresolves := resolves_of_accepted haccepted
  obtain ⟨place, overriding, root, hplace, hlineage, hvocabulary⟩ :=
    hresolves.exists_lineage hname
  refine ⟨place, overriding, root, _, hresolves.names_eq, hplace, hlineage, hvocabulary,
    Lineage.prescribes_ofList affixes overriding hlineage.base?_root, ?_⟩
  intro others other hother hlinks
  exact (resolves_of_accepted hother).vocabulary?_eq_of_links hplace hlineage hlinks

/-- Locales with shared, empty and unknown spellings, two of them further down a lineage. -/
def colours : List (String × Definition) :=
  [("de", .ofList [("RED", "rot"), ("BLUE", "blau"), ("DARK", "blau"), ("PALE", "")]),
   ("fr", .ofList [("RED", "rouge"), ("BLUE", "bleu")]),
   ("nl", .ofList [("extends", "de"), ("RED", "rood"), ("BLUE", ""), ("GREEN", "groen")]),
   ("nl-BE", .ofList [("extends", "nl"), ("RED", ""), ("PALE", "blau")])]

theorem vocabulary_of_lineage_colours :
    ∃ registry, (ofDefinitions .standard colours).result = .ok registry ∧
      "nl-BE" ∈ registry.names ∧
      ∃ (place : Nat) (overriding : List (String × Definition)) (root : String × Definition)
        (vocabulary : Vocabulary),
        registry.names = colours.map Prod.fst ∧
        colours[place]?.map Prod.fst = some "nl-BE" ∧
        Lineage colours place overriding root ∧
        registry.vocabulary? "nl-BE" = some vocabulary ∧
        Lineage.Prescribes .standard overriding root.2 vocabulary ∧
        ∀ others other, (ofDefinitions .standard others).result = .ok other →
          (∀ link ∈ overriding ++ [root], link ∈ others) →
          other.vocabulary? "nl-BE" = some vocabulary :=
  ⟨_, rfl, by decide, vocabulary_of_lineage rfl (by decide)⟩

def german : Vocabulary :=
  .ofList [("$RED$", "rot"), ("$BLUE$", "blau"), ("$DARK$", "blau"), ("$PALE$", "")]

def french : Vocabulary := .ofList [("$RED$", "rouge"), ("$BLUE$", "bleu")]

theorem exists_colours : ∃ registry, (withBuiltins .standard colours).result = .ok registry ∧
    registry.vocabulary? "de" = some german ∧ registry.vocabulary? "fr" = some french := by
  obtain ⟨registry, haccepted⟩ : ∃ registry,
      (withBuiltins .standard colours).result = .ok registry :=
    exists_withBuiltins_iff.mpr (by decide +kernel)
  have hgerman : Lineage colours 0 [] ("de", _) := .complete rfl rfl
  have hfrench : Lineage colours 1 [] ("fr", _) := .complete rfl rfl
  exact ⟨registry, haccepted, vocabulary?_withBuiltins haccepted hgerman rfl,
    vocabulary?_withBuiltins haccepted hfrench rfl⟩

end Vernacular.Registry
