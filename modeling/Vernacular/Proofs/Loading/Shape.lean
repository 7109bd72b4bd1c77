import Vernacular.Proofs.Json.Reader
import Vernacular.Proofs.Json.Record
import Vernacular.Proofs.Loading
import Vernacular.Proofs.Text.Wide

/-!
# Loading values of a shape

What is loaded from a value is spelled by that value and by no other.  A value that spells nothing
is refused for the first thing in it that is out of shape, in words that say what it is, and every
refusal names its source.  Only a crash has no report.
-/

namespace Vernacular.Loading

/-! ## Shapes -/

def ofTexts (entries : Names) : Json :=
  .object (entries.map fun entry => (entry.1, .string entry.2))

def ofDefinitions (found : Definitions) : Json :=
  .object (found.map fun entry => (entry.1, ofTexts entry.2.toList))

def IsText (value : Json) : Prop := ∃ text, value = .string text

def IsObject (value : Json) : Prop := ∃ members, value = .object members

def IsDefinition (value : Json) : Prop :=
  ∃ members, value = .object members ∧ ∀ member ∈ members, IsText member.2

/-- The first member, in the order of the document, whose value is not as it should be. -/
def FirstNot (good : Json → Prop) (members : List (Wide × Json)) (name : Wide)
    (value : Json) : Prop :=
  ∃ before after, members = before ++ (name, value) :: after ∧
    (∀ member ∈ before, good member.2) ∧ ¬good value

/-- What a value is called that should have been of another kind. -/
inductive Kind : Json → String → Prop
  | null : Kind .null "NoneType"
  | bool (value : Bool) : Kind (.bool value) "bool"
  | int (value : Int) : Kind (.int value) "int"
  | float (bits : UInt64) : Kind (.float bits) "float"
  | string (text : Wide) : Kind (.string text) "str"
  | list (items : List Json) : Kind (.list items) "list"
  | object (members : List (Wide × Json)) : Kind (.object members) "dict"

theorem kind_kindWord (value : Json) : Kind value value.kindWord := by
  cases value <;> constructor

/-- What is first out of shape in a value that should be an object of texts, in words. -/
inductive NamesOffence : Json → Wide → Prop
  | notObject {value : Json} {kind : String} (h : ¬IsObject value) (hkind : Kind value kind) :
      NamesOffence value s!"expected a JSON object, got {kind}"
  | notText {members : List (Wide × Json)} {key : Wide} {value : Json} {kind : String}
      (h : FirstNot IsText members key value) (hkind : Kind value kind) :
      NamesOffence (.object members)
        (Wide.ofString "value of '" ++ key ++ Wide.ofString s!"' must be a string, got {kind}")

/-- What is first out of shape in a value that should be an object of objects of texts, in words. -/
inductive DefinitionsOffence : Json → Wide → Prop
  | notObject {value : Json} {kind : String} (h : ¬IsObject value) (hkind : Kind value kind) :
      DefinitionsOffence value s!"expected a JSON object, got {kind}"
  | localeNotObject {members : List (Wide × Json)} {name : Wide} {value : Json} {kind : String}
      (hfirst : FirstNot IsDefinition members name value) (h : ¬IsObject value)
      (hkind : Kind value kind) :
      DefinitionsOffence (.object members)
        (Wide.ofString "locale '" ++ name ++ Wide.ofString s!"' must be an object, got {kind}")
  | notText {members found : List (Wide × Json)} {name key : Wide} {value : Json}
      {kind : String} (hfirst : FirstNot IsDefinition members name (.object found))
      (h : FirstNot IsText found key value) (hkind : Kind value kind) :
      DefinitionsOffence (.object members)
        (Wide.ofString "locale '" ++ name ++ Wide.ofString "': value of '" ++ key ++
          Wide.ofString s!"' must be a string, got {kind}")

section
variable {good : Json → Prop} {members rest : List (Wide × Json)} {name key : Wide}
  {value other : Json}

theorem not_firstNot_nil : ¬FirstNot good [] name value := by
  simp [FirstNot]

theorem firstNot_cons_of_good (h : good other) :
    FirstNot good ((key, other) :: rest) name value ↔ FirstNot good rest name value := by
  constructor
  · rintro ⟨before, after, heq, hbefore, hvalue⟩
    cases before with
    | nil =>
      cases heq
      exact absurd h hvalue
    | cons member before =>
      cases heq
      exact ⟨before, after, rfl, (List.forall_mem_cons.mp hbefore).2, hvalue⟩
  · rintro ⟨before, after, rfl, hbefore, hvalue⟩
    exact ⟨(key, other) :: before, after, rfl, List.forall_mem_cons.mpr ⟨h, hbefore⟩, hvalue⟩

theorem firstNot_cons_of_not (h : ¬good other) :
    FirstNot good ((key, other) :: rest) name value ↔ name = key ∧ value = other := by
  constructor
  · rintro ⟨before, after, heq, hbefore, -⟩
    cases before with
    | nil =>
      cases heq
      exact ⟨rfl, rfl⟩
    | cons member before =>
      cases heq
      exact absurd (List.forall_mem_cons.mp hbefore).1 h
  · rintro ⟨rfl, rfl⟩
    exact ⟨[], rest, rfl, List.forall_mem_nil _, h⟩

theorem FirstNot.unique (h : FirstNot good members name value)
    (hother : FirstNot good members key other) : name = key ∧ value = other := by
  induction members with
  | nil => exact absurd h not_firstNot_nil
  | cons member rest ih =>
    by_cases hgood : good member.2
    · exact ih ((firstNot_cons_of_good hgood).mp h) ((firstNot_cons_of_good hgood).mp hother)
    · obtain ⟨rfl, rfl⟩ := (firstNot_cons_of_not hgood).mp h
      obtain ⟨rfl, rfl⟩ := (firstNot_cons_of_not hgood).mp hother
      exact ⟨rfl, rfl⟩

end

theorem Kind.unique {value : Json} {kind other : String} (h : Kind value kind)
    (hother : Kind value other) : kind = other := by
  cases h <;> cases hother <;> rfl

/-- There is one first offence at most. -/
theorem DefinitionsOffence.unique {value : Json} {detail other : Wide}
    (h : DefinitionsOffence value detail) (hother : DefinitionsOffence value other) :
    detail = other := by
  cases h with
  | notObject h hkind =>
    cases hother with
    | notObject _ hkind' => rw [hkind.unique hkind']
    | localeNotObject => exact absurd ⟨_, rfl⟩ h
    | notText => exact absurd ⟨_, rfl⟩ h
  | localeNotObject hfirst h hkind =>
    cases hother with
    | notObject h' => exact absurd ⟨_, rfl⟩ h'
    | localeNotObject hfirst' _ hkind' =>
      obtain ⟨rfl, rfl⟩ := hfirst.unique hfirst'
      rw [hkind.unique hkind']
    | notText hfirst' => exact absurd ⟨_, (hfirst.unique hfirst').2⟩ h
  | notText hfirst hinner hkind =>
    cases hother with
    | notObject h' => exact absurd ⟨_, rfl⟩ h'
    | localeNotObject hfirst' h' => exact absurd ⟨_, (hfirst.unique hfirst').2.symm⟩ h'
    | notText hfirst' hinner' hkind' =>
      obtain ⟨rfl, hobject⟩ := hfirst.unique hfirst'
      cases hobject
      obtain ⟨rfl, rfl⟩ := hinner.unique hinner'
      rw [hkind.unique hkind']

theorem isText_string (text : Wide) : IsText (.string text) := ⟨text, rfl⟩

/-! ## Texts -/

variable {localeName : Option Wide} {members : List (Wide × Json)} {fault : ShapeFault}

theorem texts_eq_ok_iff {entries : Names} :
    texts localeName members = .ok entries ↔
      (entries.map fun entry => (entry.1, .string entry.2)) = members := by
  fun_induction texts localeName members generalizing entries with
  | case1 => rw [Except.ok.injEq, eq_comm, List.map_eq_nil_iff]
  | case2 key text rest ih =>
    simp only [except_map_eq_ok_iff, ih, List.map_eq_cons_iff, Prod.mk.injEq, Json.string.injEq]
    constructor
    · rintro ⟨found, hfound, rfl⟩
      exact ⟨(key, text), found, rfl, ⟨rfl, rfl⟩, hfound⟩
    · rintro ⟨entry, found, rfl, ⟨rfl, rfl⟩, hfound⟩
      exact ⟨found, hfound, rfl⟩
  | case3 key other rest hother =>
    simp only [reduceCtorEq, List.map_eq_cons_iff, Prod.mk.injEq, false_iff]
    rintro ⟨entry, found, -, ⟨-, htext⟩, -⟩
    exact hother entry.2 htext.symm

theorem texts_eq_error_iff :
    texts localeName members = .error fault ↔
      ∃ key value, FirstNot IsText members key value ∧
        .valueNotText localeName key value.kindWord = fault := by
  fun_induction texts localeName members with
  | case1 => simp [not_firstNot_nil]
  | case2 key text rest ih =>
    simp only [except_map_eq_error_iff, ih, firstNot_cons_of_good (isText_string text)]
  | case3 key other rest hother =>
    have hbad : ¬IsText other := fun ⟨text, htext⟩ => hother text htext
    simp [firstNot_cons_of_not hbad]

theorem ofTexts_eq_object_iff {entries : Names} :
    ofTexts entries = .object members ↔ texts localeName members = .ok entries := by
  rw [ofTexts, Json.object.injEq, texts_eq_ok_iff]

theorem isDefinition_object_iff (localeName : Option Wide) :
    IsDefinition (.object members) ↔ ∃ entries, texts localeName members = .ok entries := by
  constructor
  · rintro ⟨found, heq, htexts⟩
    cases heq
    cases hresult : texts localeName members with
    | ok entries => exact ⟨entries, rfl⟩
    | error fault =>
      obtain ⟨key, value, ⟨before, after, rfl, -, hvalue⟩, -⟩ := texts_eq_error_iff.mp hresult
      exact absurd (htexts (key, value) (by simp)) hvalue
  · rintro ⟨entries, hentries⟩
    refine ⟨members, rfl, ?_⟩
    rw [← texts_eq_ok_iff.mp hentries]
    intro member hmember
    obtain ⟨entry, -, rfl⟩ := List.mem_map.mp hmember
    exact isText_string entry.2

/-- Texts that come from an object without repeated names are kept as they are. -/
theorem toList_ofList_of_texts {entries : Names}
    (htidy : (Json.object members).Tidy) (h : texts localeName members = .ok entries) :
    (Dictionary.ofList entries).toList = entries := by
  have hmembers := texts_eq_ok_iff.mp h
  cases htidy with
  | scalar h => cases h
  | object hnames _ =>
    rw [← hmembers, List.map_map] at hnames
    exact Dictionary.toList_ofList hnames

/-! ## Definitions -/

theorem definitions_eq_ok_iff {found : Definitions}
    (htidy : ∀ member ∈ members, member.2.Tidy) :
    definitions members = .ok found ↔
      (found.map fun entry => (entry.1, ofTexts entry.2.toList)) = members := by
  fun_induction definitions members generalizing found with
  | case1 => rw [Except.ok.injEq, eq_comm, List.map_eq_nil_iff]
  | case2 name inner rest fault hfault =>
    simp only [reduceCtorEq, List.map_eq_cons_iff, Prod.mk.injEq, false_iff]
    rintro ⟨entry, found, -, ⟨-, hinner⟩, -⟩
    rw [ofTexts_eq_object_iff, hfault] at hinner
    cases hinner
  | case3 name inner rest entries hentries ih =>
    obtain ⟨hinner, hrest⟩ := List.forall_mem_cons.mp htidy
    have hkept := toList_ofList_of_texts hinner hentries
    simp only [except_map_eq_ok_iff, ih hrest, List.map_eq_cons_iff, Prod.mk.injEq]
    constructor
    · rintro ⟨later, hlater, rfl⟩
      refine ⟨(name, Dictionary.ofList entries), later, rfl, ⟨rfl, ?_⟩, hlater⟩
      rw [hkept, ofTexts_eq_object_iff, hentries]
    · rintro ⟨⟨spelled, d⟩, later, rfl, ⟨rfl, hd⟩, hlater⟩
      rw [ofTexts_eq_object_iff, hentries, Except.ok.injEq] at hd
      exact ⟨later, hlater, by rw [hd, Dictionary.ofList_toList]⟩
  | case4 name other rest hother =>
    simp only [reduceCtorEq, List.map_eq_cons_iff, Prod.mk.injEq, false_iff]
    rintro ⟨entry, found, -, ⟨-, hobject⟩, -⟩
    exact hother _ hobject.symm

theorem definitions_eq_error_iff :
    definitions members = .error fault ↔
      ∃ name value, FirstNot IsDefinition members name value ∧
        (¬IsObject value ∧ .localeNotObject name value.kindWord = fault ∨
          ∃ found key inner, value = .object found ∧ FirstNot IsText found key inner ∧
            .valueNotText (some name) key inner.kindWord = fault) := by
  fun_induction definitions members with
  | case1 => simp [not_firstNot_nil]
  | case2 name inner rest first hfirst =>
    have hbad : ¬IsDefinition (.object inner) := by
      intro hgood
      obtain ⟨entries, hentries⟩ := (isDefinition_object_iff (some name)).mp hgood
      rw [hfirst] at hentries
      cases hentries
    have hobject : IsObject (.object inner) := ⟨inner, rfl⟩
    have herror : texts (some name) inner = .error fault ↔ _ := texts_eq_error_iff
    rw [hfirst, Except.error.injEq] at herror
    simp [firstNot_cons_of_not hbad, hobject, herror]
  | case3 name inner rest entries hentries ih =>
    have hgood : IsDefinition (.object inner) :=
      (isDefinition_object_iff (some name)).mpr ⟨entries, hentries⟩
    simp only [except_map_eq_error_iff, ih, firstNot_cons_of_good hgood]
  | case4 name other rest hother =>
    have hbad : ¬IsObject other := fun ⟨found, hfound⟩ => hother found hfound
    have hworse : ¬IsDefinition other := fun ⟨found, hfound, _⟩ => hother found hfound
    have hnone : ∀ found, other ≠ .object found := hother
    simp [firstNot_cons_of_not hworse, hbad, hnone]

/-! ## Verdicts -/

/-- An error that reports what is out of shape: which source it is about, and what its report is. -/
structure Refuses (error : Error) (location : String) (detail : Wide) : Prop where
  named : error.location = location
  kind : error.failure.kind = .definitionLoad location
  report : error.failure.diagnostic? = some error.diagnostic
  code : error.diagnostic.code = .definitionInvalidShape
  message : error.message = Wide.ofString s!"Invalid content in {location}: " ++ detail
  shown : error.diagnostic.message = error.message.shown
  source : error.diagnostic.location = some location

theorem refuses_misshapen (location : String) (fault : ShapeFault) :
    Refuses ⟨location, .misshapen fault⟩ location fault.detail := by
  have hprefix : (Diagnostic.definitionInvalidShape location "").message =
      s!"Invalid content in {location}: " := by
    simp [Diagnostic.definitionInvalidShape, toString]
  have hmessage : (⟨location, .misshapen fault⟩ : Error).message =
      Wide.ofString s!"Invalid content in {location}: " ++ fault.detail := by
    rw [Error.message, hprefix]
  refine ⟨rfl, rfl, rfl, rfl, hmessage, ?_, rfl⟩
  rw [hmessage, Wide.shown_append, Wide.shown_ofString]
  rfl

/-- A loader's verdict on a value: what is spelled by the value, or else an error that reports the
first offence. -/
structure Judges {α : Type} (spell : α → Json) (Offence : Json → Wide → Prop)
    (location : String) (value : Json) (result : Except Abort α) : Prop where
  ok_iff : ∀ found, result = .ok found ↔ value = spell found
  error_iff : (∃ abort, result = .error abort) ↔ ∃ detail, Offence value detail
  refuses : ∀ abort, result = .error abort →
    ∃ error detail, abort = .reported error ∧ Offence value detail ∧ Refuses error location detail

section
variable {α : Type} {decoder : Json.Decoder} {files : Files} {source given : String}
  {text : List Char} {value : Json} {shape : List (Wide × Json) → Except ShapeFault α}
  {message : α → String}

/-- What a value is refused for: it is no object, or its members are out of shape. -/
def Misfit (shape : List (Wide × Json) → Except ShapeFault α) (value : Json)
    (fault : ShapeFault) : Prop :=
  ¬IsObject value ∧ .notObject value.kindWord = fault ∨
    ∃ members, value = .object members ∧ shape members = .error fault

theorem load_eq_ok_iff_of_read {found : α}
    (hcontent : (Source.ofString source).content files = .ok text)
    (hread : Json.read decoder text = .ok value) :
    (load decoder files shape message source given).result = .ok found ↔
      ∃ members, value = .object members ∧ shape members = .ok found := by
  rw [load_eq_ok_iff]
  constructor
  · rintro ⟨hsame, hobject, hshape⟩
    rw [hcontent, Except.ok.injEq] at hsame
    rw [← hsame, hread, Except.ok.injEq] at hobject
    exact ⟨_, hobject, hshape⟩
  · rintro ⟨members, rfl, hshape⟩
    exact .intro hcontent hread hshape

theorem load_eq_error_iff_of_read {abort : Abort}
    (hcontent : (Source.ofString source).content files = .ok text)
    (hread : Json.read decoder text = .ok value) :
    (load decoder files shape message source given).result = .error abort ↔
      ∃ fault, Misfit shape value fault ∧
        abort = .reported ⟨(Source.ofString source).location given, .misshapen fault⟩ := by
  rw [load_eq_error_iff]
  constructor
  · intro hfails
    cases hfails with
    | unread hunread =>
      rw [hcontent] at hunread
      cases hunread
    | malformed hsame hstopped | excessive hsame hstopped =>
      rw [hcontent, Except.ok.injEq] at hsame
      rw [← hsame, hread] at hstopped
      cases hstopped
    | notObject hsame hother hkind =>
      rw [hcontent, Except.ok.injEq] at hsame
      rw [← hsame, hread, Except.ok.injEq] at hother
      subst hother
      exact ⟨_, .inl ⟨fun ⟨members, hobject⟩ => hkind members hobject, rfl⟩, rfl⟩
    | misshapen hsame hobject hshape =>
      rw [hcontent, Except.ok.injEq] at hsame
      rw [← hsame, hread, Except.ok.injEq] at hobject
      exact ⟨_, .inr ⟨_, hobject, hshape⟩, rfl⟩
  · rintro ⟨fault, ⟨hother, rfl⟩ | ⟨members, rfl, hshape⟩, rfl⟩
    · exact .notObject hcontent hread fun found hobject => hother ⟨found, hobject⟩
    · exact .misshapen hcontent hread hshape

theorem judges_load {spell : α → Json} {Offence : Json → Wide → Prop}
    (hspelled : ∀ found, (∃ members, value = .object members ∧ shape members = .ok found) ↔
      value = spell found)
    (hworded : ∀ fault, Misfit shape value fault → Offence value fault.detail)
    (hfound : ∀ detail, Offence value detail → ∃ fault, Misfit shape value fault)
    (hcontent : (Source.ofString source).content files = .ok text)
    (hread : Json.read decoder text = .ok value) :
    Judges spell Offence ((Source.ofString source).location given) value
      (load decoder files shape message source given).result where
  ok_iff found := (load_eq_ok_iff_of_read hcontent hread).trans (hspelled found)
  error_iff := by
    simp only [load_eq_error_iff_of_read hcontent hread]
    constructor
    · rintro ⟨abort, fault, hmisfit, -⟩
      exact ⟨_, hworded fault hmisfit⟩
    · rintro ⟨detail, hoffence⟩
      obtain ⟨fault, hmisfit⟩ := hfound detail hoffence
      exact ⟨_, fault, hmisfit, rfl⟩
  refuses abort habort := by
    obtain ⟨fault, hmisfit, rfl⟩ := (load_eq_error_iff_of_read hcontent hread).mp habort
    exact ⟨_, _, rfl, hworded fault hmisfit, refuses_misshapen _ fault⟩

theorem judges_loadNames (hcontent : (Source.ofString source).content files = .ok text)
    (hread : Json.read decoder text = .ok value) :
    Judges ofTexts NamesOffence ((Source.ofString source).location given) value
      (loadNames decoder files source given).result := by
  rw [loadNames_eq_load]
  refine judges_load (fun names => ?_) (fun fault hmisfit => ?_) (fun detail hoffence => ?_)
    hcontent hread
  · constructor
    · rintro ⟨members, rfl, hshape⟩
      exact (ofTexts_eq_object_iff.mpr hshape).symm
    · rintro rfl
      exact ⟨_, rfl, ofTexts_eq_object_iff.mp rfl⟩
  · rcases hmisfit with ⟨hother, rfl⟩ | ⟨members, rfl, hshape⟩
    · exact .notObject hother (kind_kindWord value)
    · obtain ⟨key, inner, hfirst, rfl⟩ := texts_eq_error_iff.mp hshape
      exact .notText hfirst (kind_kindWord inner)
  · cases hoffence with
    | notObject hother => exact ⟨_, .inl ⟨hother, rfl⟩⟩
    | notText hfirst => exact ⟨_, .inr ⟨_, rfl, texts_eq_error_iff.mpr ⟨_, _, hfirst, rfl⟩⟩⟩

theorem judges_loadDefinitions (hcontent : (Source.ofString source).content files = .ok text)
    (hread : Json.read decoder text = .ok value) :
    Judges ofDefinitions DefinitionsOffence ((Source.ofString source).location given) value
      (loadDefinitions decoder files source given).result := by
  have htidy : ∀ members, value = .object members → ∀ member ∈ members, member.2.Tidy := by
    rintro members rfl
    cases Json.tidy_of_read hread with
    | scalar h => cases h
    | object _ hvalues => exact hvalues
  rw [loadDefinitions_eq_load]
  refine judges_load (fun found => ?_) (fun fault hmisfit => ?_) (fun detail hoffence => ?_)
    hcontent hread
  · constructor
    · rintro ⟨members, rfl, hshape⟩
      rw [ofDefinitions, (definitions_eq_ok_iff (htidy members rfl)).mp hshape]
    · rintro rfl
      exact ⟨_, rfl, (definitions_eq_ok_iff (htidy _ rfl)).mpr rfl⟩
  · rcases hmisfit with ⟨hother, rfl⟩ | ⟨members, rfl, hshape⟩
    · exact .notObject hother (kind_kindWord value)
    · obtain ⟨name, inner, hfirst, ⟨hother, rfl⟩ | ⟨found, key, bad, rfl, hbad, rfl⟩⟩ :=
        definitions_eq_error_iff.mp hshape
      · exact .localeNotObject hfirst hother (kind_kindWord inner)
      · exact .notText hfirst hbad (kind_kindWord bad)
  · cases hoffence with
    | notObject hother => exact ⟨_, .inl ⟨hother, rfl⟩⟩
    | localeNotObject hfirst hother =>
      exact ⟨_, .inr ⟨_, rfl, definitions_eq_error_iff.mpr ⟨_, _, hfirst, .inl ⟨hother, rfl⟩⟩⟩⟩
    | notText hfirst hbad =>
      exact ⟨_, .inr ⟨_, rfl,
        definitions_eq_error_iff.mpr ⟨_, _, hfirst, .inr ⟨_, _, _, rfl, hbad, rfl⟩⟩⟩⟩

end

/-! ## Names of sources -/

/-- A source is called by what follows its at sign, and by the given name if it has none. -/
inductive Called : String → String → String → Prop
  | file (path given : String) : Called ("@" ++ path) given path
  | inline {source given : String} (h : ∀ path, source ≠ "@" ++ path) : Called source given given

theorem Called.unique {source given location other : String} (h : Called source given location)
    (hother : Called source given other) : location = other := by
  cases h with
  | file path =>
    generalize hsource : "@" ++ location = source at hother
    cases hother with
    | file =>
      rw [← String.toList_inj, String.toList_append, String.toList_append,
        List.append_cancel_left_eq, String.toList_inj] at hsource
      exact hsource
    | inline h => exact absurd hsource.symm (h location)
  | inline h =>
    cases hother with
    | file => exact absurd rfl (h _)
    | inline => rfl

theorem called_location (source given : String) :
    Called source given ((Source.ofString source).location given) := by
  unfold Source.ofString
  split
  · next path htext =>
    have hsource : source = "@" ++ String.ofList path := by
      rw [← String.toList_inj, htext]
      simp
    rw [hsource]
    exact .file ..
  · next hother =>
    refine .inline fun path hsource => hother path.toList ?_
    rw [hsource]
    simp

theorem Error.location_diagnostic (e : Error) : e.diagnostic.location = some e.location := by
  obtain ⟨location, cause⟩ := e
  cases cause <;> rfl

theorem location_of_ofUnread {location : String} {unread : Unread} {error : Error}
    (h : Abort.ofUnread location unread = .reported error) : error.location = location := by
  cases unread <;> cases h
  rfl

theorem location_of_loadObject {decoder : Json.Decoder} {files : Files} {source given : String}
    {error : Error}
    (h : (loadObject decoder files source given).result = .error (.reported error)) :
    error.location = (Source.ofString source).location given := by
  rcases loadObject_eq_error_iff.mp h with ⟨unread, -, hunread⟩ | ⟨text, -, hmembers⟩
  · exact location_of_ofUnread hunread
  · rcases members_eq_error_iff.mp hmembers with ⟨_, -, h⟩ | ⟨_, -, h⟩ | ⟨_, -, -, h⟩ <;>
      cases h <;> rfl

theorem location_of_load {α : Type} {shape : List (Wide × Json) → Except ShapeFault α}
    {message : α → String} {decoder : Json.Decoder} {files : Files} {source given : String}
    {error : Error}
    (h : (load decoder files shape message source given).result = .error (.reported error)) :
    error.location = (Source.ofString source).location given := by
  rcases Logged.andThen_eq_error_iff.mp h with hobject | ⟨found, -, hshaped⟩
  · exact location_of_loadObject hobject
  · obtain ⟨fault, -, herror⟩ := shaped_eq_error_iff.mp hshaped
    cases herror
    rfl

/-! ## All sources -/

/-- One of the loaders fails. -/
inductive Aborts (decoder : Json.Decoder) (files : Files) (source given : String) (abort : Abort) :
    Prop
  | object (h : (loadObject decoder files source given).result = .error abort)
  | names (h : (loadNames decoder files source given).result = .error abort)
  | definitions (h : (loadDefinitions decoder files source given).result = .error abort)

/-- A text that reads as a value is loaded for what the value spells, in the order of the document,
or refused for the first thing in it that is out of shape.  Whatever a loader fails for, the failure
and its report name the same source.  There is no report just when the path is that of no file, or
the text goes beyond the limits of the decoder, whichever the loader. -/
theorem judges_of_source (decoder : Json.Decoder) (files : Files) (source given : String) :
    ∃ location, Called source given location ∧
      (∀ text value, (Source.ofString source).content files = .ok text →
        Json.read decoder text = .ok value →
          Judges ofTexts NamesOffence location value
              (loadNames decoder files source given).result ∧
            Judges ofDefinitions DefinitionsOffence location value
              (loadDefinitions decoder files source given).result) ∧
      (∀ error, Aborts decoder files source given (.reported error) →
        error.location = location ∧
          error.failure = ⟨.definitionLoad location, .diagnostic error.diagnostic⟩ ∧
          error.diagnostic.location = some location) ∧
      ((∃ crash, (loadObject decoder files source given).result = .error (.crashed crash)) ↔
        Crashes decoder files (Source.ofString source)) ∧
      ((∃ crash, (loadNames decoder files source given).result = .error (.crashed crash)) ↔
        Crashes decoder files (Source.ofString source)) ∧
      ((∃ crash, (loadDefinitions decoder files source given).result = .error (.crashed crash)) ↔
        Crashes decoder files (Source.ofString source)) := by
  refine ⟨_, called_location source given, fun text value hcontent hread =>
    ⟨judges_loadNames hcontent hread, judges_loadDefinitions hcontent hread⟩,
    fun error haborts => ?_, loadObject_crashes_iff, load_crashes_iff, load_crashes_iff⟩
  have hlocation : error.location = (Source.ofString source).location given := by
    cases haborts with
    | object h => exact location_of_loadObject h
    | names h => exact location_of_load (loadNames_eq_load decoder files ▸ h)
    | definitions h => exact location_of_load (loadDefinitions_eq_load decoder files ▸ h)
  exact ⟨hlocation, hlocation ▸ rfl, hlocation ▸ error.location_diagnostic⟩

/-- Definitions of two locales, the second with a number under half of a surrogate pair. -/
def mixedText : String :=
  "\x7b\"de\": \x7b\"a\": \"b\"\x7d, \"fr\": \x7b\"x\": \"y\", \"\\ud800\": 1\x7d\x7d"

def mixedMembers : List (Wide × Json) :=
  [("de", .object [("a", .string "b")]),
    ("fr", .object [("x", .string "y"), ([.half .first], .int 1)])]

set_option maxRecDepth 4000 in
theorem read_mixedText : Json.read .usual mixedText.toList = .ok (.object mixedMembers) := by
  with_unfolding_all rfl

theorem judges_of_source_mixed :
    let files : Files := fun _ => .ok (Utf8.encode mixedText)
    let decoder : Json.Decoder := .usual
    (Source.ofString "@l.json").content files = .ok mixedText.toList ∧
      Json.read decoder mixedText.toList = .ok (.object mixedMembers) ∧
      ∃ error, (loadDefinitions decoder files "@l.json" definitionsLocation).result =
          .error (.reported error) ∧
        error.location = "l.json" ∧ error.diagnostic.code = .definitionInvalidShape ∧
        error.message = Wide.ofString "Invalid content in l.json: locale 'fr': value of '" ++
          .half .first :: Wide.ofString "' must be a string, got int" := by
  intro files decoder
  have hsource : Source.ofString "@l.json" = .file "l.json" := rfl
  have hopened : files (Path.ofString "l.json") = .ok (Utf8.encode mixedText) := rfl
  have hcontent : (Source.ofString "@l.json").content files = .ok mixedText.toList := by
    rw [hsource, Source.content, fileText_encode hopened (by decide)]
  have hfirst : FirstNot IsDefinition mixedMembers "fr"
      (.object [("x", .string "y"), ([.half .first], .int 1)]) := by
    refine ⟨[("de", .object [("a", .string "b")])], [], rfl, ?_, ?_⟩
    · simp [IsDefinition, IsText]
    · rintro ⟨members, heq, htexts⟩
      cases heq
      simp [IsText] at htexts
  have hbad :
      FirstNot IsText [("x", .string "y"), ([.half .first], .int 1)] [.half .first] (.int 1) :=
    ⟨[("x", .string "y")], [], rfl, by simp [IsText], by simp [IsText]⟩
  have hoffence : DefinitionsOffence (.object mixedMembers) _ := .notText hfirst hbad (.int 1)
  obtain ⟨location, hcalled, hjudges, -⟩ :=
    judges_of_source decoder files "@l.json" definitionsLocation
  have hfile : Called "@l.json" definitionsLocation "l.json" := .file "l.json" definitionsLocation
  obtain rfl : location = "l.json" := hcalled.unique hfile
  have hjudged := (hjudges _ _ hcontent read_mixedText).2
  obtain ⟨abort, habort⟩ := hjudged.error_iff.mpr ⟨_, hoffence⟩
  obtain ⟨error, detail, rfl, hdetail, hrefuses⟩ := hjudged.refuses abort habort
  obtain rfl := hoffence.unique hdetail
  refine ⟨hcontent, read_mixedText, error, habort, hrefuses.named, hrefuses.code, ?_⟩
  rw [hrefuses.message]
  decide +kernel

/-- Not every failure of a loader is a report that names the source. -/
theorem not_located_of_longNumber :
    ¬∀ (decoder : Json.Decoder) (files : Files) (source given : String) (abort : Abort),
      Aborts decoder files source given abort →
      ∃ error location, abort = .reported error ∧ Called source given location ∧
        error.location = location := by
  intro hclaim
  let decoder : Json.Decoder := .usual
  let files : Files := fun path => .error (.system ⟨.missing, path⟩)
  let text := Nat.toDigits 10 Json.longNumber
  have hexceeds : Json.Exceeds decoder text := by
    rw [← List.append_nil text]
    exact Json.exceeds_toDigits rfl Json.length_longNumber Json.endsNumber_nil
  have hcontent : (Source.ofString (String.ofList text)).content files = .ok text := by
    refine content_ofList ?_ files
    have hat := Json.head?_toDigits_append_ne Json.longNumber [] (c := '@') (by decide)
    rwa [List.append_nil] at hat
  obtain ⟨crash, hcrash⟩ : ∃ crash,
      (loadNames decoder files (String.ofList text) namesLocation).result =
        .error (.crashed crash) :=
    load_crashes_iff.mpr (.inr ⟨text, hcontent, hexceeds⟩)
  obtain ⟨error, location, hreported, -⟩ :=
    hclaim decoder files (String.ofList text) namesLocation _ (.names hcrash)
  cases hreported

end Vernacular.Loading
