import Vernacular.Proofs.CommandLine.Outcome
import Vernacular.Proofs.File.Text
import Vernacular.Proofs.Locale.Builtin
import Vernacular.Proofs.Locale.Spellings
import Vernacular.Proofs.Locale.Token
import Vernacular.Proofs.Translator.RoundTrip

/-!
# Where results go

A conversion that succeeds delivers its result in one place.  With nothing but built-in locales to
load, all that can fail is reading and writing.
-/

namespace Vernacular.CommandLine

variable {platform : Platform} {tree changed : File.Tree} {world : Surroundings}
  {common : Common} {job : Job} {output : String}

/-! ## Jobs without halves -/

section
variable {names : Option Loading.Names} {locales : Option Loading.Definitions} {t : Translator}

/-- Nothing that is loaded has a half in it. -/
structure Whole (names : Option Loading.Names) (locales : Option Loading.Definitions) : Prop where
  names : ∀ text ∈ nameTexts (names.getD []), ∀ h, CodePoint.half h ∉ text
  locales : ∀ text ∈ definitionTexts (locales.getD []), ∀ h, CodePoint.half h ∉ text

theorem whole_none : Whole none none := ⟨by simp [nameTexts], by simp [definitionTexts]⟩

theorem Whole.standIns_eq (h : Whole names locales) (job : Job) (world : Surroundings)
    (common : Common) : job.standIns world common names locales = ⟨[]⟩ := by
  refine StandIns.forTexts_eq_empty fun text htext half => ?_
  rcases List.mem_append.mp htext with hloaded | hgiven
  · rcases List.mem_append.mp hloaded with hname | hlocale
    · exact h.names text hname half
    · exact h.locales text hlocale half
  · obtain ⟨plain, -, rfl⟩ := List.mem_map.mp hgiven
    exact Wide.half_notMem_ofString half plain

/-- Then nothing stands for a half, and the result is that of the translator as it is. -/
theorem Converts.of_whole {code result : String} (h : Whole names locales)
    (hprepares : Prepares world common job names locales t)
    (hcode : job.origin.content world = .ok code)
    (hresult : t.apply job.operation code job.includeNames = .ok result) :
    Converts world common job result := by
  have hconverts := Converts.intro hprepares hcode hresult
  rwa [h.standIns_eq, StandIns.reveal_empty] at hconverts

end

/-! ## Jobs without names and definitions -/

/-- A job that loads no names. -/
def Job.plain (operation : Translator.Operation) (origin : Origin)
    (output source destination : Option String) : Job where
  operation
  origin
  output
  names := none
  includeNames := false
  source
  destination

/-- Settings that load no definitions. -/
def Common.plain (verbose : Bool) (affixes : Affixes) : Common where
  verbose
  locales := none
  affixes

section
variable {verbose : Bool} {affixes : Affixes} {origin : Origin} {target : Option String}
  {operation : Translator.Operation} {registry : Registry} {A B code : String} {a b : Vocabulary}

theorem exists_builtin (affixes : Affixes) :
    ∃ registry, (Registry.withBuiltins affixes []).result = .ok registry :=
  Registry.exists_withBuiltins_iff.mpr trivial

theorem prepares_of_sides {source destination : Option Translator.Side}
    (hlocales : common.locales = none) (hnames : job.names = none)
    (haccepted : (Registry.withBuiltins common.affixes []).result = .ok registry)
    (hsource : Translator.IsSide (job.settings world common none none) registry .source source)
    (hdestination :
      Translator.IsSide (job.settings world common none none) registry .destination destination) :
    Prepares world common job none none
      ⟨job.settings world common none none, registry, source, destination, none⟩ := by
  have hnoNames : Given world (Loading.texts none) job.names none := by
    rw [hnames]
    exact .absent
  have hnoLocales : Given world Loading.definitions common.locales none := by
    rw [hlocales]
    exact .absent
  exact .intro hnoNames hnoLocales
    (Translator.ofSettings_eq_ok haccepted hsource hdestination)

theorem exists_prepares_plain (source destination : Option Translator.Side)
    (haccepted : (Registry.withBuiltins affixes []).result = .ok registry)
    (hsource : ∀ side ∈ source, registry.vocabulary? side.localeName = some side.vocabulary)
    (hdestination :
      ∀ side ∈ destination, registry.vocabulary? side.localeName = some side.vocabulary) :
    ∃ t, Prepares world (.plain verbose affixes)
        (.plain operation origin target (source.map Translator.Side.localeName)
          (destination.map Translator.Side.localeName)) none none t ∧
      t.source = source ∧ t.destination = destination ∧ t.settings.separators = .standard := by
  exact ⟨_, prepares_of_sides rfl rfl haccepted ⟨rfl, hsource⟩ ⟨rfl, hdestination⟩, rfl, rfl, rfl⟩

theorem converts_translate
    (haccepted : (Registry.withBuiltins affixes []).result = .ok registry)
    (hA : registry.vocabulary? A = some a) (hB : registry.vocabulary? B = some b)
    (hcode : origin.content world = .ok code) :
    Converts world (.plain verbose affixes) (.plain .translate origin target (some A) (some B))
      (Separators.standard.mapWords (Translator.localWord b)
        (Separators.standard.mapWords (Translator.abstractWord a) code)) := by
  obtain ⟨t, hprepares, hsource, hdestination, hseparators⟩ :=
    exists_prepares_plain (some ⟨A, a⟩) (some ⟨B, b⟩) haccepted
      (by simpa using hA) (by simpa using hB)
  rw [← hseparators]
  exact .of_whole whole_none hprepares hcode (Translator.translate_without_names hsource hdestination code)

end

/-! ## Content of files -/

theorem content_file {path text : String} {octets : List UInt8} {raw : List Char}
    (hopened : world.files (Path.ofString path) = .ok octets)
    (hdecoded : Utf8.decode octets = .ok raw)
    (htext : String.ofList (Text.unifyNewlines raw) = text) :
    (Origin.file path).content world = .ok text := by
  have hread := File.text_eq_ok_iff.mpr ⟨raw, hdecoded, rfl⟩
  simp [Origin.content, Loading.fileText, hopened, hread, Except.mapError, Except.map, htext]

section
variable {s : Separators} {text : String} {v : Vocabulary} {c : Char}

theorem notMem_getD {word : String} {found : Option String} (hword : c ∉ word.toList)
    (hfound : ∀ other ∈ found, c ∉ other.toList) : c ∉ (found.getD word).toList := by
  cases found with
  | none => exact hword
  | some other => exact hfound other rfl

theorem notMem_mapWords_abstractWord (hconsistent : v.Consistent)
    (htokens : ∀ key ∈ v.forward.keys, c ∉ key.toList) (htext : c ∉ text.toList) :
    c ∉ (s.mapWords (Translator.abstractWord v) text).toList :=
  Separators.notMem_mapWords htext fun _ _ hword =>
    notMem_getD hword fun key hkey => htokens key (hconsistent.mem_keys hkey)

theorem notMem_mapWords_localWord (hspellings : ∀ spelling ∈ v.forward.values, c ∉ spelling.toList)
    (htext : c ∉ text.toList) : c ∉ (s.mapWords (Translator.localWord v) text).toList :=
  Separators.notMem_mapWords htext fun _ _ hword =>
    notMem_getD hword fun spelling hvalue => hspellings spelling (Bimap.mem_values_of_value? hvalue)

/-- Tokens bring no carriage return unless the affixes do. -/
theorem return_notMem_keys {affixes : Affixes} (hopening : '\r' ∉ affixes.opening.toList)
    (hclosing : '\r' ∉ affixes.closing.toList) :
    ∀ key ∈ Token.names.map affixes.decorate, '\r' ∉ key.toList := by
  intro key hkey
  obtain ⟨token, htoken, rfl⟩ := List.mem_map.mp hkey
  simp [Affixes.decorate, hopening, hclosing, Token.return_notMem htoken]

end

/-! ## Places of results -/

section
variable {input : List UInt8} {environment : String → Option String} {arguments : List String}
  {result : String}

theorem runIn_of_saved {path : String} {place : List String}
    (hparse : Invocation.parse arguments = .ok (.convert common job))
    (hconverts : Converts ⟨platform, tree.read, input, environment⟩ common job result)
    (houtput : job.output = some path) (hleads : tree.LeadsTo (Path.ofString path) place) :
    ∃ messages, runIn platform tree input environment arguments =
      (⟨0, "", messages, none⟩, tree.put place (Utf8.encode result)) := by
  rw [← File.Tree.put_put tree place []]
  exact runIn_of_finishes hparse
    (.saved hconverts houtput (File.Tree.create_eq_ok_iff.mpr ⟨hleads, rfl⟩))

end

/-- A tree of one file, with room for another one. -/
def oneFile (text : String) : File.Tree := ⟨[(["in.gbs"], Utf8.encode text)]⟩

theorem read_oneFile (text : String) :
    (oneFile text).read (Path.ofString "in.gbs") = .ok (Utf8.encode text) := by
  have hin : Path.ofString "in.gbs" = ⟨"", ["in.gbs"]⟩ := by decide
  rw [hin]
  rfl

theorem leadsTo_oneFile (text : String) :
    (oneFile text).LeadsTo (Path.ofString "out.gbs") ["out.gbs"] := by
  have hout : Path.ofString "out.gbs" = ⟨"", ["out.gbs"]⟩ := by decide
  rw [hout]
  exact ⟨by decide, .inl rfl⟩

end Vernacular.CommandLine
