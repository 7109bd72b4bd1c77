import Vernacular.CommandLine.Run
import Vernacular.Proofs.File.Tree
import Vernacular.Proofs.Loading
import Vernacular.Proofs.Text.Wide
import Vernacular.Proofs.Translator.Construction

/-!
# How runs end

A command line that makes sense either stops or finishes.  Why it stops, and what it finishes with,
is said in terms of what can be loaded, read, built and written, apart from the run itself.
-/

namespace Vernacular

namespace Logged

variable {α β ε : Type} {l : Logged (Except ε α)}

theorem map_eq_ok_iff {f : α → β} {result : β} :
    (l.map (Except.map f)).result = .ok result ↔
      ∃ value, l.result = .ok value ∧ f value = result := by
  unfold map
  cases l.result <;> simp [Except.map]

@[simp] theorem result_reword (f : String → String) (l : Logged α) :
    (l.reword f).result = l.result := by
  rw [reword]

end Logged

namespace CommandLine

variable {α : Type} {platform : Platform} {tree changed : File.Tree} {world : Surroundings}
  {common : Common} {job : Job} {invocation : Invocation} {halt : Halt} {result : Wide}
  {output : String} {input : List UInt8} {environment : String → Option String}
  {arguments : List String}

/-! ## What an option gives -/

/-- What is loaded on account of an option, if it was given. -/
inductive Given (world : Surroundings)
    (shape : List (Wide × Json) → Except Loading.ShapeFault α) : Option String → Option α → Prop
  | absent : Given world shape none none
  | present {source : String} {value : α}
      (hloads : Loading.Loads world.platform.decoder world.files shape
        (Loading.Source.ofString source) value) :
      Given world shape (some source) (some value)

section
variable {shape : List (Wide × Json) → Except Loading.ShapeFault α} {message : α → String}
  {location : String} {option : Option String}

theorem loadGiven_eq_ok_iff {given : Option α} :
    (loadGiven (Loading.load world.platform.decoder world.files shape message) location
        option).result = .ok given ↔
      Given world shape option given := by
  constructor
  · intro h
    cases option with
    | none =>
      obtain rfl := Except.ok.inj h
      exact .absent
    | some source =>
      obtain ⟨value, hvalue, rfl⟩ := Logged.map_eq_ok_iff.mp h
      exact .present (Loading.load_eq_ok_iff.mp (Logged.mapError_eq_ok_iff.mp hvalue))
  · intro h
    cases h with
    | absent => rfl
    | present hloads =>
      refine Logged.map_eq_ok_iff.mpr ⟨_, Logged.mapError_eq_ok_iff.mpr ?_, rfl⟩
      exact Loading.load_eq_ok_iff.mpr hloads

end

/-! ## Converting code -/

/-- The code that is asked for, or why it cannot be read. -/
def Origin.content (world : Surroundings) : Origin → Except Loading.Unread String
  | inline code => .ok code
  | file path => (Loading.fileText world.files path).map String.ofList
  | standardInput =>
    ((File.text world.input).mapError fun fault => .faulty (.undecoded fault)).map String.ofList

theorem readCode_eq (world : Surroundings) (origin : Origin) :
    readCode world origin = (origin.content world).mapError .ofUnread := by
  cases origin with
  | inline code => rfl
  | file path =>
    rw [readCode, Origin.content]
    cases Loading.fileText world.files path <;> rfl
  | standardInput =>
    rw [readCode, Origin.content]
    cases File.text world.input <;> rfl

/-- What the options load is enough for a translator. -/
inductive Prepares (world : Surroundings) (common : Common) (job : Job) :
    Option Loading.Names → Option Loading.Definitions → Translator → Prop
  | intro {names : Option Loading.Names} {locales : Option Loading.Definitions} {t : Translator}
      (hnames : Given world (Loading.texts none) job.names names)
      (hlocales : Given world Loading.definitions common.locales locales)
      (hbuilt : (Translator.ofSettings (job.settings world common names locales)).result = .ok t) :
      Prepares world common job names locales t

/-- The result of the operation that a job asks for, on the code that it asks for, with the halves
back in it. -/
inductive Converts (world : Surroundings) (common : Common) (job : Job) : Wide → Prop
  | intro {names : Option Loading.Names} {locales : Option Loading.Definitions} {t : Translator}
      {code plain : String} (hprepares : Prepares world common job names locales t)
      (hcode : job.origin.content world = .ok code)
      (hresult : t.apply job.operation code job.includeNames = .ok plain) :
      Converts world common job ((job.standIns world common names locales).reveal plain)

theorem convert_eq (world : Surroundings) (common : Common) (job : Job) :
    convert world common job =
      (loadGiven (Loading.load world.platform.decoder world.files (Loading.texts none)
        Loading.namesMessage) Loading.namesLocation job.names).andThen fun names =>
      (loadGiven (Loading.load world.platform.decoder world.files Loading.definitions
        Loading.definitionsMessage) Loading.definitionsLocation common.locales).andThen
          (job.perform world common names) := by
  rw [convert, Loading.loadNames_eq_load, Loading.loadDefinitions_eq_load]

section
variable {names : Option Loading.Names} {locales : Option Loading.Definitions}

theorem Job.perform_eq_ok_iff {product : Product} :
    (job.perform world common names locales).result = .ok product ↔
      ∃ t, (Translator.ofSettings (job.settings world common names locales)).result = .ok t ∧
        ∃ code, job.origin.content world = .ok code ∧
          ∃ plain, t.apply job.operation code job.includeNames = .ok plain ∧
            job.product ((job.standIns world common names locales).reveal plain) = product := by
  simp only [perform, readCode_eq, Logged.result_reword, Logged.andThen_eq_ok_iff,
    Logged.mapError_eq_ok_iff, Logged.map_eq_ok_iff, Logged.silent, except_mapError_eq_ok_iff,
    Translator.run]

end

theorem convert_eq_ok_iff {product : Product} :
    (convert world common job).result = .ok product ↔
      ∃ result, Converts world common job result ∧ job.product result = product := by
  simp only [convert_eq, Logged.andThen_eq_ok_iff, loadGiven_eq_ok_iff, Job.perform_eq_ok_iff]
  constructor
  · rintro ⟨names, hnames, locales, hlocales, t, hbuilt, code, hcode, plain, hresult, hproduct⟩
    exact ⟨_, .intro (.intro hnames hlocales hbuilt) hcode hresult, hproduct⟩
  · rintro ⟨_, ⟨⟨hnames, hlocales, hbuilt⟩, hcode, hresult⟩, hproduct⟩
    exact ⟨_, hnames, _, hlocales, _, hbuilt, _, hcode, _, hresult, hproduct⟩

/-- There is one result at most.  A job that is saved shows all of it. -/
theorem Converts.unique {other : Wide} (h : Converts world common job result)
    (hother : Converts world common job other) : other = result := by
  have hsaved : ∀ text, Converts world common job text →
      (convert world common { job with output := some "" }).result =
        .ok (.save (Path.ofString "") text) := by
    rintro _ ⟨⟨hnames, hlocales, hbuilt⟩, hcode, hresult⟩
    exact convert_eq_ok_iff.mpr ⟨_, .intro (.intro hnames hlocales hbuilt) hcode hresult, rfl⟩
  have hsame := Except.ok.inj ((hsaved _ hother).symm.trans (hsaved _ h))
  exact (Product.save.inj hsame).2

/-- The lines of the listing, with the halves back in them. -/
inductive Lists (world : Surroundings) (common : Common) : List Wide → Prop
  | intro {locales : Option Loading.Definitions} {registry : Registry}
      (hlocales : Given world Loading.definitions common.locales locales)
      (haccepted : (Registry.withBuiltins common.affixes
        (hideDefinitions (common.standIns world locales) (locales.getD []))).result =
          .ok registry) :
      Lists world common (listing world.platform.displayNames (common.standIns world locales)
        registry world.environment)

theorem list_eq_ok_iff {product : Product} :
    (list world common).result = .ok product ↔
      ∃ lines, Lists world common lines ∧ .print lines = product := by
  simp only [list, Common.perform, Loading.loadDefinitions_eq_load, Logged.result_reword,
    Logged.andThen_eq_ok_iff, loadGiven_eq_ok_iff, Logged.mapError_eq_ok_iff,
    Logged.map_eq_ok_iff]
  constructor
  · rintro ⟨locales, hlocales, registry, haccepted, hproduct⟩
    exact ⟨_, .intro hlocales haccepted, hproduct⟩
  · rintro ⟨_, ⟨hlocales, haccepted⟩, hproduct⟩
    exact ⟨_, hlocales, _, haccepted, hproduct⟩

/-- A string as it is printed: its last line is ended, unless it is already. -/
def lineEnded (text : String) : String :=
  if text.toList.getLast? = some '\n' then text else text ++ "\n"

theorem endLine_ofString (text : String) :
    endLine (Wide.ofString text) = Wide.ofString (lineEnded text) := by
  have hlast : (Wide.ofString text).getLast? = some (.char '\n') ↔
      text.toList.getLast? = some '\n' := by
    simp [Wide.ofString, List.getLast?_map]
  unfold endLine lineEnded
  by_cases h : text.toList.getLast? = some '\n'
  · rw [if_pos h, if_pos (hlast.mpr h)]
  · rw [if_neg h, if_neg (mt hlast.mp h)]
    simp [Wide.ofString]

theorem printed_ofString (texts : List String) :
    printed (texts.map Wide.ofString) = (String.join texts, none) := by
  induction texts with
  | nil => rfl
  | cons text rest ih => simp [printed, ih]

/-- What a run that reaches its end prints, and the files as they are then. -/
inductive Finishes (tree : File.Tree) (world : Surroundings) :
    Invocation → String → File.Tree → Prop
  | help {command : Option Command} :
      Finishes tree world (.help command) (world.platform.helpText command) tree
  | version : Finishes tree world .version versionText tree
  | listed {common : Common} {lines : List String}
      (h : Lists world common (lines.map Wide.ofString)) :
      Finishes tree world (.locales common) (String.join lines) tree
  | printed {common : Common} {job : Job} {result : String}
      (hconverts : Converts world common job result) (houtput : job.output = none) :
      Finishes tree world (.convert common job) (lineEnded result) tree
  | saved {common : Common} {job : Job} {result path : String} {place : List String}
      {opened : File.Tree} (hconverts : Converts world common job result)
      (houtput : job.output = some path)
      (hopened : tree.create (Path.ofString path) = .ok (place, opened)) :
      Finishes tree world (.convert common job) "" (opened.put place (Utf8.encode result))

section
variable {verbose : Bool} {work : Logged (Except Halt Product)} {path : Path} {text : Wide}
  {place : List String} {opened : File.Tree} {stray : Wide.Stray}

theorem settle_ending_of_print {texts : List Wide} (h : work.result = .ok (.print texts))
    (hprinted : printed texts = (output, none)) :
    ∃ messages, (ending verbose work).settle tree = (⟨0, output, messages, none⟩, tree) := by
  rw [ending, h]
  simp only [hprinted]
  exact ⟨_, rfl⟩

theorem settle_ending_of_saved {plain : String} (h : work.result = .ok (.save path plain))
    (hopened : tree.create path = .ok (place, opened)) :
    ∃ messages, (ending verbose work).settle tree =
      (⟨0, "", messages, none⟩, opened.put place (Utf8.encode plain)) := by
  rw [ending, h]
  simp only [Ending.settle, hopened, Wide.narrow_ofString]
  exact ⟨_, rfl⟩

end

theorem convert_eq_print (hconverts : Converts world common job result)
    (houtput : job.output = none) :
    (convert world common job).result = .ok (.print [endLine result]) :=
  convert_eq_ok_iff.mpr ⟨result, hconverts, by rw [Job.product, houtput]⟩

theorem convert_eq_save {path : String} (hconverts : Converts world common job result)
    (houtput : job.output = some path) :
    (convert world common job).result = .ok (.save (Path.ofString path) result) :=
  convert_eq_ok_iff.mpr ⟨result, hconverts, by rw [Job.product, houtput]⟩

theorem settle_of_finishes (h : Finishes tree world invocation output changed) :
    ∃ messages, (invocation.run world).settle tree = (⟨0, output, messages, none⟩, changed) := by
  cases h with
  | help => exact ⟨_, rfl⟩
  | version => exact ⟨_, rfl⟩
  | listed hlists =>
    exact settle_ending_of_print (list_eq_ok_iff.mpr ⟨_, hlists, rfl⟩) (printed_ofString _)
  | @printed _ _ result hconverts houtput =>
    have hproduct := convert_eq_print hconverts houtput
    rw [endLine_ofString] at hproduct
    have hprinted := printed_ofString [lineEnded result]
    rw [String.join_cons, String.join_nil, String.append_empty] at hprinted
    exact settle_ending_of_print hproduct hprinted
  | saved hconverts houtput hopened =>
    exact settle_ending_of_saved (convert_eq_save hconverts houtput) hopened

/-- The usual decoder, no library of names, and nothing to say. -/
def Platform.usual : Platform where
  decoder := .usual
  displayNames := none
  helpText _ := ""
  refusalText _ := ""

theorem parse_eq_ok (h : (Invocation.parse arguments).toOption = some invocation) :
    Invocation.parse arguments = .ok invocation := by
  cases hparse : Invocation.parse arguments with
  | error error => simp [hparse, Except.toOption] at h
  | ok other => simpa [hparse, Except.toOption] using h

theorem runIn_of_parse (h : Invocation.parse arguments = .ok invocation) :
    runIn platform tree input environment arguments =
      (invocation.run ⟨platform, tree.read, input, environment⟩).settle tree := by
  rw [runIn, run, h]

theorem runIn_of_finishes (hparse : Invocation.parse arguments = .ok invocation)
    (h : Finishes tree ⟨platform, tree.read, input, environment⟩ invocation output changed) :
    ∃ messages, runIn platform tree input environment arguments =
      (⟨0, output, messages, none⟩, changed) := by
  rw [runIn_of_parse hparse]
  exact settle_of_finishes h

end CommandLine

end Vernacular
