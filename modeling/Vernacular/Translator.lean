import Vernacular.Locale.Registry
import Vernacular.Word.Replace

/-!
# Translators

A translator reads code in one locale, the source, and writes it in another, the destination.  In
between, code is abstract: every built-in word is a decorated token.  Words that a vocabulary does
not know pass through, and so does everything between words.

Apart from the vocabularies a translator may hold name overrides, which rename identifiers when
that is asked for.  An override wins over the vocabulary.
-/

namespace Vernacular

/-! ## Settings -/

inductive Role where
  | source
  | destination
deriving DecidableEq, Repr

def Role.label : Role → String
  | source => "source"
  | destination => "destination"

namespace Translator

structure Settings where
  source : Option String := none
  destination : Option String := none
  /-- Identifiers and what they are renamed to. -/
  names : Option (List (String × String)) := none
  /-- Definitions to register after the built-in ones. -/
  locales : List (String × Definition) := []
  affixes : Affixes := { }
  separators : Separators := .standard

def Settings.localeFor (settings : Settings) : Role → Option String
  | .source => settings.source
  | .destination => settings.destination

/-- Why there is no translator for some settings. -/
inductive SetupError where
  | registration (error : RegistrationError)
  | unknownLocale (localeName : String) (role : Role)
deriving DecidableEq, Repr

def SetupError.diagnostic : SetupError → Diagnostic
  | registration error => error.diagnostic
  | unknownLocale localeName role => .unknownLocale localeName role.label

def SetupError.failure : SetupError → Failure
  | registration error => error.failure
  | unknownLocale localeName role =>
    ⟨.unknownLocale localeName role.label, .diagnostic (.unknownLocale localeName role.label)⟩

/-- A registered locale in its role. -/
structure Side where
  localeName : String
  vocabulary : Vocabulary

end Translator

structure Translator where
  settings : Translator.Settings
  registry : Registry
  source : Option Translator.Side
  destination : Option Translator.Side
  names : Option (Bimap String String)

namespace Translator

/-! ## Construction -/

/-- The locale a role is given to, which has to be registered. -/
def side (settings : Settings) (registry : Registry) (role : Role) :
    Except SetupError (Option Side) :=
  match settings.localeFor role with
  | none => .ok none
  | some localeName =>
    match registry.vocabulary? localeName with
    | none => .error (.unknownLocale localeName role)
    | some vocabulary => .ok (some ⟨localeName, vocabulary⟩)

/-- Whether decorated tokens would be cut, because an affix holds a separator. -/
def Settings.cutsTokens (settings : Settings) : Bool :=
  (settings.affixes.opening ++ settings.affixes.closing).toList.any settings.separators.contains

def cutMessage (affixes : Affixes) : String :=
  s!"Token prefix {Quoted.quote affixes.opening} or suffix {Quoted.quote affixes.closing} " ++
    "contains a separator character; decorated tokens will not be recognized as words"

def readyMessage (t : Translator) : String :=
  let source := t.settings.source.getD "None"
  let destination := t.settings.destination.getD "None"
  let names := (t.names.map (fun names => toString names.size)).getD "None"
  s!"Translator ready: source={source} destination={destination} names={names} " ++
    s!"locales={t.registry.size}"

def setupRecords (t : Translator) : List Log.Record :=
  (if t.settings.cutsTokens then
    [⟨.warning, .translator, cutMessage t.settings.affixes⟩] else []) ++
    [⟨.debug, .translator, t.readyMessage⟩]

/-- Gives both roles to registered locales, the source first. -/
def ofRegistry (settings : Settings) (registry : Registry) : Except SetupError Translator := do
  let source ← side settings registry .source
  let destination ← side settings registry .destination
  return ⟨settings, registry, source, destination, settings.names.map Bimap.ofList⟩

/-- The translator for some settings, with the built-in locales and those of the settings. -/
def ofSettings (settings : Settings) : Logged (Except SetupError Translator) :=
  ((Registry.withBuiltins settings.affixes settings.locales).mapError .registration).andThen
    fun registry =>
      match ofRegistry settings registry with
      | .error e => .silent (.error e)
      | .ok translator => ⟨translator.setupRecords, .ok translator⟩

def hasNames (t : Translator) : Bool := t.names.isSome

def describe (t : Translator) : String :=
  let source := Quoted.quoteOption t.settings.source
  let destination := Quoted.quoteOption t.settings.destination
  let names := if t.hasNames then "True" else "False"
  s!"Translator(source={source}, destination={destination}, names={names})"

/-! ## Operations -/

inductive Operation where
  | toTokens
  | fromTokens
  | translate
deriving DecidableEq, Repr

namespace Operation

def all : List Operation := [toTokens, fromTokens, translate]

def label : Operation → String
  | toTokens => "to_tokens"
  | fromTokens => "from_tokens"
  | translate => "translate"

end Operation

/-- A setting that an operation needs and that was left out. -/
inductive OperationError where
  | noSource
  | noDestination
  | noNames
deriving DecidableEq, Repr

def OperationError.diagnostic : OperationError → Diagnostic
  | noSource => .noSourceLocale
  | noDestination => .noDestinationLocale
  | noNames => .noNameOverrides

def OperationError.failure (e : OperationError) : Failure where
  kind :=
    match e with
    | noSource => .noSourceLocale
    | noDestination => .noDestinationLocale
    | noNames => .noNameOverrides
  report := .diagnostic e.diagnostic

def sourceSide (t : Translator) : Except OperationError Side :=
  match t.source with
  | some side => .ok side
  | none => .error .noSource

def destinationSide (t : Translator) : Except OperationError Side :=
  match t.destination with
  | some side => .ok side
  | none => .error .noDestination

/-- The name overrides, if they are asked for. -/
def chosenNames (t : Translator) (includeNames : Bool) :
    Except OperationError (Option (Bimap String String)) :=
  if includeNames then
    match t.names with
    | some names => .ok (some names)
    | none => .error .noNames
  else .ok none

/-- What a word read in the source locale becomes: an override first, then a decorated token. -/
def reading (vocabulary : Vocabulary) (names : Option (Bimap String String)) (word : String) :
    Option String :=
  (names.bind (fun names => names.value? word)).or (vocabulary.key? word)

/-- What a word of abstract code becomes: an override read backwards first, then a spelling. -/
def writing (vocabulary : Vocabulary) (names : Option (Bimap String String)) (word : String) :
    Option String :=
  (names.bind (fun names => names.key? word)).or (vocabulary.value? word)

def replace (t : Translator) (lookup : String → Option String) (code : String) : String :=
  t.settings.separators.replaceWords lookup code

/-- Code of the source locale to abstract code. -/
def toTokens (t : Translator) (code : String) (includeNames : Bool) :
    Except OperationError String := do
  let side ← t.sourceSide
  let names ← t.chosenNames includeNames
  return t.replace (reading side.vocabulary names) code

/-- Abstract code to code of the destination locale. -/
def fromTokens (t : Translator) (code : String) (includeNames : Bool) :
    Except OperationError String := do
  let side ← t.destinationSide
  let names ← t.chosenNames includeNames
  return t.replace (writing side.vocabulary names) code

/-- Code of the source locale to code of the destination locale.  Names are renamed while reading
and not a second time while writing. -/
def translate (t : Translator) (code : String) (includeNames : Bool) :
    Except OperationError String := do
  let _ ← t.sourceSide
  let _ ← t.destinationSide
  let abstract ← t.toTokens code includeNames
  t.fromTokens abstract false

def apply (t : Translator) : Operation → String → Bool → Except OperationError String
  | .toTokens => t.toTokens
  | .fromTokens => t.fromTokens
  | .translate => t.translate

/-! ## Records of operations -/

def debugRecord (operation : Operation) (message : String) : Log.Record :=
  ⟨.debug, .translator, s!"{operation.label}: {message}"⟩

/-- What an operation that got as far as reading code says of it. -/
def readRecords (t : Translator) (code : String) (includeNames : Bool) : List Log.Record :=
  match t.sourceSide, t.chosenNames includeNames with
  | .ok side, .ok _ =>
    [debugRecord .toTokens s!"{code.length} chars from locale '{side.localeName}'"]
  | _, _ => []

def writeRecords (t : Translator) (code : String) (includeNames : Bool) : List Log.Record :=
  match t.destinationSide, t.chosenNames includeNames with
  | .ok side, .ok _ =>
    [debugRecord .fromTokens s!"{code.length} chars to locale '{side.localeName}'"]
  | _, _ => []

def translateRecords (t : Translator) (code : String) (includeNames : Bool) : List Log.Record :=
  match t.sourceSide, t.destinationSide with
  | .ok source, .ok destination =>
    debugRecord .translate s!"locale '{source.localeName}' -> '{destination.localeName}'" ::
      match t.toTokens code includeNames with
      | .ok abstract => t.readRecords code includeNames ++ t.writeRecords abstract false
      | .error _ => []
  | _, _ => []

def records (t : Translator) : Operation → String → Bool → List Log.Record
  | .toTokens => t.readRecords
  | .fromTokens => t.writeRecords
  | .translate => t.translateRecords

/-- An operation together with its records. -/
def run (t : Translator) (operation : Operation) (code : String) (includeNames : Bool) :
    Logged (Except OperationError String) :=
  ⟨t.records operation code includeNames, t.apply operation code includeNames⟩

end Translator

end Vernacular
