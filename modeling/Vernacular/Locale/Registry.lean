import Vernacular.Diagnostic.Wording
import Vernacular.Failure
import Vernacular.Locale.Builtin
import Vernacular.Log
import Vernacular.Text.Quoted

/-!
# Registries

A registry holds the locales that code can be read from and written in.  Definitions are registered
in order: each is resolved into a vocabulary at once, so a definition can only extend a locale that
is there already.
-/

namespace Vernacular

/-- Why a definition is refused. -/
inductive RegistrationError where
  | unknownBase (localeName base : String)
  | duplicateName (localeName : String)
deriving DecidableEq, Repr

def RegistrationError.diagnostic : RegistrationError → Diagnostic
  | unknownBase localeName base => .unknownExtensionTarget localeName base
  | duplicateName localeName => .duplicateLocale localeName

def RegistrationError.failure (e : RegistrationError) : Failure where
  kind :=
    match e with
    | unknownBase _ base => .unknownExtensionTarget base Definition.baseKey
    | duplicateName localeName => .duplicateLocale localeName
  report := .diagnostic e.diagnostic

/-- A registered locale: the definition as it was given, and what it comes to. -/
structure ResolvedLocale where
  definition : Definition
  vocabulary : Vocabulary

structure Registry where
  affixes : Affixes
  locales : Dictionary String ResolvedLocale

namespace Registry

def empty (affixes : Affixes) : Registry := ⟨affixes, .empty⟩

def names (r : Registry) : List String := r.locales.keys

def size (r : Registry) : Nat := r.locales.size

def contains (r : Registry) (name : String) : Bool := r.locales.contains name

def get? (r : Registry) (name : String) : Option ResolvedLocale := r.locales.get? name

def vocabulary? (r : Registry) (name : String) : Option Vocabulary :=
  (r.get? name).map ResolvedLocale.vocabulary

def definition? (r : Registry) (name : String) : Option Definition :=
  (r.get? name).map ResolvedLocale.definition

/-- The token names that a vocabulary leaves without a spelling. -/
def missingNames (r : Registry) (vocabulary : Vocabulary) : List String :=
  Token.names.filter (fun token => !vocabulary.hasKey (r.affixes.decorate token))

/-! ## Registration -/

/-- The locale that a definition extends, once it is found. -/
inductive Base where
  | none
  | locale (name : String) (vocabulary : Vocabulary)

/-- Looks for the locale to extend, then makes sure that the new name is free. -/
def admit? (r : Registry) (name : String) (d : Definition) : Except RegistrationError Base :=
  match d.base? with
  | none => if r.contains name then .error (.duplicateName name) else .ok .none
  | some target =>
    match r.vocabulary? target with
    | none => .error (.unknownBase name target)
    | some vocabulary =>
      if r.contains name then .error (.duplicateName name) else .ok (.locale target vocabulary)

def entriesOver (r : Registry) (d : Definition) : Base → List (String × String)
  | .none => d.ownEntries r.affixes
  | .locale _ vocabulary => d.extendedEntries r.affixes vocabulary

def warningsOver (r : Registry) (name : String) (d : Definition) : Base → List Diagnostic
  | .none =>
    if d.missingNames.isEmpty then [] else [.incompleteLocale name d.missingNames]
  | .locale target vocabulary =>
    (d.unknownNames r.affixes vocabulary).map
      (fun token => .unknownOverrideToken name token target)

def registeredMessage (name : String) (entryCount : Nat) : Base → String
  | .none => s!"Registered locale '{name}' ({entryCount} tokens)"
  | .locale target _ => s!"Registered locale '{name}' ({entryCount} tokens, extends '{target}')"

def recordsOver (r : Registry) (name : String) (d : Definition) (base : Base) :
    List Log.Record :=
  (r.warningsOver name d base).map (fun w => ⟨.warning, .registry, w.message⟩) ++
    [⟨.debug, .registry, registeredMessage name (r.entriesOver d base).length base⟩]

def addOver (r : Registry) (name : String) (d : Definition) (base : Base) : Registry :=
  { r with locales := r.locales.insert name ⟨d, Bimap.ofList (r.entriesOver d base)⟩ }

def register (r : Registry) (name : String) (d : Definition) :
    Logged (Except RegistrationError Registry) :=
  match r.admit? name d with
  | .error e => .silent (.error e)
  | .ok base => ⟨r.recordsOver name d base, .ok (r.addOver name d base)⟩

/-- Registers definitions one after the other, up to the first that is refused. -/
def registerAll (r : Registry) :
    List (String × Definition) → Logged (Except RegistrationError Registry)
  | [] => .silent (.ok r)
  | (name, d) :: rest => (r.register name d).andThen (fun next => next.registerAll rest)

def ofDefinitions (affixes : Affixes) (definitions : List (String × Definition)) :
    Logged (Except RegistrationError Registry) :=
  (empty affixes).registerAll definitions

/-- The built-in locales, then the given ones. -/
def withBuiltins (affixes : Affixes) (definitions : List (String × Definition)) :
    Logged (Except RegistrationError Registry) :=
  ofDefinitions affixes (Builtin.locales ++ definitions)

def describe (r : Registry) : String :=
  s!"LocaleRegistry({r.size} locales, prefix={Quoted.quote r.affixes.opening}, " ++
    s!"suffix={Quoted.quote r.affixes.closing})"

end Registry

end Vernacular
