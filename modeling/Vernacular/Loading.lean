import Vernacular.Crash
import Vernacular.Diagnostic.Wording
import Vernacular.Dictionary
import Vernacular.Failure
import Vernacular.File.Tree
import Vernacular.Log

/-!
# Loading definitions and name overrides

Users hand over locale definitions and name overrides as JSON objects, inline or in a file that is
named after an at sign.  What is loaded has the shape that was asked for, member by member in the
order of the document; otherwise the first thing wrong is reported.  What no report is made of, such
as a number that is too long for the runtime, is a crash.
-/

namespace Vernacular.Loading

/-- Opens a file: its octets, or why there are none. -/
abbrev Files := Path → Except File.Refusal (List UInt8)

/-! ## Failures -/

/-- How a JSON value departs from the shape asked for; `kind` is the word for what was found. -/
inductive ShapeFault where
  | notObject (kind : String)
  | localeNotObject (localeName : Wide) (kind : String)
  | valueNotText (localeName : Option Wide) (key : Wide) (kind : String)
deriving DecidableEq, Repr

def ShapeFault.detail : ShapeFault → Wide
  | notObject kind => s!"expected a JSON object, got {kind}"
  | localeNotObject localeName kind =>
    Wide.ofString "locale '" ++ localeName ++ Wide.ofString s!"' must be an object, got {kind}"
  | valueNotText none key kind =>
    Wide.ofString "value of '" ++ key ++ Wide.ofString s!"' must be a string, got {kind}"
  | valueNotText (some localeName) key kind =>
    Wide.ofString "locale '" ++ localeName ++ Wide.ofString "': value of '" ++ key ++
      Wide.ofString s!"' must be a string, got {kind}"

inductive Cause where
  | unread (fault : File.ReadFault)
  | malformed (problem : Json.Problem) (place : Place)
  | misshapen (fault : ShapeFault)
deriving DecidableEq, Repr

/-- A failure to load, and the file or option whose content is at fault. -/
structure Error where
  location : String
  cause : Cause
deriving DecidableEq, Repr

namespace Error

/-- The report of an error as it is shown. -/
def diagnostic (e : Error) : Diagnostic :=
  match e.cause with
  | .unread fault => .definitionLoadFailed e.location fault.message none
  | .malformed problem place => .definitionLoadFailed e.location problem.text (some place)
  | .misshapen fault => .definitionInvalidShape e.location fault.detail.shown

/-- The message of the report with the halves that it quotes. -/
def message (e : Error) : Wide :=
  match e.cause with
  | .misshapen fault =>
    Wide.ofString (Diagnostic.definitionInvalidShape e.location "").message ++ fault.detail
  | _ => e.diagnostic.message

def failure (e : Error) : Failure := ⟨.definitionLoad e.location, .diagnostic e.diagnostic⟩

/-- Whether a file could not be opened, as against being opened and found wanting. -/
def isUnopened (e : Error) : Bool :=
  match e.cause with
  | .unread (.unopened _) => true
  | _ => false

end Error

/-- Why nothing is loaded: an error that is reported, or a crash, of which there is no report. -/
inductive Abort where
  | reported (error : Error)
  | crashed (crash : Crash)
deriving DecidableEq, Repr

/-! ## Sources -/

/-- Why a file gives no text. -/
inductive Unread where
  | faulty (fault : File.ReadFault)
  | nullInPath
deriving DecidableEq, Repr

def fileText (files : Files) (path : String) : Except Unread (List Char) :=
  match files (Path.ofString path) with
  | .error (.system fault) => .error (.faulty (.unopened fault))
  | .error .nullInPath => .error .nullInPath
  | .ok octets => (File.text octets).mapError (fun fault => .faulty (.undecoded fault))

/-- How name overrides are called when they are given inline. -/
def namesLocation : String := "names"

/-- How locale definitions are called when they are given inline. -/
def definitionsLocation : String := "locales"

/-- How any other object is called when it is given inline. -/
def objectLocation : String := "<inline>"

/-- Where a user says that content is: in a file, or right there. -/
inductive Source where
  | file (path : String)
  | inline (text : String)
deriving DecidableEq, Repr

def Source.ofString (text : String) : Source :=
  match text.toList with
  | '@' :: path => .file (String.ofList path)
  | _ => .inline text

/-- The name for a source in reports: its path, or the given one for content that is inline. -/
def Source.location (given : String) : Source → String
  | file path => path
  | inline _ => given

def Abort.ofUnread (location : String) : Unread → Abort
  | .faulty fault => .reported ⟨location, .unread fault⟩
  | .nullInPath => .crashed .nullInPath

/-- The text of a source.  Reading a file leaves a record. -/
def Source.text (files : Files) (location : String) :
    Source → Logged (Except Abort (List Char))
  | inline text => .silent (.ok text.toList)
  | file path =>
    match fileText files path with
    | .error unread => .silent (.error (.ofUnread location unread))
    | .ok text => ⟨[⟨.debug, .loading, s!"Read {text.length} chars from {location}"⟩], .ok text⟩

/-! ## Shapes -/

def members (decoder : Json.Decoder) (location : String) (text : List Char) :
    Except Abort (List (Wide × Json)) :=
  match Json.read decoder text with
  | .error (.fault fault) =>
    .error (.reported
      ⟨location, .malformed fault.problem (Place.ofOffset text (fault.offset text))⟩)
  | .error (.excess excess) => .error (.crashed (.excess excess))
  | .ok (.object found) => .ok found
  | .ok other => .error (.reported ⟨location, .misshapen (.notObject other.kindWord)⟩)

/-- Identifiers and what they are renamed to. -/
abbrev Names := List (Wide × Wide)

/-- Locale names, each with spellings by token name. -/
abbrev Definitions := List (Wide × Dictionary Wide Wide)

/-- The members of an object that should all be texts, or the first that is none. -/
def texts (localeName : Option Wide) : List (Wide × Json) → Except ShapeFault Names
  | [] => .ok []
  | (key, .string text) :: rest => (texts localeName rest).map ((key, text) :: ·)
  | (key, other) :: _ => .error (.valueNotText localeName key other.kindWord)

/-- The members of an object that should all be objects of texts, or what is first wrong. -/
def definitions : List (Wide × Json) → Except ShapeFault Definitions
  | [] => .ok []
  | (name, .object found) :: rest =>
    match texts (some name) found with
    | .error fault => .error fault
    | .ok entries => (definitions rest).map ((name, Dictionary.ofList entries) :: ·)
  | (name, other) :: _ => .error (.localeNotObject name other.kindWord)

/-! ## Loaders -/

/-- Loads a JSON object; `given` names content that is inline. -/
def loadObject (decoder : Json.Decoder) (files : Files) (source given : String) :
    Logged (Except Abort (List (Wide × Json))) :=
  let place := Source.ofString source
  let location := place.location given
  (place.text files location).andThen (fun text => .silent (members decoder location text))

/-- Goes on from members to what they should be, and leaves a record once that is reached. -/
def shaped {α : Type} (location : String) (shape : List (Wide × Json) → Except ShapeFault α)
    (message : α → String) (found : List (Wide × Json)) : Logged (Except Abort α) :=
  match shape found with
  | .error fault => .silent (.error (.reported ⟨location, .misshapen fault⟩))
  | .ok value => ⟨[⟨.debug, .loading, message value⟩], .ok value⟩

def namesMessage (names : Names) : String := s!"Loaded {names.length} name overrides"

def definitionsMessage (found : Definitions) : String :=
  let names : Wide := List.intercalate (Wide.ofString ", ") (found.map Prod.fst)
  s!"Loaded {found.length} locale definitions: {names.shown}"

def loadNames (decoder : Json.Decoder) (files : Files) (source given : String) :
    Logged (Except Abort Names) :=
  (loadObject decoder files source given).andThen <|
    shaped ((Source.ofString source).location given) (texts none) namesMessage

def loadDefinitions (decoder : Json.Decoder) (files : Files) (source given : String) :
    Logged (Except Abort Definitions) :=
  (loadObject decoder files source given).andThen <|
    shaped ((Source.ofString source).location given) definitions definitionsMessage

end Vernacular.Loading
