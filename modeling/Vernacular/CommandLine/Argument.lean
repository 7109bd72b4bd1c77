import Vernacular.Text.Digit
import Vernacular.Translator

/-!
# Arguments of a command line

What each argument is on its own: an option, perhaps with its value attached, the double dash that
ends the options, or plain text.  Options may be abbreviated as long as only one is meant.
-/

namespace Vernacular.CommandLine

/-! ## Commands and options -/

inductive Command where
  | convert (operation : Translator.Operation)
  | locales
deriving DecidableEq, Repr

namespace Command

def all : List Command :=
  [convert .translate, convert .toTokens, convert .fromTokens, locales]

def name : Command → String
  | convert .translate => "translate"
  | convert .toTokens => "to-tokens"
  | convert .fromTokens => "from-tokens"
  | locales => "locales"

def ofName? (name : String) : Option Command := all.find? (fun command => command.name = name)

end Command

inductive Flag where
  | help
  | version
  | verbose
  | locales
  | opening
  | closing
  | input
  | output
  | names
  | includeNames
  | source
  | destination
deriving DecidableEq, Repr

namespace Flag

def spellings : Flag → List String
  | help => ["-h", "--help"]
  | version => ["--version"]
  | verbose => ["--verbose", "-v"]
  | locales => ["-L", "--locales"]
  | opening => ["--prefix"]
  | closing => ["--suffix"]
  | input => ["-i", "--in"]
  | output => ["-o", "--out"]
  | names => ["-n", "--names"]
  | includeNames => ["--include-names"]
  | source => ["-f", "--from"]
  | destination => ["-t", "--to"]

def takesValue : Flag → Bool
  | help | version | verbose | includeNames => false
  | locales | opening | closing | input | output | names | source | destination => true

/-- The options that come before the command. -/
def beforeCommand : List Flag := [help, version]

/-- The options of every command. -/
def shared : List Flag := [help, verbose, locales, opening, closing]

/-- The options that have to be given to a command. -/
def required : Command → List Flag
  | .convert .translate => [source, destination]
  | .convert .toTokens => [source]
  | .convert .fromTokens => [destination]
  | .locales => []

def ofCommand : Command → List Flag
  | .locales => shared
  | .convert operation =>
    shared ++ [input, output, names, includeNames] ++ required (.convert operation)

end Flag

def spellings (flags : List Flag) : List (String × Flag) :=
  flags.flatMap (fun flag => flag.spellings.map (fun spelling => (spelling, flag)))

def flagSpelled? (flags : List Flag) (spelling : String) : Option Flag :=
  (spellings flags).lookup spelling

/-! ## Errors -/

inductive UsageError where
  | ambiguous (argument : String)
  | missingValue (flag : Flag)
  | unexpectedValue (flag : Flag)
  | missingCommand
  | unknownCommand (name : String)
  | missingOption (flag : Flag)
  | unrecognized
  /-- What every option and the code mean is clear, but they do not go together. -/
  | conflict (message : String)
deriving DecidableEq, Repr

/-! ## Classification -/

/-- A value written in the same argument as its option, either after an equals sign or directly
after the option's letter. -/
structure Attached where
  text : List Char
  afterEquals : Bool
deriving DecidableEq, Repr

inductive Argument where
  | plain (text : String)
  | doubleDash
  | flag (flag : Flag) (isShort : Bool) (attached : Option Attached)
  | unknown (text : String)
deriving DecidableEq, Repr

/-- Whether digits, perhaps with a point among them, make up a number. -/
def isNumber (body : List Char) : Bool :=
  match body.dropWhile Text.isDigit with
  | [] => !body.isEmpty
  | c :: places => c = '.' && !places.isEmpty && places.all Text.isDigit

/-- Whether a text reads as a negative number, perhaps at the end of a line. -/
def isNegativeNumber : List Char → Bool
  | '-' :: body => isNumber (if body.getLast? = some '\n' then body.dropLast else body)
  | _ => false

def isShort (spelling : List Char) : Bool := spelling.getD 1 '-' ≠ '-'

/-- Cuts a text at its first equals sign. -/
def cutAtEquals (text : List Char) : List Char × Option Attached :=
  match text.dropWhile (· ≠ '=') with
  | [] => (text, none)
  | _ :: value => (text.takeWhile (· ≠ '='), some ⟨value, true⟩)

/-- The options that an argument may abbreviate, or begin with the letter of. -/
def candidates (flags : List Flag) (text : List Char) : List Argument :=
  if isShort text then
    (spellings flags).filterMap fun (spelling, flag) =>
      if spelling.toList = text.take 2 then
        some (.flag flag true (some ⟨text.drop 2, false⟩))
      else if text.isPrefixOf spelling.toList then
        some (.flag flag (isShort spelling.toList) none)
      else none
  else
    let (name, attached) := cutAtEquals text
    (spellings flags).filterMap fun (spelling, flag) =>
      if name.isPrefixOf spelling.toList then some (.flag flag false attached) else none

/-- The option that an argument spells in full, perhaps with a value after an equals sign. -/
def spelledOut? (flags : List Flag) (text : List Char) : Option Argument :=
  match flagSpelled? flags (String.ofList text) with
  | some flag => some (.flag flag (isShort text) none)
  | none =>
    match cutAtEquals text with
    | (_, none) => none
    | (name, some value) =>
      (flagSpelled? flags (String.ofList name)).map
        (fun flag => .flag flag (isShort name) (some value))

def classify (flags : List Flag) (argument : String) : Except UsageError Argument :=
  let text := argument.toList
  if text.head? ≠ some '-' ∨ text = ['-'] then .ok (.plain argument)
  else
    match spelledOut? flags text with
    | some found => .ok found
    | none =>
      match candidates flags text with
      | [found] => .ok found
      | _ :: _ => .error (.ambiguous argument)
      | [] =>
        if isNegativeNumber text ∨ ' ' ∈ text then .ok (.plain argument)
        else .ok (.unknown argument)

/-- Classifies arguments; after a double dash all are plain. -/
def classifyAll (flags : List Flag) : List String → Except UsageError (List Argument)
  | [] => .ok []
  | "--" :: rest => .ok (.doubleDash :: rest.map .plain)
  | argument :: rest => do
    let found ← classify flags argument
    let others ← classifyAll flags rest
    return found :: others

end Vernacular.CommandLine
