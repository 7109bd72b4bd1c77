import Vernacular.Dictionary
import Vernacular.Text.Lowercase

/-!
# Locale names

Registries use names such as `es-AR`.  Operating systems write `es_AR.UTF-8` or `sr_RS@latin`.
Here names are brought from one form into the other, the user's own locale is found, and the
registered name closest to a wanted one is picked.
-/

namespace Vernacular.LocaleName

/-- A name without what follows the first point or at sign: the encoding and the modifier. -/
def core (name : List Char) : List Char := name.takeWhile (fun c => c ≠ '.' && c ≠ '@')

def hyphenate (c : Char) : Char := if c = '_' then '-' else c

def underscore (c : Char) : Char := if c = '-' then '_' else c

/-- The form that registries use. -/
def normalizeChars (name : List Char) : List Char := (core name).map hyphenate

/-- The form that operating systems use. -/
def posixChars (name : List Char) : List Char := (normalizeChars name).map underscore

def normalize (name : String) : String := String.ofList (normalizeChars name.toList)

def toPosix (name : String) : String := String.ofList (posixChars name.toList)

/-- The part of a normalized name before its first hyphen. -/
def language (name : String) : String := String.ofList (name.toList.takeWhile (· ≠ '-'))

/-! ## The user's locale -/

/-- The keys that may name the user's locale, in order of precedence. -/
def environmentKeys : List String := ["LC_ALL", "LC_MESSAGES", "LANG", "LANGUAGE"]

/-- The first of a list of names that are separated by colons. -/
def firstListed (value : List Char) : List Char := value.takeWhile (· ≠ ':')

/-- Whether a name stands for no particular locale, with or without an encoding. -/
def isPseudo (name : List Char) : Bool :=
  name = ['C'] || name = "POSIX".toList || ['C', '.'].isPrefixOf name ||
    "POSIX.".toList.isPrefixOf name

/-- The locale that the value of a variable names. -/
def named? (value : String) : Option String :=
  let first := firstListed value.toList
  if value = "" ∨ isPseudo first then none else some (String.ofList (normalizeChars first))

/-- The user's locale, from the first variable that names one. -/
def system? (environment : String → Option String) : Option String :=
  environmentKeys.findSome? (fun key => (environment key).bind named?)

/-! ## The closest name -/

/-- Names by their small form; of names that differ in case only, the last one counts. -/
def folded (names : List String) : Dictionary String String :=
  Dictionary.ofList (names.map (fun name => (Text.lower name, name)))

/-- A name itself if it is available, otherwise one that differs from it in case only. -/
def match? (names : List String) (wanted : String) : Option String :=
  if wanted ∈ names then some wanted else (folded names).get? (Text.lower wanted)

/-- The available name closest to a wanted one: the whole name, then its language. -/
def bestMatch (wanted : String) (names : List String) : Option String :=
  let name := normalize wanted
  (match? names name).or (match? names (language name))

/-! ## Names for people -/

/-- Locale data, if there is any: the name that people read, such as Spanish (Argentina), of a
locale in the language of another.  Both are given in the form that operating systems use. -/
abbrev DisplayNames := Option (String → String → Option String)

def missingDataMessage (feature : String) : String :=
  s!"{feature} requires Babel for CLDR locale data. " ++
    "Install with: pip install gbstranslator[babel]"

/-- The name for people of a locale, unless the data do not know it; without data an error. -/
def displayName (names : DisplayNames) (name language : String) :
    Except String (Option String) :=
  match names with
  | none => .error (missingDataMessage "display_name")
  | some find => .ok (find (toPosix name) (toPosix language))

end Vernacular.LocaleName
