import Vernacular.Diagnostic

/-!
# The wording of diagnostics

Every diagnostic that the library itself reports is worded here, one function a code.
-/

namespace Vernacular.Diagnostic

def unknownLocale (localeName role : String) : Diagnostic where
  code := .unknownLocale
  message := s!"Locale '{localeName}' given as {role} is not registered"
  hint := some "Use one of the built-in locales or register it through the 'locales' option"
  localeName := some localeName
  setting := some role

/-- A definition extends a locale that is not registered yet. -/
def unknownExtensionTarget (localeName target : String) : Diagnostic where
  code := .unknownExtensionTarget
  message := s!"Locale '{localeName}' extends '{target}', which is not registered"
  hint := some s!"Register '{target}' before '{localeName}'; extension targets must exist first"
  localeName := some target
  setting := some "extends"

def duplicateLocale (localeName : String) : Diagnostic where
  code := .duplicateLocale
  message := s!"Locale '{localeName}' is already registered"
  hint := some "Pick another name, or extend the existing locale instead of redefining it"
  localeName := some localeName

def noSourceLocale : Diagnostic where
  code := .noSourceLocale
  message := "Cannot read localized code: the translator has no source locale"
  hint := some "Construct the translator with source=<locale>"
  setting := some "source"

def noDestinationLocale : Diagnostic where
  code := .noDestinationLocale
  message := "Cannot write localized code: the translator has no destination locale"
  hint := some "Construct the translator with destination=<locale>"
  setting := some "destination"

def noNameOverrides : Diagnostic where
  code := .noNameOverrides
  message := "Name overrides were requested but none were configured"
  hint := some "Either drop include_names or construct the translator with names=<mapping>"
  setting := some "names"

/-- Content could not be read, or is not JSON; `place` is where the reading of JSON stopped. -/
def definitionLoadFailed (location reason : String) (place : Option Place) : Diagnostic where
  code := .definitionLoadFailed
  message := s!"Could not load {location}: {reason}"
  hint := some "Pass a JSON object inline, or '@path' to read it from a UTF-8 file"
  location := some location
  place := place

/-- Content is JSON but not of the shape that was asked for. -/
def definitionInvalidShape (location detail : String) : Diagnostic where
  code := .definitionInvalidShape
  message := s!"Invalid content in {location}: {detail}"
  hint := some "Expected a JSON object whose values are strings"
  location := some location

/-- The first five of a list of names, and the number of the others. -/
def shortList (names : List String) : String :=
  let shown := ", ".intercalate (names.take 5)
  if names.length > 5 then s!"{shown}, ... ({names.length - 5} more)" else shown

/-- A definition that extends nothing leaves out some token names. -/
def incompleteLocale (localeName : String) (missing : List String) : Diagnostic where
  code := .incompleteLocale
  message :=
    s!"Locale '{localeName}' does not define {missing.length} token(s): {shortList missing}"
  hint := some "Missing tokens are left untranslated; extend a complete locale instead"
  localeName := some localeName
  severity := .warning

/-- An extending definition spells a token that the extended locale does not have. -/
def unknownOverrideToken (localeName token target : String) : Diagnostic where
  code := .unknownOverrideToken
  message := s!"Locale '{localeName}' overrides '{token}', unknown to '{target}'"
  hint := some "Only tokens defined by the extended locale can be overridden"
  localeName := some localeName
  severity := .warning

end Vernacular.Diagnostic
