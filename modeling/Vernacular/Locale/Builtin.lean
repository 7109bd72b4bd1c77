import Vernacular.Locale.Builtin.English
import Vernacular.Locale.Builtin.Spanish

/-!
# Built-in locales

English and its regions, then Spanish and its regions.  Regions reuse the definition of their
language; a region where colours are spelled the British way reuses the British one.
-/

namespace Vernacular.Builtin

def englishRegions : List (String × Definition) :=
  [("en-AU", britishEnglish), ("en-BZ", english), ("en-CA", britishEnglish),
   ("en-CB", britishEnglish), ("en-GB", britishEnglish), ("en-IE", britishEnglish),
   ("en-IN", britishEnglish), ("en-JM", britishEnglish), ("en-MT", britishEnglish),
   ("en-MY", britishEnglish), ("en-NZ", britishEnglish), ("en-PH", britishEnglish),
   ("en-SG", britishEnglish), ("en-TT", britishEnglish), ("en-US", english),
   ("en-ZA", britishEnglish), ("en-ZW", britishEnglish)]

def spanishRegions : List String :=
  ["es-AR", "es-BO", "es-CL", "es-CO", "es-CR", "es-DO", "es-EC", "es-ES", "es-GT", "es-HN",
   "es-MX", "es-NI", "es-PA", "es-PE", "es-PR", "es-PY", "es-SV", "es-US", "es-UY", "es-VE"]

/-- The built-in definitions in order of registration: a locale comes after the one it extends. -/
def locales : List (String × Definition) :=
  ("en", english) :: englishRegions ++
    ("es", spanish) :: spanishRegions.map (fun region => (region, spanish))

end Vernacular.Builtin
