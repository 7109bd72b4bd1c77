import Vernacular.Bimap
import Vernacular.Locale.Affixes
import Vernacular.Locale.Token

/-!
# Locale definitions

A definition spells token names.  It may name, under a reserved key, another locale whose other
spellings it takes over.
-/

namespace Vernacular

/-- Spellings by token name, with the locale extended, if any, under `Definition.baseKey`. -/
abbrev Definition := Dictionary String String

/-- A resolved locale: decorated tokens and their spellings. -/
abbrev Vocabulary := Bimap String String

namespace Definition

def baseKey : String := "extends"

def base? (d : Definition) : Option String := d.get? baseKey

/-- The token names a definition leaves out, in the order of `Token.names`. -/
def missingNames (d : Definition) : List String := Token.names.filter (fun t => !d.contains t)

/-- The entries of a definition that extends nothing. -/
def ownEntries (d : Definition) (affixes : Affixes) : List (String × String) :=
  d.toList.map (fun entry => (affixes.decorate entry.1, entry.2))

/-- The spelling an entry of the base gets: the definition's own unless that is missing or empty. -/
def spellingOver (d : Definition) (affixes : Affixes) (inherited : String × String) : String :=
  match d.get? (affixes.strip inherited.1) with
  | some own => if own = "" then inherited.2 else own
  | none => inherited.2

/-- The entries of a definition that extends a vocabulary: those of the vocabulary, respelled. -/
def extendedEntries (d : Definition) (affixes : Affixes) (base : Vocabulary) :
    List (String × String) :=
  base.toList.map (fun entry => (entry.1, d.spellingOver affixes entry))

/-- The token names that a definition spells although the vocabulary it extends lacks them. -/
def unknownNames (d : Definition) (affixes : Affixes) (base : Vocabulary) : List String :=
  d.keys.filter (fun token => token ≠ baseKey && !base.hasKey (affixes.decorate token))

end Definition

end Vernacular
