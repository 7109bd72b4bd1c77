/-!
# Separators

A word is a longest run of characters outside the separator set; everything else is layout.
Letters, digits, `_`, `$` and any other symbol may stand inside a word, whatever the language.
-/

namespace Vernacular

/-- The strings that end a word.  A member that is not a single character ends none. -/
structure Separators where
  members : List String
deriving Repr

namespace Separators

def ofChars (text : String) : Separators := ⟨text.toList.map String.singleton⟩

/-- Blanks and the punctuation of Gobstones.  A carriage return is not among them. -/
def standard : Separators := ofChars " \n\t()[]\x7b\x7d,;.:=<>-"

instance : Inhabited Separators := ⟨standard⟩

def holds (s : Separators) (member : String) : Bool := s.members.contains member

def contains (s : Separators) (c : Char) : Bool := s.holds (String.singleton c)

/-- The members by code point, each once. -/
def sorted (s : Separators) : List String :=
  s.members.eraseDups.mergeSort (fun a b => decide (a ≤ b))

end Separators

end Vernacular
