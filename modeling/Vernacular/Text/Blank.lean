import Vernacular.Text.CharRanges

/-!
# White space

The characters that count as white space at the end of a line: the blanks and line breaks of every
script, and the four information separators.
-/

namespace Vernacular.Text

def blank : CharRanges :=
  [(0x9, 0xd), (0x1c, 0x20), (0x85, 0x85), (0xa0, 0xa0), (0x1680, 0x1680), (0x2000, 0x200a),
   (0x2028, 0x2029), (0x202f, 0x202f), (0x205f, 0x205f), (0x3000, 0x3000)]

def isBlank (c : Char) : Bool := blank.holds c

end Vernacular.Text
