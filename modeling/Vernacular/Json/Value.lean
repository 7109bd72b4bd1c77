import Vernacular.Text.Wide

/-!
# JSON values

Objects keep their members in order of first appearance, with no name twice.  Whole numbers are
exact; every other number is a double, held by its bits.  Texts are wide, since half of a surrogate
pair may be spelled alone.
-/

namespace Vernacular

inductive Json where
  | null
  | bool (value : Bool)
  | int (value : Int)
  | float (bits : UInt64)
  | string (text : Wide)
  | list (items : List Json)
  | object (members : List (Wide × Json))

/-- The word for the kind of a value in messages about its shape. -/
def Json.kindWord : Json → String
  | null => "NoneType"
  | bool _ => "bool"
  | int _ => "int"
  | float _ => "float"
  | string _ => "str"
  | list _ => "list"
  | object _ => "dict"

end Vernacular
