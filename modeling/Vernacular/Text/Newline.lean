/-!
# Line ends

Texts read from files and from standard input end their lines with a newline, whatever they were
written with.
-/

namespace Vernacular.Text

/-- Turns a carriage return, alone or before a newline, into a newline. -/
def unifyNewlines : List Char → List Char
  | [] => []
  | '\r' :: '\n' :: rest => '\n' :: unifyNewlines rest
  | '\r' :: rest => '\n' :: unifyNewlines rest
  | c :: rest => c :: unifyNewlines rest

end Vernacular.Text
