import Vernacular.Json.Reader

/-!
# Crashes

Failures of the runtime that neither the library nor the program expects.  No report is made of
them: they end the program, which leaves a trace of itself on the error stream.
-/

namespace Vernacular

inductive Crash where
  /-- JSON has too much of something. -/
  | excess (found : Json.Excess)
  /-- The path of a file that was to be opened holds a null character. -/
  | nullInPath
  /-- A text that was to be written cannot be encoded. -/
  | unencodable (stray : Wide.Stray)
deriving DecidableEq, Repr

namespace Crash

/-- The name of a crash in the last line of its trace. -/
def name : Crash → String
  | excess (.digits _ _) => "ValueError"
  | excess .lists => "RecursionError"
  | excess .objects => "RecursionError"
  | nullInPath => "ValueError"
  | unencodable _ => "UnicodeEncodeError"

def message : Crash → String
  | excess found => found.message
  | nullInPath => "embedded null byte"
  | unencodable stray => stray.message

def line (c : Crash) : String := s!"{c.name}: {c.message}\n"

end Crash

end Vernacular
