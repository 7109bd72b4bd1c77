import Vernacular.File.Path
import Vernacular.Text.Quoted
import Vernacular.Text.Utf8

/-!
# Failures of files

Why a file could not be opened, or why its content is no text.
-/

namespace Vernacular

namespace File

inductive Trouble where
  | missing
  | notDirectory
  | isDirectory
  | other (number : Nat) (description : String)
deriving DecidableEq, Repr

def Trouble.number : Trouble → Nat
  | missing => 2
  | notDirectory => 20
  | isDirectory => 21
  | other number _ => number

def Trouble.description : Trouble → String
  | missing => "No such file or directory"
  | notDirectory => "Not a directory"
  | isDirectory => "Is a directory"
  | other _ description => description

structure OpenFault where
  trouble : Trouble
  path : Path
deriving DecidableEq, Repr

def OpenFault.message (f : OpenFault) : String :=
  s!"[Errno {f.trouble.number}] {f.trouble.description}: {Quoted.quote f.path.toString}"

/-- Why a file is not opened: the operating system reports a fault, or it is not even asked, since
no path can hold a null character. -/
inductive Refusal where
  | system (fault : OpenFault)
  | nullInPath
deriving DecidableEq, Repr

inductive ReadFault where
  | unopened (fault : OpenFault)
  | undecoded (fault : Utf8.Fault)
deriving DecidableEq, Repr

def ReadFault.message : ReadFault → String
  | unopened fault => fault.message
  | undecoded fault => fault.message

end File

end Vernacular
