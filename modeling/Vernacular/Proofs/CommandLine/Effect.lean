import Vernacular.Proofs.CommandLine.Delivery
import Vernacular.Proofs.CommandLine.Status

/-!
# What a run leaves behind

A run that fails leaves everything as it was, unless what it is to deliver has no encoding.  Then it
breaks off in the middle: the file for the result is there and empty, or the lines before the one at
fault are printed.
-/

namespace Vernacular.CommandLine

variable {platform : Platform} {tree changed : File.Tree} {world : Surroundings}
  {invocation : Invocation} {common : Common} {job : Job} {halt : Halt} {output : String}
  {input : List UInt8} {environment : String → Option String} {arguments : List String}

/-! ## Breaking off -/

section
variable (platform : Platform) (tree : File.Tree) (input : List UInt8)
  (environment : String → Option String)

end

/-! ## One run of each kind -/

end Vernacular.CommandLine
