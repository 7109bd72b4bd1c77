import Vernacular.Proofs.CommandLine.Outcome

/-!
# Statuses

The status of a run tells why it has stopped, if it has: whether a file or standard input was at
fault, or anything else.  Two kinds of failures are told apart from this less well than they could
be: content that is no text, if an option names it, and whatever makes the program crash.
-/

namespace Vernacular.CommandLine

variable {platform : Platform} {tree : File.Tree} {world : Surroundings} {invocation : Invocation}
  {halt : Halt} {input : List UInt8} {environment : String → Option String}
  {arguments : List String}

/-! ## Reasons to stop -/

section
variable (platform : Platform) (tree : File.Tree) (input : List UInt8)
  (environment : String → Option String)

end

/-! ## Definitions that are no text -/

end Vernacular.CommandLine
