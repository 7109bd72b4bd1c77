/-!
# Decorated tokens

Abstract code spells a token name between two affixes, `$GBS_COMMAND_DROP$` unless told otherwise.
`strip` undoes `decorate` whatever the affixes are: they may be empty, equal, or occur in the name.
-/

namespace Vernacular

structure Affixes where
  opening : String := "$"
  closing : String := "$"
deriving DecidableEq, Repr

namespace Affixes

def standard : Affixes := { }

def decorate (a : Affixes) (token : String) : String := a.opening ++ token ++ a.closing

def dropOpening (opening word : List Char) : List Char :=
  if opening.isPrefixOf word then word.drop opening.length else word

def dropClosing (closing word : List Char) : List Char :=
  if closing.isSuffixOf word then word.take (word.length - closing.length) else word

/-- Takes the opening affix off if it is there, then the closing one. -/
def strip (a : Affixes) (word : String) : String :=
  String.ofList (dropClosing a.closing.toList (dropOpening a.opening.toList word.toList))

theorem strip_decorate (a : Affixes) (token : String) : a.strip (a.decorate token) = token := by
  have hopen : a.opening.toList.isPrefixOf
      (a.opening.toList ++ (token.toList ++ a.closing.toList)) = true := by
    rw [List.isPrefixOf_iff_prefix]
    exact List.prefix_append _ _
  have hclose : a.closing.toList.isSuffixOf (token.toList ++ a.closing.toList) = true := by
    rw [List.isSuffixOf_iff_suffix]
    exact List.suffix_append _ _
  have hlength : (token.toList ++ a.closing.toList).length - a.closing.toList.length =
      token.toList.length := by
    rw [List.length_append]
    omega
  rw [strip, decorate, String.toList_append, String.toList_append, List.append_assoc, dropOpening,
    if_pos hopen, List.drop_left, dropClosing, if_pos hclose, hlength, List.take_left,
    String.ofList_toList]

end Affixes

end Vernacular
