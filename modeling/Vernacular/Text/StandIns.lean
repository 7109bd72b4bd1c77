import Vernacular.Text.Wide

/-!
# Characters in the place of halves

Registries and translators work on strings: they compare texts, cut them at separators and join
them again, and make no difference between characters that are no separators.  So the halves of
wide texts can go through them as characters that occur nowhere else, of the last two planes, and
come out again.
-/

namespace Vernacular

structure StandIns where
  pairs : List (Half × Char)
deriving Repr

namespace StandIns

def hidePoint (s : StandIns) : CodePoint → Char
  | .char c => c
  | .half h => (s.pairs.lookup h).getD '\ufffd'

def hide (s : StandIns) (text : Wide) : String := String.ofList (text.map s.hidePoint)

def revealChar (s : StandIns) (c : Char) : CodePoint :=
  match s.pairs.find? (fun pair => pair.2 = c) with
  | some (h, _) => .half h
  | none => .char c

def reveal (s : StandIns) (text : String) : Wide := text.toList.map s.revealChar

/-- A text with the halves back in it, as the error stream shows it. -/
def shown (s : StandIns) (text : String) : String := (s.reveal text).shown

/-! ## Choice -/

/-- How many characters the last two planes have. -/
def supply : Nat := 0x20000

def candidate (n : Nat) : Char := Char.ofNat (0xF0000 + n)

/-- The first candidate that is not in use. -/
def unused (used : List Char) : Char :=
  (((List.range supply).find? (fun n => candidate n ∉ used)).map candidate).getD '\ufffd'

def assign (used : List Char) : List Half → List (Half × Char)
  | [] => []
  | h :: rest => (h, unused used) :: assign (unused used :: used) rest

/-- Stand-ins for all halves of some texts, none of which occurs in the texts. -/
def forTexts (texts : List Wide) : StandIns :=
  ⟨assign (texts.flatten.filterMap CodePoint.char?)
    ((texts.flatten.filterMap CodePoint.half?).foldr List.insert [])⟩

end StandIns

end Vernacular
