import Vernacular.Text.Blank
import Vernacular.Text.Quoted
import Vernacular.Text.Utf8

/-!
# Wide texts

JSON can spell one half of a surrogate pair without the other.  Such a half is no character, and a
text that holds one cannot be encoded; but it can be compared, cut and joined like any other text.
-/

namespace Vernacular

structure Half where
  unit : Nat
  le_unit : 0xD800 ≤ unit
  unit_lt : unit < 0xE000
deriving DecidableEq, Repr

/-- A half as it is spelled in JSON, and as the error stream shows it. -/
def Half.escaped (h : Half) : List Char := '\\' :: 'u' :: Quoted.hexDigits 4 h.unit

inductive CodePoint where
  | char (c : Char)
  | half (h : Half)
deriving DecidableEq, Repr

namespace CodePoint

def char? : CodePoint → Option Char
  | char c => some c
  | half _ => none

def half? : CodePoint → Option Half
  | char _ => none
  | half h => some h

def isChar : CodePoint → Bool
  | char _ => true
  | half _ => false

def isBlank : CodePoint → Bool
  | char c => Text.isBlank c
  | half _ => false

def shown : CodePoint → List Char
  | char c => [c]
  | half h => h.escaped

end CodePoint

/-- A text that may hold halves of surrogate pairs. -/
abbrev Wide := List CodePoint

namespace Wide

def ofString (text : String) : Wide := text.toList.map .char

instance : Coe String Wide := ⟨ofString⟩

/-- A text as the error stream shows it. -/
def shown (text : Wide) : String := String.ofList (text.flatMap CodePoint.shown)

def trimEnd (text : Wide) : Wide := (text.reverse.dropWhile CodePoint.isBlank).reverse

/-! ## Encoding -/

/-- The first halves of a text that stand together: where, and how many follow the first. -/
structure Stray where
  position : Nat
  first : Half
  further : Nat
deriving DecidableEq, Repr

def Stray.message (s : Stray) : String :=
  if s.further = 0 then
    s!"'utf-8' codec can't encode character '{String.ofList s.first.escaped}' in position " ++
      s!"{s.position}: surrogates not allowed"
  else
    s!"'utf-8' codec can't encode characters in position " ++
      s!"{s.position}-{s.position + s.further}: surrogates not allowed"

def stray? (text : Wide) : Option Stray :=
  match text.dropWhile CodePoint.isChar with
  | .half first :: rest =>
    some ⟨(text.takeWhile CodePoint.isChar).length, first,
      (rest.takeWhile (fun point => !point.isChar)).length⟩
  | _ => none

/-- A text as a string, which can be encoded, or the first halves that keep it from being one. -/
def narrow (text : Wide) : Except Stray String :=
  match text.stray? with
  | some stray => .error stray
  | none => .ok (String.ofList (text.filterMap CodePoint.char?))

end Wide

end Vernacular
