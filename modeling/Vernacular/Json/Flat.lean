import Vernacular.Json.Value

/-!
# Flat records

A record of texts and natural numbers, printed as a JSON object on one line.  Only the quotation
mark, the backslash and control characters are escaped; every other character stands as it is.
-/

namespace Vernacular.Json

inductive Scalar where
  | text (value : String)
  | number (value : Nat)
deriving DecidableEq, Repr

def Scalar.toJson : Scalar → Json
  | text value => .string (Wide.ofString value)
  | number value => .int value

/-! ## Printing -/

/-- The letter that follows the backslash in a short escape. -/
def shortEscape? : Char → Option Char
  | '"' => some '"'
  | '\\' => some '\\'
  | '\n' => some 'n'
  | '\r' => some 'r'
  | '\t' => some 't'
  | '\x08' => some 'b'
  | '\x0c' => some 'f'
  | _ => none

def printChar (c : Char) : List Char :=
  match shortEscape? c with
  | some letter => ['\\', letter]
  | none =>
    if c.toNat < 0x20 then
      ['\\', 'u', '0', '0', Nat.digitChar (c.toNat / 16), Nat.digitChar (c.toNat % 16)]
    else [c]

def printText (text : String) : List Char := '"' :: text.toList.flatMap printChar ++ ['"']

def Scalar.print : Scalar → List Char
  | text value => printText value
  | number value => Nat.toDigits 10 value

def printMember (member : String × Scalar) : List Char :=
  printText member.1 ++ ':' :: ' ' :: member.2.print

def printMembers : List (String × Scalar) → List Char
  | [] => []
  | [member] => printMember member
  | member :: rest => printMember member ++ ',' :: ' ' :: printMembers rest

def printFlat (members : List (String × Scalar)) : List Char :=
  '\x7b' :: printMembers members ++ ['\x7d']

end Vernacular.Json
