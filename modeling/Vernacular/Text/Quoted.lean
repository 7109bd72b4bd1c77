import Vernacular.Text.Printable

/-!
# Quoted texts

A text between quotation marks, on one line and without anything that a terminal could not show.
Single quotes are used unless the text has single quotes only.
-/

namespace Vernacular.Quoted

def hexDigits : Nat → Nat → List Char
  | 0, _ => []
  | width + 1, n => hexDigits width (n / 16) ++ [Nat.digitChar (n % 16)]

/-- The code point in as few of two, four and eight hexadecimal digits as it needs. -/
def escapeCode (n : Nat) : List Char :=
  if n < 0x100 then '\\' :: 'x' :: hexDigits 2 n
  else if n < 0x10000 then '\\' :: 'u' :: hexDigits 4 n
  else '\\' :: 'U' :: hexDigits 8 n

def escape (mark c : Char) : List Char :=
  if c = mark ∨ c = '\\' then ['\\', c]
  else if c = '\n' then ['\\', 'n']
  else if c = '\r' then ['\\', 'r']
  else if c = '\t' then ['\\', 't']
  else if Text.isPrintable c then [c]
  else escapeCode c.toNat

def markFor (text : List Char) : Char :=
  if '\'' ∈ text ∧ '"' ∉ text then '"' else '\''

def quoteChars (text : List Char) : List Char :=
  markFor text :: text.flatMap (escape (markFor text)) ++ [markFor text]

def quote (text : String) : String := String.ofList (quoteChars text.toList)

/-- A quoted text, or `None` for no text. -/
def quoteOption : Option String → String
  | some text => quote text
  | none => "None"

end Vernacular.Quoted
