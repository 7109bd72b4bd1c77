import Vernacular.Word.Span

/-!
# Cursors

A cursor stands in a text and reads forward from there: a character, a word, a run of separators,
or whichever span comes next.  What it has read and what lies ahead always make up the whole text,
so it can neither leave the text nor lose a part of it.
-/

namespace Vernacular

structure Cursor where
  separators : Separators
  /-- What has been read, most recent character first. -/
  before : List Char
  ahead : List Char

namespace Cursor

/-- A cursor at a given position, or at the nearest end of the text when that lies outside it. -/
def ofText (text : String) (separators : Separators) (position : Int) : Cursor :=
  let place := min position.toNat text.length
  ⟨separators, (text.toList.take place).reverse, text.toList.drop place⟩

def position (c : Cursor) : Nat := c.before.length

def source (c : Cursor) : String := String.ofList (c.before.reverse ++ c.ahead)

def isWordChar (c : Cursor) (d : Char) : Bool := !c.separators.contains d

def atEnd (c : Cursor) : Bool := c.ahead.isEmpty

def atWord (c : Cursor) : Bool :=
  match c.ahead with
  | [] => false
  | d :: _ => c.isWordChar d

/-! ## Reading ahead -/

def peekChar (c : Cursor) : Option Char := c.ahead.head?

def runAhead (c : Cursor) (accepts : Char → Bool) : Option String :=
  match c.ahead.takeWhile accepts with
  | [] => none
  | run => some (String.ofList run)

def peekWord (c : Cursor) : Option String := c.runAhead c.isWordChar

def peekSeparators (c : Cursor) : Option String := c.runAhead c.separators.contains

/-! ## Moving -/

/-- Moves past `n` characters, or to the end when there are fewer. -/
def skip (c : Cursor) (n : Nat) : Cursor :=
  { c with before := (c.ahead.take n).reverse ++ c.before, ahead := c.ahead.drop n }

def nextChar (c : Cursor) : Option Char × Cursor :=
  match c.peekChar with
  | none => (none, c)
  | some d => (some d, c.skip 1)

def past (c : Cursor) (run : Option String) : Option String × Cursor :=
  match run with
  | none => (none, c)
  | some text => (some text, c.skip text.length)

/-- Reads a word; at a separator or at the end the cursor stays where it is. -/
def nextWord (c : Cursor) : Option String × Cursor := c.past c.peekWord

/-- Reads a run of separators; at a word or at the end the cursor stays where it is. -/
def nextSeparators (c : Cursor) : Option String × Cursor := c.past c.peekSeparators

def nextSpan (c : Cursor) : Option Span × Cursor :=
  let kind := if c.atWord then SpanKind.word else .separator
  let (run, moved) := if c.atWord then c.nextWord else c.nextSeparators
  (run.map (fun text => ⟨kind, text, c.position, moved.position⟩), moved)

/-- The spans of everything ahead. -/
def spans (c : Cursor) : List Span := c.separators.spansFrom c.position c.ahead

def toEnd (c : Cursor) : Cursor := c.skip c.ahead.length

def describe (c : Cursor) : String :=
  s!"WordScanner(position={c.position}, length={c.before.length + c.ahead.length})"

end Cursor

end Vernacular
