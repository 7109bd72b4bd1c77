import Vernacular.Dictionary
import Vernacular.Json.Lexeme

/-!
# Reading JSON

A text is read lexeme by lexeme.  The reader remembers what it expects next and the lists and
objects that are still open, so it stops at the first lexeme that cannot stand where it does.  It
also stops where a whole number is too long, or lists and objects lie too deep, for the decoder.
-/

namespace Vernacular.Json

/-- A list or object that is open around the value being read, with the items or members before
that value, most recent first. -/
inductive Frame where
  | list (items : List Json)
  | object (members : List (Wide × Json)) (name : Wide)

/-- What the reader expects next. -/
inductive Mode where
  | value
  /-- The first item of a list, or its end. -/
  | firstItem
  /-- The name of a member after the given ones; before the first member the object may end. -/
  | name (members : List (Wide × Json)) (mayEnd : Bool)
  | colon (members : List (Wide × Json)) (name : Wide)
  /-- A comma or an end, after a value; the end of the text if nothing is open. -/
  | after (value : Json)

structure Reader where
  mode : Mode
  frames : List Frame

/-! ## Decoders -/

/-- What decoders do in different ways: how far they go along with a text, if there is an end to it,
and what they blame if a list or object ends behind a comma. -/
structure Decoder where
  /-- The most digits of a whole number. -/
  digits : Option Nat
  /-- The most lists and objects that are open at once. -/
  depth : Option Nat
  /-- Whether it is the comma, and not the end behind it. -/
  blamesComma : Bool
deriving DecidableEq, Repr

namespace Decoder

/-- A decoder that was not told otherwise. -/
def usual : Decoder := ⟨some 4300, some 1000, true⟩

/-- The same decoder, if it went along with every text. -/
def unlimited (decoder : Decoder) : Decoder := { decoder with digits := none, depth := none }

/-- Whether a comma is blamed for a mark that comes next but for blanks. -/
def blames (decoder : Decoder) (comma : List Char) (mark : Char) : Bool :=
  decoder.blamesComma && (comma.tail.dropWhile isSpace).head? == some mark

end Decoder

/-- What a text has too much of. -/
inductive Excess where
  | digits (limit count : Nat)
  | lists
  | objects
deriving DecidableEq, Repr

def Excess.message : Excess → String
  | digits limit count =>
    s!"Exceeds the limit ({limit} digits) for integer string conversion: value has {count} " ++
      "digits; use sys.set_int_max_str_digits() to increase the limit"
  | lists => "maximum recursion depth exceeded while decoding a JSON array from a unicode string"
  | objects => "maximum recursion depth exceeded while decoding a JSON object from a unicode string"

/-- What a value that begins with a token inside of `depth` lists and objects has too much of. -/
def Decoder.excess? (decoder : Decoder) (depth : Nat) : Token → Option Excess
  | .scalar (.int n) =>
    let count := (Nat.toDigits 10 n.natAbs).length
    (decoder.digits.filter (· < count)).map (Excess.digits · count)
  | .openList => (decoder.depth.filter (· ≤ depth)).map (fun _ => .lists)
  | .openObject => (decoder.depth.filter (· ≤ depth)).map (fun _ => .objects)
  | _ => none

/-- Why a text is not read to its end. -/
inductive Stop where
  | fault (fault : Fault)
  | excess (excess : Excess)
deriving DecidableEq, Repr

/-- An object keeps a repeated name in its first place and with its last value. -/
def ofMembers (members : List (Wide × Json)) : Json :=
  .object (Dictionary.ofList members).toList

namespace Reader

def start : Reader := ⟨.value, []⟩

def readValue (frames : List Frame) (x : Lexeme) : Except Fault Reader :=
  match x.token with
  | .scalar value => .ok ⟨.after value, frames⟩
  | .string text => .ok ⟨.after (.string text), frames⟩
  | .openList => .ok ⟨.firstItem, frames⟩
  | .openObject => .ok ⟨.name [] true, frames⟩
  | .brokenString fault => .error fault
  | _ => .error ⟨.expectedValue, x.text⟩

def readFirstItem (frames : List Frame) (x : Lexeme) : Except Fault Reader :=
  match x.token with
  | .closeList => .ok ⟨.after (.list []), frames⟩
  | _ => readValue (.list [] :: frames) x

def readName (frames : List Frame) (members : List (Wide × Json)) (mayEnd : Bool)
    (x : Lexeme) : Except Fault Reader :=
  match x.token with
  | .string name => .ok ⟨.colon members name, frames⟩
  | .brokenString fault => .error fault
  | .closeObject =>
    if mayEnd then .ok ⟨.after (ofMembers members.reverse), frames⟩
    else .error ⟨.expectedName, x.text⟩
  | _ => .error ⟨.expectedName, x.text⟩

def readColon (frames : List Frame) (members : List (Wide × Json)) (name : Wide)
    (x : Lexeme) : Except Fault Reader :=
  match x.token with
  | .colon => .ok ⟨.value, .object members name :: frames⟩
  | _ => .error ⟨.expectedColon, x.text⟩

def readAfter (decoder : Decoder) (value : Json) (x : Lexeme) :
    List Frame → Except Fault Reader
  | [] => .error ⟨.extraData, x.text⟩
  | .list items :: outer =>
    match x.token with
    | .comma =>
      if decoder.blames x.text ']' then .error ⟨.commaInList, x.text⟩
      else .ok ⟨.value, .list (value :: items) :: outer⟩
    | .closeList => .ok ⟨.after (.list (value :: items).reverse), outer⟩
    | _ => .error ⟨.expectedComma, x.text⟩
  | .object members name :: outer =>
    match x.token with
    | .comma =>
      if decoder.blames x.text '\x7d' then .error ⟨.commaInObject, x.text⟩
      else .ok ⟨.name ((name, value) :: members) false, outer⟩
    | .closeObject => .ok ⟨.after (ofMembers ((name, value) :: members).reverse), outer⟩
    | _ => .error ⟨.expectedComma, x.text⟩

def step (decoder : Decoder) (r : Reader) (x : Lexeme) : Except Fault Reader :=
  match r.mode with
  | .value => readValue r.frames x
  | .firstItem => readFirstItem r.frames x
  | .name members mayEnd => readName r.frames members mayEnd x
  | .colon members name => readColon r.frames members name x
  | .after value => readAfter decoder value x r.frames

/-- How many lists and objects are open around a value that may come next. -/
def depth? (r : Reader) : Option Nat :=
  match r.mode with
  | .value => some r.frames.length
  | .firstItem => some (r.frames.length + 1)
  | _ => none

/-- What a value has too much of, if a lexeme begins one. -/
def excess? (decoder : Decoder) (r : Reader) (x : Lexeme) : Option Excess :=
  r.depth?.bind (decoder.excess? · x.token)

/-- A step, unless the lexeme goes beyond the limits where it stands. -/
def stepWithin (decoder : Decoder) (r : Reader) (x : Lexeme) : Except Stop Reader :=
  match r.excess? decoder x with
  | some excess => .error (.excess excess)
  | none => (r.step decoder x).mapError .fault

def run (decoder : Decoder) (r : Reader) : List Lexeme → Except Stop Reader
  | [] => .ok r
  | x :: rest => (r.stepWithin decoder x).bind (fun next => next.run decoder rest)

/-- The value read, once the text has ended. -/
def finish (r : Reader) : Except Fault Json :=
  match r.mode, r.frames with
  | .after value, [] => .ok value
  | .after _, _ :: _ => .error ⟨.expectedComma, []⟩
  | .colon .., _ => .error ⟨.expectedColon, []⟩
  | .name .., _ => .error ⟨.expectedName, []⟩
  | .value, _ => .error ⟨.expectedValue, []⟩
  | .firstItem, _ => .error ⟨.expectedValue, []⟩

end Reader

def read (decoder : Decoder) (text : List Char) : Except Stop Json :=
  match text with
  | '\ufeff' :: _ => .error (.fault ⟨.byteOrderMark, text⟩)
  | _ => (Reader.start.run decoder (lexemes text)).bind (fun r => r.finish.mapError .fault)

end Vernacular.Json
