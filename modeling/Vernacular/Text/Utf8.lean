/-!
# UTF-8

Decodes octets into characters, or says which octets are wrong and why.  The reader takes one octet
at a time; in the middle of a sequence it knows how many octets are to come and the range that the
next of them has to lie in, so overlong forms, surrogates and code points past the last one are
refused at the earliest octet that gives them away.
-/

namespace Vernacular.Utf8

inductive Reason where
  | invalidStart
  | invalidContinuation
  | unexpectedEnd
deriving DecidableEq, Repr

def Reason.text : Reason → String
  | invalidStart => "invalid start byte"
  | invalidContinuation => "invalid continuation byte"
  | unexpectedEnd => "unexpected end of data"

/-- The octets from `start` up to but not including `stop` are no character; `first` is the octet
at `start`. -/
structure Fault where
  start : Nat
  stop : Nat
  first : UInt8
  reason : Reason
deriving DecidableEq, Repr

def hexPair (octet : UInt8) : String :=
  String.ofList [Nat.digitChar (octet.toNat / 16), Nat.digitChar (octet.toNat % 16)]

def Fault.message (f : Fault) : String :=
  if f.stop ≤ f.start + 1 then
    s!"'utf-8' codec can't decode byte 0x{hexPair f.first} in position {f.start}: {f.reason.text}"
  else
    s!"'utf-8' codec can't decode bytes in position {f.start}-{f.stop - 1}: {f.reason.text}"

/-- A sequence that has begun. -/
structure Partial where
  first : UInt8
  start : Nat
  /-- The bits read so far. -/
  value : Nat
  /-- How many octets are to come after the next one. -/
  further : Nat
  low : Nat
  high : Nat

inductive Step where
  | character (c : Char)
  | more (p : Partial)
  | refuse (f : Fault)

/-- Begins a character at an octet. -/
def begin (position : Nat) (octet : UInt8) : Step :=
  let n := octet.toNat
  if n < 0x80 then .character (Char.ofNat n)
  else if n < 0xC2 then .refuse ⟨position, position + 1, octet, .invalidStart⟩
  else if n < 0xE0 then .more ⟨octet, position, n - 0xC0, 0, 0x80, 0xBF⟩
  else if n < 0xF0 then
    .more ⟨octet, position, n - 0xE0, 1, if n = 0xE0 then 0xA0 else 0x80,
      if n = 0xED then 0x9F else 0xBF⟩
  else if n < 0xF5 then
    .more ⟨octet, position, n - 0xF0, 2, if n = 0xF0 then 0x90 else 0x80,
      if n = 0xF4 then 0x8F else 0xBF⟩
  else .refuse ⟨position, position + 1, octet, .invalidStart⟩

/-- Goes on with a sequence at the next octet. -/
def Partial.next (p : Partial) (position : Nat) (octet : UInt8) : Step :=
  let n := octet.toNat
  if n < p.low ∨ p.high < n then .refuse ⟨p.start, position, p.first, .invalidContinuation⟩
  else
    let value := p.value * 64 + (n - 0x80)
    match p.further with
    | 0 => .character (Char.ofNat value)
    | further + 1 => .more ⟨p.first, p.start, value, further, 0x80, 0xBF⟩

/-- Decodes the octets from `position` on, in the middle of a sequence or between two. -/
def decodeFrom : Option Partial → Nat → List UInt8 → Except Fault (List Char)
  | none, _, [] => .ok []
  | some p, position, [] => .error ⟨p.start, position, p.first, .unexpectedEnd⟩
  | state, position, octet :: rest =>
    match state.elim (begin position octet) (fun p => p.next position octet) with
    | .character c => (decodeFrom none (position + 1) rest).map (c :: ·)
    | .more p => decodeFrom (some p) (position + 1) rest
    | .refuse f => .error f

def decode (octets : List UInt8) : Except Fault (List Char) := decodeFrom none 0 octets

/-- The octets of a text, character by character. -/
def encode (text : String) : List UInt8 := text.toList.flatMap String.utf8EncodeChar

end Vernacular.Utf8
