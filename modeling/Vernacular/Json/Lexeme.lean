import Vernacular.Decimal
import Vernacular.Json.Value

/-!
# Lexemes of JSON

Cuts a text into brackets, commas, colons, strings and scalars.  Besides standard JSON the words
`NaN`, `Infinity` and `-Infinity` are numbers.  The first lexeme that is not well formed is the
last one; what is wrong with it is said by whoever reads that far.
-/

namespace Vernacular.Json

/-! ## Faults -/

inductive Problem where
  | byteOrderMark
  | expectedValue
  | expectedName
  | expectedColon
  | expectedComma
  /-- A comma is the last thing in a list or an object. -/
  | commaInList
  | commaInObject
  | extraData
  | unterminatedString
  | controlCharacter
  | invalidEscape
  | invalidCodeEscape
deriving DecidableEq, Repr

def Problem.text : Problem → String
  | byteOrderMark => "Unexpected UTF-8 BOM (decode using utf-8-sig)"
  | expectedValue => "Expecting value"
  | expectedName => "Expecting property name enclosed in double quotes"
  | expectedColon => "Expecting ':' delimiter"
  | expectedComma => "Expecting ',' delimiter"
  | commaInList => "Illegal trailing comma before end of array"
  | commaInObject => "Illegal trailing comma before end of object"
  | extraData => "Extra data"
  | unterminatedString => "Unterminated string starting at"
  | controlCharacter => "Invalid control character at"
  | invalidEscape => "Invalid \\escape"
  | invalidCodeEscape => "Invalid \\uXXXX escape"

/-- What is wrong, and the part of the text that begins there. -/
structure Fault where
  problem : Problem
  rest : List Char
deriving DecidableEq, Repr

/-- The offset of a fault in the text it was found in. -/
def Fault.offset (f : Fault) (text : List Char) : Nat := text.length - f.rest.length

/-! ## Strings -/

def hexValue? (c : Char) : Option Nat :=
  if '0' ≤ c ∧ c ≤ '9' then some (c.toNat - 48)
  else if 'a' ≤ c ∧ c ≤ 'f' then some (c.toNat - 87)
  else if 'A' ≤ c ∧ c ≤ 'F' then some (c.toNat - 55)
  else none

def codeUnit? : List Char → Option (Nat × List Char)
  | a :: b :: c :: d :: rest => do
    let a ← hexValue? a
    let b ← hexValue? b
    let c ← hexValue? c
    let d ← hexValue? d
    some (((a * 16 + b) * 16 + c) * 16 + d, rest)
  | _ => none

/-- Reads the second half of a surrogate pair, as long as something follows it. -/
def lowHalf? : List Char → Option (Nat × List Char)
  | '\\' :: 'u' :: digits =>
    match codeUnit? digits with
    | some (unit, next :: rest) =>
      if 0xDC00 ≤ unit ∧ unit < 0xE000 then some (unit, next :: rest) else none
    | _ => none
  | _ => none

/-- The code point of a unit that is not part of a pair. -/
def ofUnit (unit : Nat) : CodePoint :=
  if h : 0xD800 ≤ unit ∧ unit < 0xE000 then .half ⟨unit, h.1, h.2⟩ else .char (Char.ofNat unit)

/-- Reads what follows `\u`: the digits of a code unit, with more text after them. -/
def codeEscape? (digits : List Char) : Option (CodePoint × List Char) :=
  match codeUnit? digits with
  | some (unit, next :: rest) =>
    if 0xD800 ≤ unit ∧ unit < 0xDC00 then
      match lowHalf? (next :: rest) with
      | some (low, after) =>
        some (.char (Char.ofNat (0x10000 + (unit - 0xD800) * 0x400 + (low - 0xDC00))), after)
      | none => some (ofUnit unit, next :: rest)
    else some (ofUnit unit, next :: rest)
  | _ => none

def plainEscape? : Char → Option Char
  | '"' => some '"'
  | '\\' => some '\\'
  | '/' => some '/'
  | 'b' => some '\x08'
  | 'f' => some '\x0c'
  | 'n' => some '\n'
  | 'r' => some '\r'
  | 't' => some '\t'
  | _ => none

/-- Reads what follows a backslash; `whole` is the text from the string's opening mark on. -/
def escape? (whole : List Char) : List Char → Except Fault (CodePoint × List Char)
  | [] => .error ⟨.unterminatedString, whole⟩
  | 'u' :: digits =>
    match codeEscape? digits with
    | some found => .ok found
    | none => .error ⟨.invalidCodeEscape, 'u' :: digits⟩
  | letter :: rest =>
    match plainEscape? letter with
    | some c => .ok (.char c, rest)
    | none => .error ⟨.invalidEscape, '\\' :: letter :: rest⟩

theorem length_codeUnit? {digits rest : List Char} {unit : Nat}
    (h : codeUnit? digits = some (unit, rest)) : rest.length + 4 = digits.length := by
  unfold codeUnit? at h
  split at h
  · simp only [Option.bind_eq_bind, Option.bind_eq_some_iff, Option.some.injEq,
      Prod.mk.injEq] at h
    obtain ⟨_, _, _, _, _, _, _, _, _, rfl⟩ := h
    rfl
  · cases h

theorem length_lowHalf? {text rest : List Char} {unit : Nat}
    (h : lowHalf? text = some (unit, rest)) : rest.length < text.length := by
  unfold lowHalf? at h
  split at h
  · next digits =>
    split at h
    · next found next more hunit =>
      split at h
      · obtain ⟨_, rfl⟩ := Prod.mk.inj (Option.some.inj h)
        have := length_codeUnit? hunit
        simp only [List.length_cons] at this ⊢
        omega
      · cases h
    · cases h
  · cases h

theorem length_codeEscape? {digits rest : List Char} {point : CodePoint}
    (h : codeEscape? digits = some (point, rest)) : rest.length ≤ digits.length := by
  unfold codeEscape? at h
  split at h
  · next unit next more hunit =>
    have hlength := length_codeUnit? hunit
    split at h
    · split at h
      · next low after hlow =>
        obtain ⟨_, rfl⟩ := Prod.mk.inj (Option.some.inj h)
        have := length_lowHalf? hlow
        omega
      · obtain ⟨_, rfl⟩ := Prod.mk.inj (Option.some.inj h)
        omega
    · obtain ⟨_, rfl⟩ := Prod.mk.inj (Option.some.inj h)
      omega
  · cases h

theorem length_escape? {whole text rest : List Char} {point : CodePoint}
    (h : escape? whole text = .ok (point, rest)) : rest.length < text.length := by
  unfold escape? at h
  split at h
  · cases h
  · next digits =>
    split at h
    · next found hfound =>
      cases h
      have := length_codeEscape? hfound
      simp only [List.length_cons]
      omega
    · cases h
  · next letter more _ =>
    split at h
    · cases h
      simp
    · cases h

/-- Reads a string after its opening mark: its code points, and the text after its closing mark. -/
def string? (whole : List Char) (text : List Char) : Except Fault (Wide × List Char) :=
  match text with
  | [] => .error ⟨.unterminatedString, whole⟩
  | c :: rest =>
    if c = '"' then .ok ([], rest)
    else if c = '\\' then
      match _ : escape? whole rest with
      | .error f => .error f
      | .ok (point, after) => (string? whole after).map (fun found => (point :: found.1, found.2))
    else if c.toNat < 0x20 then .error ⟨.controlCharacter, c :: rest⟩
    else (string? whole rest).map (fun found => (.char c :: found.1, found.2))
termination_by text.length
decreasing_by
  · have := length_escape? ‹_›
    simp only [List.length_cons]
    omega
  · simp

/-! ## Scalars -/

/-- Reads a number's digits before the point: a zero, or digits that do not begin with one. -/
def wholePart? : List Char → Option (List Char × List Char)
  | [] => none
  | c :: rest =>
    if c = '0' then some (['0'], rest)
    else if c.isDigit then
      some (c :: rest.takeWhile Char.isDigit, rest.dropWhile Char.isDigit)
    else none

/-- Reads a point and the digits after it; without a digit the point is not part of the number. -/
def fraction (text : List Char) : List Char × List Char :=
  match text with
  | '.' :: rest =>
    match rest.takeWhile Char.isDigit with
    | [] => ([], text)
    | digits => (digits, rest.dropWhile Char.isDigit)
  | _ => ([], text)

def digitsValue (digits : List Char) : Nat :=
  digits.foldl (fun n c => 10 * n + (c.toNat - 48)) 0

def exponentSign : List Char → Bool × List Char
  | '-' :: rest => (true, rest)
  | '+' :: rest => (false, rest)
  | text => (false, text)

/-- Reads an exponent; without a digit its letter is not part of the number. -/
def exponent (text : List Char) : Option Int × List Char :=
  match text with
  | [] => (none, text)
  | c :: rest =>
    if c = 'e' ∨ c = 'E' then
      let (negative, unsigned) := exponentSign rest
      match unsigned.takeWhile Char.isDigit with
      | [] => (none, text)
      | digits =>
        let size : Int := digitsValue digits
        (some (if negative then -size else size), unsigned.dropWhile Char.isDigit)
    else (none, text)

/-- The number with the given parts: a double if it has a fraction or an exponent. -/
def ofParts (negative : Bool) (whole places : List Char) (power : Option Int) : Json :=
  if places.isEmpty && power.isNone then
    let size : Int := digitsValue whole
    .int (if negative then -size else size)
  else
    .float (Decimal.toDouble negative
      ⟨digitsValue (whole ++ places), power.getD 0 - places.length⟩)

def unsigned? (negative : Bool) (text : List Char) : Option (Json × List Char) :=
  (wholePart? text).map fun (whole, afterWhole) =>
    let (places, afterPlaces) := fraction afterWhole
    let (power, rest) := exponent afterPlaces
    (ofParts negative whole places power, rest)

def number? : List Char → Option (Json × List Char)
  | '-' :: rest => unsigned? true rest
  | text => unsigned? false text

def words : List (List Char × Json) :=
  [("null".toList, .null), ("true".toList, .bool true), ("false".toList, .bool false),
   ("NaN".toList, .float 0x7FF8000000000000), ("Infinity".toList, .float 0x7FF0000000000000),
   ("-Infinity".toList, .float 0xFFF0000000000000)]

/-- Reads one of the words at the head of a text. -/
def word? (text : List Char) : Option (Json × List Char) :=
  words.findSome? fun (word, value) =>
    if word.isPrefixOf text then some (value, text.drop word.length) else none

def scalar? (text : List Char) : Option (Json × List Char) := (word? text).or (number? text)

/-! ## Lexemes -/

inductive Token where
  | openList
  | closeList
  | openObject
  | closeObject
  | comma
  | colon
  | scalar (value : Json)
  | string (text : Wide)
  | brokenString (fault : Fault)
  | junk

/-- A token and the text that begins with it. -/
structure Lexeme where
  token : Token
  text : List Char

def isSpace (c : Char) : Bool := c = ' ' ∨ c = '\t' ∨ c = '\n' ∨ c = '\r'

def mark? : Char → Option Token
  | '[' => some .openList
  | ']' => some .closeList
  | '\x7b' => some .openObject
  | '\x7d' => some .closeObject
  | ',' => some .comma
  | ':' => some .colon
  | _ => none

/-- The token at the head of a text and the text after it; nothing is read after a bad token. -/
def token (c : Char) (rest : List Char) : Token × List Char :=
  match mark? c with
  | some mark => (mark, rest)
  | none =>
    if c = '"' then
      match string? (c :: rest) rest with
      | .ok (text, after) => (.string text, after)
      | .error f => (.brokenString f, [])
    else
      match scalar? (c :: rest) with
      | some (value, after) => (.scalar value, after)
      | none => (.junk, [])

theorem length_string? {whole text after : List Char} {points : Wide}
    (h : string? whole text = .ok (points, after)) : after.length < text.length := by
  fun_induction string? whole text generalizing points with
  | case1 => cases h
  | case2 => cases h; simp
  | case3 => cases h
  | case4 rest point more hescape _ ih =>
    simp only [Except.map] at h
    split at h
    · cases h
    · next found hfound =>
      cases h
      have := ih hfound
      have := length_escape? hescape
      simp only [List.length_cons]
      omega
  | case5 => cases h
  | case6 c rest _ _ _ ih =>
    simp only [Except.map] at h
    split at h
    · cases h
    · next found hfound =>
      cases h
      have := ih hfound
      simp only [List.length_cons]
      omega

theorem length_dropWhile_le (p : Char → Bool) (text : List Char) :
    (text.dropWhile p).length ≤ text.length :=
  (List.dropWhile_sublist p).length_le

theorem length_wholePart? {text digits after : List Char}
    (h : wholePart? text = some (digits, after)) : after.length < text.length := by
  unfold wholePart? at h
  split at h
  · cases h
  · next c rest =>
    split at h
    · cases h; simp
    · split at h
      · cases h
        have := length_dropWhile_le Char.isDigit rest
        simp only [List.length_cons]
        omega
      · cases h

theorem length_fraction (text : List Char) : (fraction text).2.length ≤ text.length := by
  unfold fraction
  split
  · next rest =>
    split
    · simp
    · have := length_dropWhile_le Char.isDigit rest
      simp only [List.length_cons]
      omega
  · simp

theorem length_exponentSign (text : List Char) :
    (exponentSign text).2.length ≤ text.length := by
  unfold exponentSign
  split <;> simp

theorem length_exponent (text : List Char) : (exponent text).2.length ≤ text.length := by
  unfold exponent
  split
  · simp
  · next c rest =>
    split
    · simp only
      split
      · simp
      · have := length_dropWhile_le Char.isDigit (exponentSign rest).2
        have := length_exponentSign rest
        simp only [List.length_cons]
        omega
    · simp

theorem length_unsigned? {negative : Bool} {text after : List Char} {value : Json}
    (h : unsigned? negative text = some (value, after)) : after.length < text.length := by
  simp only [unsigned?, Option.map_eq_some_iff, Prod.mk.injEq] at h
  obtain ⟨⟨digits, afterWhole⟩, hwhole, _, rfl⟩ := h
  have := length_wholePart? hwhole
  have := length_fraction afterWhole
  have := length_exponent (fraction afterWhole).2
  simp only
  omega

theorem length_number? {text after : List Char} {value : Json}
    (h : number? text = some (value, after)) : after.length < text.length := by
  unfold number? at h
  split at h
  · have := length_unsigned? h
    simp only [List.length_cons]
    omega
  · exact length_unsigned? h

theorem words_pos : ∀ word ∈ words.map Prod.fst, 0 < word.length := by decide

theorem length_word? {text after : List Char} {value : Json}
    (h : word? text = some (value, after)) : after.length < text.length := by
  simp only [word?, List.findSome?_eq_some_iff] at h
  obtain ⟨_, ⟨word, _⟩, _, hwords, hread, _⟩ := h
  have hmem : word ∈ words.map Prod.fst := by
    rw [hwords]
    simp
  have hpos : 0 < word.length := words_pos word hmem
  simp only at hread
  split at hread
  · next hbegins =>
    cases hread
    have := (List.isPrefixOf_iff_prefix.mp hbegins).length_le
    rw [List.length_drop]
    omega
  · cases hread

theorem length_scalar? {text after : List Char} {value : Json}
    (h : scalar? text = some (value, after)) : after.length < text.length := by
  rcases Option.or_eq_some_iff.mp h with hword | ⟨_, hnumber⟩
  · exact length_word? hword
  · exact length_number? hnumber

theorem length_token (c : Char) (rest : List Char) :
    (token c rest).2.length ≤ rest.length := by
  unfold token
  split
  · simp
  · split
    · split
      · next hstring => exact Nat.le_of_lt (length_string? hstring)
      · simp
    · split
      · next hscalar => exact Nat.le_of_lt_succ (length_scalar? hscalar)
      · simp

/-- The lexemes of a text, up to the first bad one. -/
def lexemes (text : List Char) : List Lexeme :=
  match text with
  | [] => []
  | c :: rest =>
    if isSpace c then lexemes rest
    else ⟨(token c rest).1, text⟩ :: lexemes (token c rest).2
termination_by text.length
decreasing_by
  · simp
  · have := length_token c rest
    simp only [List.length_cons]
    omega

end Vernacular.Json
