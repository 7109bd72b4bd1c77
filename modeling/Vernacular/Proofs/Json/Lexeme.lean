import Mathlib.Data.List.Infix
import Vernacular.Json.Lexeme
import Vernacular.Proofs.Except

/-!
# What lexemes are

Every function of the lexer returns an end of the text that it was given, so a lexeme is a stretch
of the text.  The end that a fault carries is the place where it was found, and each kind of fault
is found at a character of its own.
-/

namespace Vernacular.Json

/-! ## What is left of a text -/

theorem suffix_codeUnit? {digits rest : List Char} {unit : Nat}
    (h : codeUnit? digits = some (unit, rest)) : rest <:+ digits := by
  unfold codeUnit? at h
  split at h
  · next a b c d more =>
    simp only [Option.bind_eq_bind, Option.bind_eq_some_iff, Option.some.injEq,
      Prod.mk.injEq] at h
    obtain ⟨-, -, -, -, -, -, -, -, -, rfl⟩ := h
    exact List.suffix_append [a, b, c, d] more
  · cases h

theorem suffix_lowHalf? {text rest : List Char} {unit : Nat}
    (h : lowHalf? text = some (unit, rest)) : rest <:+ text := by
  unfold lowHalf? at h
  split at h
  · next digits =>
    split at h
    · next hunit =>
      split at h
      · simp only [Option.some.injEq, Prod.mk.injEq] at h
        exact h.2 ▸ (suffix_codeUnit? hunit).trans (List.suffix_append ['\\', 'u'] digits)
      · cases h
    · cases h
  · cases h

theorem suffix_codeEscape? {digits rest : List Char} {point : CodePoint}
    (h : codeEscape? digits = some (point, rest)) : rest <:+ digits := by
  unfold codeEscape? at h
  split at h
  · next hunit =>
    have hrest := suffix_codeUnit? hunit
    split at h
    · split at h
      · next hlow =>
        obtain ⟨-, rfl⟩ := Prod.mk.inj (Option.some.inj h)
        exact (suffix_lowHalf? hlow).trans hrest
      · obtain ⟨-, rfl⟩ := Prod.mk.inj (Option.some.inj h)
        exact hrest
    · obtain ⟨-, rfl⟩ := Prod.mk.inj (Option.some.inj h)
      exact hrest
  · cases h

theorem suffix_escape? {whole text rest : List Char} {point : CodePoint}
    (h : escape? whole text = .ok (point, rest)) : rest <:+ text := by
  unfold escape? at h
  split at h
  · cases h
  · split at h
    · next hfound =>
      cases h
      exact (suffix_codeEscape? hfound).trans (List.suffix_cons ..)
    · cases h
  · split at h
    · cases h
      exact List.suffix_cons ..
    · cases h

theorem suffix_string? {whole text after : List Char} {points : Wide}
    (h : string? whole text = .ok (points, after)) : after <:+ text := by
  fun_induction string? whole text generalizing points with
  | case1 => cases h
  | case2 =>
    cases h
    exact List.suffix_cons ..
  | case3 => cases h
  | case4 rest d more hescape _ ih =>
    obtain ⟨found, hfound, heq⟩ := except_map_eq_ok_iff.mp h
    cases heq
    exact (ih hfound).trans ((suffix_escape? hescape).trans (List.suffix_cons ..))
  | case5 => cases h
  | case6 c rest _ _ _ ih =>
    obtain ⟨found, hfound, heq⟩ := except_map_eq_ok_iff.mp h
    cases heq
    exact (ih hfound).trans (List.suffix_cons ..)

theorem suffix_wholePart? {text digits after : List Char}
    (h : wholePart? text = some (digits, after)) : after <:+ text := by
  unfold wholePart? at h
  split at h
  · cases h
  · next c rest =>
    split at h
    · cases h
      exact List.suffix_cons ..
    · split at h
      · cases h
        exact (List.dropWhile_suffix _).trans (List.suffix_cons ..)
      · cases h

theorem suffix_fraction (text : List Char) : (fraction text).2 <:+ text := by
  unfold fraction
  split
  · split
    · exact List.suffix_rfl
    · exact (List.dropWhile_suffix _).trans (List.suffix_cons ..)
  · exact List.suffix_rfl

theorem suffix_exponentSign (text : List Char) : (exponentSign text).2 <:+ text := by
  unfold exponentSign
  split
  · exact List.suffix_cons ..
  · exact List.suffix_cons ..
  · exact List.suffix_rfl

theorem suffix_exponent (text : List Char) : (exponent text).2 <:+ text := by
  unfold exponent
  split
  · exact List.suffix_rfl
  · next c rest =>
    split
    · simp only
      split
      · exact List.suffix_rfl
      · exact (List.dropWhile_suffix _).trans
          ((suffix_exponentSign rest).trans (List.suffix_cons ..))
    · exact List.suffix_rfl

theorem suffix_unsigned? {negative : Bool} {text after : List Char} {value : Json}
    (h : unsigned? negative text = some (value, after)) : after <:+ text := by
  simp only [unsigned?, Option.map_eq_some_iff, Prod.mk.injEq] at h
  obtain ⟨⟨digits, afterWhole⟩, hwhole, -, rfl⟩ := h
  exact (suffix_exponent _).trans ((suffix_fraction afterWhole).trans (suffix_wholePart? hwhole))

theorem suffix_number? {text after : List Char} {value : Json}
    (h : number? text = some (value, after)) : after <:+ text := by
  unfold number? at h
  split at h
  · exact (suffix_unsigned? h).trans (List.suffix_cons ..)
  · exact suffix_unsigned? h

/-! ## Scalars -/

def isScalar : Json → Bool
  | .list _ => false
  | .object _ => false
  | _ => true

theorem isScalar_words : ∀ word ∈ words, isScalar word.2 = true := by decide

theorem isScalar_ofParts (negative : Bool) (whole places : List Char) (power : Option Int) :
    isScalar (ofParts negative whole places power) = true := by
  unfold ofParts
  split <;> rfl

theorem isScalar_unsigned? {negative : Bool} {text after : List Char} {value : Json}
    (h : unsigned? negative text = some (value, after)) : isScalar value = true := by
  simp only [unsigned?, Option.map_eq_some_iff, Prod.mk.injEq] at h
  obtain ⟨-, -, rfl, -⟩ := h
  exact isScalar_ofParts ..

theorem isScalar_number? {text after : List Char} {value : Json}
    (h : number? text = some (value, after)) : isScalar value = true := by
  unfold number? at h
  split at h
  · exact isScalar_unsigned? h
  · exact isScalar_unsigned? h

theorem word?_eq_some {text after : List Char} {value : Json}
    (h : word? text = some (value, after)) : after <:+ text ∧ isScalar value = true := by
  simp only [word?, List.findSome?_eq_some_iff] at h
  obtain ⟨before, ⟨word, found⟩, behind, hwords, hread, -⟩ := h
  have hmem : (word, found) ∈ words := by simp [hwords]
  simp only at hread
  split at hread
  · cases hread
    exact ⟨List.drop_suffix .., isScalar_words _ hmem⟩
  · cases hread

theorem scalar?_eq_some {text after : List Char} {value : Json}
    (h : scalar? text = some (value, after)) : after <:+ text ∧ isScalar value = true := by
  rcases Option.or_eq_some_iff.mp h with hword | ⟨-, hnumber⟩
  · exact word?_eq_some hword
  · exact ⟨suffix_number? hnumber, isScalar_number? hnumber⟩

/-! ## Faults -/

/-- What stands where a problem is reported.  The last group says what was expected there, and
found something else or the end of the text. -/
def Problem.Shows : Problem → List Char → Prop
  | byteOrderMark, rest => rest.head? = some '\ufeff'
  | unterminatedString, rest => rest.head? = some '"'
  | controlCharacter, rest => ∃ c ∈ rest.head?, c.toNat < 0x20
  | invalidEscape, rest => rest.head? = some '\\'
  | invalidCodeEscape, rest => rest.head? = some 'u'
  | commaInList, rest => rest.head? = some ',' ∧ (rest.tail.dropWhile isSpace).head? = some ']'
  | commaInObject, rest =>
    rest.head? = some ',' ∧ (rest.tail.dropWhile isSpace).head? = some '\x7d'
  | extraData, rest => ∃ c ∈ rest.head?, isSpace c = false
  | _, rest => ∀ c ∈ rest.head?, isSpace c = false

structure Fault.FoundIn (fault : Fault) (text : List Char) : Prop where
  suffix : fault.rest <:+ text
  shows : fault.problem.Shows fault.rest

theorem Fault.FoundIn.trans {fault : Fault} {text whole : List Char} (h : fault.FoundIn text)
    (htext : text <:+ whole) : fault.FoundIn whole :=
  ⟨h.suffix.trans htext, h.shows⟩

theorem escape?_eq_error {whole text : List Char} {fault : Fault}
    (h : escape? whole text = .error fault) :
    fault = ⟨.unterminatedString, whole⟩ ∨ fault.FoundIn ('\\' :: text) := by
  unfold escape? at h
  split at h
  · cases h
    exact .inl rfl
  · split at h
    · cases h
    · cases h
      exact .inr ⟨List.suffix_cons .., rfl⟩
  · split at h
    · cases h
    · cases h
      exact .inr ⟨List.suffix_rfl, rfl⟩

theorem string?_eq_error {whole text : List Char} {fault : Fault}
    (h : string? whole text = .error fault) :
    fault = ⟨.unterminatedString, whole⟩ ∨ fault.FoundIn text := by
  fun_induction string? whole text with
  | case1 =>
    cases h
    exact .inl rfl
  | case2 => cases h
  | case3 rest _ hescape =>
    cases h
    exact escape?_eq_error hescape
  | case4 rest d more hescape _ ih =>
    have hmore := (suffix_escape? hescape).trans (List.suffix_cons '\\' rest)
    exact (ih (except_map_eq_error_iff.mp h)).imp_right (·.trans hmore)
  | case5 c rest _ _ hcontrol =>
    cases h
    exact .inr ⟨List.suffix_rfl, c, rfl, hcontrol⟩
  | case6 c rest _ _ _ ih =>
    exact (ih (except_map_eq_error_iff.mp h)).imp_right (·.trans (List.suffix_cons ..))

/-! ## Lexemes -/

/-- A scalar takes at least one character, so what is left comes after the first. -/
theorem suffix_tail_of_scalar? {c : Char} {rest after : List Char} {value : Json}
    (h : scalar? (c :: rest) = some (value, after)) : after <:+ rest := by
  have hlength := length_scalar? h
  rcases List.suffix_cons_iff.mp (scalar?_eq_some h).1 with rfl | hafter
  · simp at hlength
  · exact hafter

theorem suffix_token (c : Char) (rest : List Char) : (token c rest).2 <:+ rest := by
  unfold token
  split
  · exact List.suffix_rfl
  · split
    · split
      · next hstring => exact suffix_string? hstring
      · exact List.nil_suffix
    · split
      · next hscalar => exact suffix_tail_of_scalar? hscalar
      · exact List.nil_suffix

theorem mark?_plain {c : Char} {mark : Token} (h : mark? c = some mark) :
    (∀ value, mark ≠ .scalar value) ∧ ∀ fault, mark ≠ .brokenString fault := by
  unfold mark? at h
  split at h <;> cases h <;> simp

theorem isScalar_of_token {c : Char} {rest : List Char} {value : Json}
    (h : (token c rest).1 = .scalar value) : isScalar value = true := by
  unfold token at h
  split at h
  · next hmark => exact absurd h ((mark?_plain hmark).1 value)
  · split at h
    · split at h <;> cases h
    · split at h
      · next hscalar =>
        cases h
        exact (scalar?_eq_some hscalar).2
      · cases h

theorem foundIn_of_token {c : Char} {rest : List Char} {fault : Fault}
    (h : (token c rest).1 = .brokenString fault) : fault.FoundIn (c :: rest) := by
  unfold token at h
  split at h
  · next hmark => exact absurd h ((mark?_plain hmark).2 fault)
  · split at h
    · next hquote =>
      split at h
      · cases h
      · next hstring =>
        cases h
        rcases string?_eq_error hstring with rfl | hfound
        · exact ⟨List.suffix_rfl, by simp [Problem.Shows, hquote]⟩
        · exact hfound.trans (List.suffix_cons ..)
    · split at h <;> cases h

theorem eq_of_token_comma {c : Char} {rest : List Char} (h : (token c rest).1 = .comma) :
    c = ',' := by
  unfold token at h
  split at h
  · next hmark =>
    subst h
    unfold mark? at hmark
    split at hmark <;> cases hmark
    rfl
  · split at h <;> split at h <;> cases h

/-- What a lexeme of a text is: it begins at a character that is no space, its value is no list or
object, if it is a broken string the fault lies in the text, and a comma is spelled by itself. -/
structure Lexeme.StandsIn (x : Lexeme) (text : List Char) : Prop where
  suffix : x.text <:+ text
  starts : ∃ c rest, x.text = c :: rest ∧ isSpace c = false
  scalar : ∀ value, x.token = .scalar value → isScalar value = true
  broken : ∀ fault, x.token = .brokenString fault → fault.FoundIn text
  comma : x.token = .comma → x.text.head? = some ','

theorem Lexeme.StandsIn.trans {x : Lexeme} {text whole : List Char} (h : x.StandsIn text)
    (htext : text <:+ whole) : x.StandsIn whole where
  suffix := h.suffix.trans htext
  starts := h.starts
  scalar := h.scalar
  broken := fun fault hfault => (h.broken fault hfault).trans htext
  comma := h.comma

theorem standsIn_of_mem_lexemes {text : List Char} {x : Lexeme} (h : x ∈ lexemes text) :
    x.StandsIn text := by
  fun_induction lexemes text with
  | case1 => cases h
  | case2 c rest _ ih => exact (ih h).trans (List.suffix_cons ..)
  | case3 c rest hspace ih =>
    rcases List.mem_cons.mp h with rfl | hlater
    · exact ⟨List.suffix_rfl, ⟨c, rest, rfl, by simpa using hspace⟩, fun _ => isScalar_of_token,
        fun _ => foundIn_of_token, fun hcomma => congrArg some (eq_of_token_comma hcomma)⟩
    · exact (ih hlater).trans ((suffix_token c rest).trans (List.suffix_cons ..))

end Vernacular.Json
