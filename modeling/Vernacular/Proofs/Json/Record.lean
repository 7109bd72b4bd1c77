import Mathlib.Data.List.Basic
import Vernacular.Json.Flat
import Vernacular.Proofs.Dictionary
import Vernacular.Proofs.Json.Limits
import Vernacular.Proofs.Text.Wide

/-!
# Reading records that were printed

Whatever texts and numbers a flat record holds, reading what was printed gives its members back, in
their order.  Texts are escaped character by character and each escape is read alone, so all lemmas
speak of a printed piece with more text behind it.
-/

namespace Vernacular.Json

/-! ## Texts -/

theorem hexValue?_digitChar : ∀ n < 16, hexValue? (Nat.digitChar n) = some n := by decide

theorem plainEscape?_of_shortEscape? {c letter : Char} (h : shortEscape? c = some letter) :
    plainEscape? letter = some c ∧ letter ≠ 'u' := by
  unfold shortEscape? at h
  split at h <;> cases h <;> decide

theorem escape?_of_shortEscape? {c letter : Char} (h : shortEscape? c = some letter)
    (whole rest : List Char) : escape? whole (letter :: rest) = .ok (.char c, rest) := by
  obtain ⟨hplain, hletter⟩ := plainEscape?_of_shortEscape? h
  rw [escape?]
  · simp [hplain]
  · exact hletter

theorem escape?_control {c : Char} (hc : c.toNat < 0x20) (whole : List Char) (next : Char)
    (rest : List Char) :
    escape? whole ('u' :: '0' :: '0' :: Nat.digitChar (c.toNat / 16) ::
      Nat.digitChar (c.toNat % 16) :: next :: rest) = .ok (.char c, next :: rest) := by
  have hzero : hexValue? '0' = some 0 := rfl
  have hhigh := hexValue?_digitChar (c.toNat / 16) (by omega)
  have hlow := hexValue?_digitChar (c.toNat % 16) (by omega)
  have hvalue : c.toNat / 16 * 16 + c.toNat % 16 = c.toNat := by omega
  have hfirst : ¬(0xD800 ≤ c.toNat ∧ c.toNat < 0xDC00) := by omega
  have hunit : ofUnit c.toNat = .char c := by
    have hhalf : ¬(0xD800 ≤ c.toNat ∧ c.toNat < 0xE000) := by omega
    rw [ofUnit, dif_neg hhalf, Char.ofNat_toNat]
  simp [escape?, codeEscape?, codeUnit?, hzero, hhigh, hlow, hvalue, hunit, hfirst]

theorem string?_escape {whole rest after : List Char} {point : CodePoint}
    (h : escape? whole rest = .ok (point, after)) :
    string? whole ('\\' :: rest) =
      (string? whole after).map fun found => (point :: found.1, found.2) := by
  rw [string?, if_neg (by decide), if_pos rfl]
  split
  · next herror =>
    rw [h] at herror
    cases herror
  · next hfound =>
    rw [h] at hfound
    cases hfound
    rfl

/-- An escape by code needs something behind it, and a closing mark is always there. -/
theorem string?_printChar (whole : List Char) (c next : Char) (rest : List Char) :
    string? whole (printChar c ++ next :: rest) =
      (string? whole (next :: rest)).map fun found => (.char c :: found.1, found.2) := by
  unfold printChar
  split
  · next letter hshort => exact string?_escape (escape?_of_shortEscape? hshort whole _)
  · next hshort =>
    split
    · next hcontrol => exact string?_escape (escape?_control hcontrol whole next rest)
    · next hcontrol =>
      have hquote : c ≠ '"' := by
        rintro rfl
        cases hshort
      have hbackslash : c ≠ '\\' := by
        rintro rfl
        cases hshort
      rw [List.singleton_append, string?]
      simp [hquote, hbackslash, hcontrol]

theorem string?_printed (whole text rest : List Char) :
    string? whole (text.flatMap printChar ++ '"' :: rest) = .ok (text.map .char, rest) := by
  induction text with
  | nil => simp [string?]
  | cons c text ih =>
    obtain ⟨next, behind, hbehind⟩ :=
      List.exists_cons_of_ne_nil (l := text.flatMap printChar ++ '"' :: rest) (by simp)
    rw [List.flatMap_cons, List.append_assoc, hbehind, string?_printChar, ← hbehind, ih]
    rfl

/-! ## Numbers -/

theorem digitsValue_toDigits (n : Nat) : digitsValue (Nat.toDigits 10 n) = n :=
  Nat.ofDigitChars_ten_toDigits

theorem isDigit_of_mem_toDigits {n : Nat} : ∀ c ∈ Nat.toDigits 10 n, c.isDigit = true :=
  fun _ hc => Nat.isDigit_of_mem_toDigits (by decide) (by decide) hc

theorem exists_toDigits_eq_cons (n : Nat) :
    ∃ c digits, Nat.toDigits 10 n = c :: digits ∧ c.isDigit = true ∧
      ∀ d ∈ digits, d.isDigit = true := by
  obtain ⟨c, digits, hsplit⟩ := List.exists_cons_of_ne_nil (Nat.toDigits_ne_nil (n := n) (b := 10))
  exact ⟨c, digits, hsplit, List.forall_mem_cons.mp (hsplit ▸ isDigit_of_mem_toDigits)⟩

theorem ne_of_isDigit {c d : Char} (hc : c.isDigit = true) (hd : d.isDigit = false) : c ≠ d := by
  rintro rfl
  rw [hc] at hd
  cases hd

theorem head?_toDigits_ne_zero {n : Nat} (h : 0 < n) : (Nat.toDigits 10 n).head? ≠ some '0' := by
  induction n using Nat.base_induction 10 (by decide) with
  | single m hm => simpa [Nat.toDigits_of_lt_base hm] using Nat.pos_iff_ne_zero.mp h
  | digit m k hk hm ih =>
    rw [← Nat.toDigits_append_toDigits (by decide) hm hk,
      List.head?_append_of_ne_nil _ Nat.toDigits_ne_nil]
    exact ih hm

/-- What may stand behind a number so that the number ends there. -/
def EndsNumber (rest : List Char) : Prop :=
  ∀ c ∈ rest.head?, c.isDigit = false ∧ c ≠ '.' ∧ c ≠ 'e' ∧ c ≠ 'E'

theorem endsNumber_nil : EndsNumber [] := by
  simp [EndsNumber]

theorem wholePart?_toDigits (n : Nat) {rest : List Char} (hrest : EndsNumber rest) :
    wholePart? (Nat.toDigits 10 n ++ rest) = some (Nat.toDigits 10 n, rest) := by
  rcases Nat.eq_zero_or_pos n with rfl | hpos
  · rfl
  · obtain ⟨c, digits, hsplit, hfirst, hdigits⟩ := exists_toDigits_eq_cons n
    have hzero : c ≠ '0' := by
      rintro rfl
      exact head?_toDigits_ne_zero hpos (by rw [hsplit]; rfl)
    have hstop : rest.takeWhile Char.isDigit = [] ∧ rest.dropWhile Char.isDigit = rest := by
      cases rest with
      | nil => simp
      | cons d rest => simp [(hrest d rfl).1]
    rw [hsplit, List.cons_append, wholePart?, if_neg hzero, if_pos hfirst,
      List.takeWhile_append_of_pos hdigits, List.dropWhile_append_of_pos hdigits, hstop.1,
      hstop.2, List.append_nil]

theorem fraction_of_endsNumber {rest : List Char} (hrest : EndsNumber rest) :
    fraction rest = ([], rest) := by
  unfold fraction
  split
  · exact absurd rfl (hrest '.' rfl).2.1
  · rfl

theorem exponent_of_endsNumber {rest : List Char} (hrest : EndsNumber rest) :
    exponent rest = (none, rest) := by
  cases rest with
  | nil => rfl
  | cons c rest =>
    obtain ⟨-, -, hsmall, hlarge⟩ := hrest c rfl
    simp [exponent, hsmall, hlarge]

theorem unsigned?_toDigits (n : Nat) {rest : List Char} (hrest : EndsNumber rest) :
    unsigned? false (Nat.toDigits 10 n ++ rest) = some (.int n, rest) := by
  simp [unsigned?, wholePart?_toDigits n hrest, fraction_of_endsNumber hrest,
    exponent_of_endsNumber hrest, ofParts, digitsValue_toDigits]

theorem word?_of_isDigit {c : Char} (hc : c.isDigit = true) (rest : List Char) :
    word? (c :: rest) = none := by
  have hheads : ∀ word ∈ words.map Prod.fst, word.head?.map Char.isDigit = some false := by decide
  rw [word?, List.findSome?_eq_none_iff]
  rintro ⟨word, value⟩ hword
  obtain ⟨d, hhead, hd⟩ := Option.map_eq_some_iff.mp (hheads word (List.mem_map_of_mem hword))
  obtain ⟨letters, rfl⟩ := List.head?_eq_some_iff.mp hhead
  simp [List.isPrefixOf, (ne_of_isDigit hc hd).symm]

theorem scalar?_toDigits (n : Nat) {rest : List Char} (hrest : EndsNumber rest) :
    scalar? (Nat.toDigits 10 n ++ rest) = some (.int n, rest) := by
  have hnumber := unsigned?_toDigits n hrest
  obtain ⟨c, digits, hsplit, hfirst, -⟩ := exists_toDigits_eq_cons n
  rw [hsplit, List.cons_append] at hnumber ⊢
  rw [scalar?, word?_of_isDigit hfirst, Option.none_or, number?]
  · exact hnumber
  · exact fun _ heq => ne_of_isDigit hfirst (by decide) (List.cons.inj heq).1

/-! ## Lexemes -/

theorem lexemes_mark {c : Char} {mark : Token} (h : mark? c = some mark) (rest : List Char) :
    lexemes (c :: rest) = ⟨mark, c :: rest⟩ :: lexemes rest := by
  have hspace : isSpace c = false := by
    unfold mark? at h
    split at h <;> cases h <;> rfl
  have htoken : token c rest = (mark, rest) := by simp [token, h]
  rw [lexemes, hspace, htoken]
  rfl

theorem mark?_of_isDigit {c : Char} (hc : c.isDigit = true) : mark? c = none := by
  unfold mark?
  split <;> simp_all

theorem isSpace_of_isDigit {c : Char} (hc : c.isDigit = true) : isSpace c = false := by
  have hne : ∀ d, d.isDigit = false → c ≠ d := fun _ => ne_of_isDigit hc
  simp [isSpace, hne]

theorem lexemes_nil : lexemes [] = [] := by
  rw [lexemes]

theorem lexemes_blank (rest : List Char) : lexemes (' ' :: rest) = lexemes rest := by
  rw [lexemes]
  rfl

theorem lexemes_printText (text : String) (rest : List Char) :
    lexemes (printText text ++ rest) =
      ⟨.string text, printText text ++ rest⟩ :: lexemes rest := by
  have hread : ∀ whole, string? whole (text.toList.flatMap printChar ++ ['"'] ++ rest) =
      .ok (Wide.ofString text, rest) := by
    intro whole
    rw [List.append_assoc]
    exact string?_printed whole text.toList rest
  have htoken : token '"' (text.toList.flatMap printChar ++ ['"'] ++ rest) =
      (.string text, rest) := by
    have hmark : mark? '"' = none := rfl
    simp only [token, hmark, if_true, hread]
  rw [printText, List.cons_append, List.cons_append, lexemes, htoken]
  rfl

def Scalar.token : Scalar → Token
  | text value => .string value
  | number value => .scalar (.int value)

theorem lexemes_print (x : Scalar) {rest : List Char} (hrest : EndsNumber rest) :
    lexemes (x.print ++ rest) = ⟨x.token, x.print ++ rest⟩ :: lexemes rest := by
  cases x with
  | text value => exact lexemes_printText value rest
  | number value =>
    have hread := scalar?_toDigits value hrest
    obtain ⟨c, digits, hsplit, hfirst, -⟩ := exists_toDigits_eq_cons value
    rw [hsplit, List.cons_append] at hread
    have hquote : c ≠ '"' := ne_of_isDigit hfirst (by decide)
    have htoken : Json.token c (digits ++ rest) = (.scalar (.int value), rest) := by
      simp only [Json.token, mark?_of_isDigit hfirst, if_neg hquote, hread]
    rw [Scalar.print, hsplit, List.cons_append, lexemes, htoken, isSpace_of_isDigit hfirst]
    rfl

/-! ## Texts that begin with a number -/

theorem lexemes_toDigits (n : Nat) {rest : List Char} (hrest : EndsNumber rest) :
    lexemes (Nat.toDigits 10 n ++ rest) =
      ⟨.scalar (.int n), Nat.toDigits 10 n ++ rest⟩ :: lexemes rest :=
  lexemes_print (.number n) hrest

theorem head?_toDigits_append_ne (n : Nat) (rest : List Char) {c : Char}
    (hc : c.isDigit = false) : (Nat.toDigits 10 n ++ rest).head? ≠ some c := by
  obtain ⟨first, digits, hsplit, hfirst, -⟩ := exists_toDigits_eq_cons n
  rw [hsplit, List.cons_append, List.head?_cons, ne_eq, Option.some.injEq]
  exact ne_of_isDigit hfirst hc

theorem excess?_int {decoder : Decoder} {most n : Nat} (hmost : decoder.digits = some most)
    (hlong : most < (Nat.toDigits 10 n).length) (depth : Nat) :
    decoder.excess? depth (.scalar (.int n)) =
      some (.digits most (Nat.toDigits 10 n).length) := by
  simp [Decoder.excess?, hmost, Option.filter, hlong]

/-- A text that begins with a number that is too long goes beyond the limits. -/
theorem exceeds_toDigits {decoder : Decoder} {most n : Nat} (hmost : decoder.digits = some most)
    (hlong : most < (Nat.toDigits 10 n).length) {rest : List Char} (hrest : EndsNumber rest) :
    Exceeds decoder (Nat.toDigits 10 n ++ rest) := by
  refine ⟨head?_toDigits_append_ne n rest (by decide), [], _, _, Reader.start,
    lexemes_toDigits n hrest, rfl, ?_⟩
  change decoder.excess? 0 (.scalar (.int n)) ≠ .none
  rw [excess?_int hmost hlong]
  exact nofun

/-- Without limits, what comes after a number makes the text no JSON. -/
theorem read_toDigits_append (decoder : Decoder) {n : Nat} {rest : List Char}
    (hrest : EndsNumber rest) {x : Lexeme} {xs : List Lexeme} (hmore : lexemes rest = x :: xs) :
    read decoder.unlimited (Nat.toDigits 10 n ++ rest) = .error (.fault ⟨.extraData, x.text⟩) := by
  rw [read_of_no_mark (head?_toDigits_append_ne n rest (by decide)), lexemes_toDigits n hrest,
    hmore]
  rfl

theorem lt_length_toDigits_pow {k : Nat} (hk : 0 < k) : k < (Nat.toDigits 10 (10 ^ k)).length := by
  rw [← Nat.not_le, Nat.length_toDigits_le_iff (by decide) hk]
  exact Nat.lt_irrefl _

/-- A number of 4301 digits. -/
def longNumber : Nat := 10 ^ 4300

theorem length_longNumber : 4300 < (Nat.toDigits 10 longNumber).length :=
  lt_length_toDigits_pow (by decide)

/-! ## Records -/

def ofScalars (members : List (String × Scalar)) : List (Wide × Json) :=
  members.map fun member => (Wide.ofString member.1, member.2.toJson)

theorem ofScalars_append (members more : List (String × Scalar)) :
    ofScalars (members ++ more) = ofScalars members ++ ofScalars more :=
  List.map_append

theorem names_ofScalars (members : List (String × Scalar)) :
    (ofScalars members).map Prod.fst = (members.map Prod.fst).map Wide.ofString := by
  simp [ofScalars]

/-- The decoder lets an object pass that holds texts and whole numbers. -/
structure Decoder.Allow (decoder : Decoder) (members : List (Wide × Json)) : Prop where
  depth : decoder.depth ≠ some 0
  digits : ∀ most ∈ decoder.digits, ∀ member ∈ members, ∀ n, member.2 = .int n →
    (Nat.toDigits 10 n.natAbs).length ≤ most

theorem Decoder.allow_unlimited (decoder : Decoder) (members : List (Wide × Json)) :
    decoder.unlimited.Allow members :=
  ⟨nofun, nofun⟩

theorem Decoder.Allow.excess?_scalar {decoder : Decoder} {members : List (String × Scalar)}
    (h : decoder.Allow (ofScalars members)) {member : String × Scalar} (hmember : member ∈ members)
    (depth : Nat) : decoder.excess? depth member.2.token = .none := by
  obtain ⟨name, x⟩ := member
  cases x with
  | text value => rfl
  | number value =>
    have hshort : decoder.digits.filter (· < (Nat.toDigits 10 value).length) = .none := by
      rw [Option.filter_eq_none_iff]
      intro most hmost
      have hle := h.digits most hmost _ (List.mem_map_of_mem hmember) value rfl
      simpa using hle
    simp [Decoder.excess?, Scalar.token, hshort]

namespace Reader

variable {decoder : Decoder}

theorem run_printMember (frames : List Frame) (before : List (Wide × Json)) (mayEnd : Bool)
    {member : String × Scalar}
    (hvalue : ∀ depth, decoder.excess? depth member.2.token = none) {rest : List Char}
    (hrest : EndsNumber rest) :
    run decoder ⟨.name before mayEnd, frames⟩ (lexemes (printMember member ++ rest)) =
      run decoder ⟨.after member.2.toJson, .object before member.1 :: frames⟩ (lexemes rest) := by
  obtain ⟨name, x⟩ := member
  have hcolon := lexemes_mark (c := ':') rfl (' ' :: (x.print ++ rest))
  have hlexemes : lexemes (printMember (name, x) ++ rest) =
      ⟨.string name, printMember (name, x) ++ rest⟩ :: ⟨.colon, ':' :: ' ' :: (x.print ++ rest)⟩ ::
        ⟨x.token, x.print ++ rest⟩ :: lexemes rest := by
    rw [printMember, List.append_assoc, lexemes_printText, List.cons_append, List.cons_append,
      hcolon, lexemes_blank, lexemes_print x hrest]
  have hread : stepWithin decoder ⟨.value, .object before name :: frames⟩
      ⟨x.token, x.print ++ rest⟩ = .ok ⟨.after x.toJson, .object before name :: frames⟩ := by
    rw [stepWithin_eq_ok_iff]
    refine ⟨hvalue _, ?_⟩
    cases x <;> rfl
  have hthird : ∀ xs, run decoder ⟨.value, .object before name :: frames⟩
      (⟨x.token, x.print ++ rest⟩ :: xs) =
        run decoder ⟨.after x.toJson, .object before name :: frames⟩ xs := by
    intro xs
    rw [run, hread]
    rfl
  rw [hlexemes]
  exact hthird _

/-- Members begin with the name of the first one, so no comma before them is blamed. -/
theorem not_blames_printMembers {members : List (String × Scalar)} (hsome : members ≠ [])
    (rest : List Char) :
    decoder.blames (',' :: ' ' :: (printMembers members ++ rest)) '\x7d' = false := by
  have hquote : ∃ more, printMembers members = '"' :: more := by
    fun_cases printMembers members with
    | case1 => exact absurd rfl hsome
    | case2 => exact ⟨_, rfl⟩
    | case3 => exact ⟨_, rfl⟩
  obtain ⟨more, hmore⟩ := hquote
  simp [Decoder.blames, hmore, isSpace]

theorem run_printMembers {members : List (String × Scalar)} (hsome : members ≠ [])
    (hvalues : ∀ member ∈ members, ∀ depth, decoder.excess? depth member.2.token = none)
    (before : List (Wide × Json)) (mayEnd : Bool) :
    run decoder ⟨.name before mayEnd, []⟩ (lexemes (printMembers members ++ ['\x7d'])) =
      .ok ⟨.after (ofMembers (before.reverse ++ ofScalars members)), []⟩ := by
  -- What has been read so far grows at the front of `before`, so it is left open in the induction.
  fun_induction printMembers members generalizing before mayEnd with
  | case1 => exact absurd rfl hsome
  | case2 member =>
    rw [run_printMember [] before mayEnd (hvalues member List.mem_cons_self)
      (by simp [EndsNumber]), lexemes_mark rfl, lexemes_nil]
    simp [run, stepWithin, excess?, depth?, step, readAfter, Except.bind, Except.mapError,
      ofScalars]
  | case3 member rest hrest ih =>
    have hcomma : EndsNumber (',' :: ' ' :: (printMembers rest ++ ['\x7d'])) := by
      simp [EndsNumber]
    obtain ⟨hfirst, hlater⟩ := List.forall_mem_cons.mp hvalues
    rw [List.append_assoc, List.cons_append, List.cons_append,
      run_printMember [] before mayEnd hfirst hcomma, lexemes_mark rfl, lexemes_blank]
    simp [run, stepWithin, excess?, depth?, step, readAfter, not_blames_printMembers hrest,
      Except.bind, Except.mapError, ih hrest hlater, ofScalars]

end Reader

theorem run_printFlat {decoder : Decoder} {members : List (String × Scalar)}
    (hallow : decoder.Allow (ofScalars members)) :
    Reader.start.run decoder (lexemes (printFlat members)) =
      .ok ⟨.after (ofMembers (ofScalars members)), []⟩ := by
  have hopen : ∀ text, Reader.start.stepWithin decoder ⟨.openObject, text⟩ =
      .ok ⟨.name [] true, []⟩ := by
    intro text
    refine Reader.stepWithin_eq_ok_iff.mpr ⟨?_, rfl⟩
    have hdepth : ∀ most ∈ decoder.depth, most ≠ 0 := fun most hmost hzero =>
      hallow.depth (hzero ▸ hmost)
    simpa [Reader.excess?, Reader.depth?, Reader.start, Decoder.excess?] using hdepth
  rw [printFlat, List.cons_append, lexemes_mark rfl, Reader.run, hopen]
  cases members with
  | nil =>
    rw [printMembers, List.nil_append, lexemes_mark rfl, lexemes_nil]
    rfl
  | cons member rest =>
    exact Reader.run_printMembers (List.cons_ne_nil member rest)
      (fun _ hmember => hallow.excess?_scalar hmember) [] true

theorem read_printFlat {decoder : Decoder} {members : List (String × Scalar)}
    (hnames : (members.map Prod.fst).Nodup) (hallow : decoder.Allow (ofScalars members)) :
    read decoder (printFlat members) = .ok (.object (ofScalars members)) := by
  have hkept : ofMembers (ofScalars members) = .object (ofScalars members) := by
    have hwide : ((ofScalars members).map Prod.fst).Nodup := by
      rw [names_ofScalars]
      exact hnames.map Wide.ofString_injective
    rw [ofMembers, Dictionary.toList_ofList hwide]
  have hmark : (printFlat members).head? ≠ some '\ufeff' := by
    simp [printFlat]
  rw [read_of_no_mark hmark, run_printFlat hallow, hkept]
  rfl

/-! ## Lines -/

/-- A text without control characters, so it stands on one line. -/
def Unbroken (text : List Char) : Prop := ∀ c ∈ text, 0x20 ≤ c.toNat

@[simp] theorem unbroken_nil : Unbroken [] := List.forall_mem_nil _

@[simp] theorem unbroken_append {text more : List Char} :
    Unbroken (text ++ more) ↔ Unbroken text ∧ Unbroken more :=
  List.forall_mem_append

@[simp] theorem unbroken_cons {c : Char} {text : List Char} :
    Unbroken (c :: text) ↔ 0x20 ≤ c.toNat ∧ Unbroken text :=
  List.forall_mem_cons

theorem Unbroken.notMem_newline {text : List Char} (h : Unbroken text) : '\n' ∉ text :=
  fun hmem => absurd (h '\n' hmem) (by decide)

theorem unbroken_printChar (c : Char) : Unbroken (printChar c) := by
  have hdigit : ∀ n < 16, 0x20 ≤ (Nat.digitChar n).toNat := by decide
  unfold printChar
  split
  · next letter hshort =>
    have hletter : 0x20 ≤ letter.toNat := by
      unfold shortEscape? at hshort
      split at hshort <;> cases hshort <;> decide
    simp [hletter]
  · split
    · next hcontrol =>
      simp [hdigit (c.toNat / 16) (by omega), hdigit (c.toNat % 16) (by omega)]
    · next hplain => simpa using hplain

theorem unbroken_printText (text : String) : Unbroken (printText text) := by
  have hchars : Unbroken (text.toList.flatMap printChar) := by
    intro d hd
    obtain ⟨c, -, hc⟩ := List.mem_flatMap.mp hd
    exact unbroken_printChar c d hc
  simp [printText, hchars]

theorem unbroken_print (x : Scalar) : Unbroken x.print := by
  cases x with
  | text value => exact unbroken_printText value
  | number value =>
    intro c hc
    exact Nat.le_trans (by decide) (Char.isDigit_iff_toNat.mp (isDigit_of_mem_toDigits c hc)).1

theorem unbroken_printFlat (members : List (String × Scalar)) : Unbroken (printFlat members) := by
  have hmember : ∀ member : String × Scalar, Unbroken (printMember member) := by
    intro member
    simp [printMember, unbroken_printText, unbroken_print]
  have hmembers : Unbroken (printMembers members) := by
    fun_induction printMembers members with
    | case1 => exact unbroken_nil
    | case2 member => exact hmember member
    | case3 member rest hrest ih => simp [hmember, ih]
  simp [printFlat, hmembers]

end Vernacular.Json
