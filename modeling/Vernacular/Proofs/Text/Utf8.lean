import Mathlib.Tactic.SplitIfs
import Vernacular.Text.Utf8

/-!
# Decoding what was encoded

The octets that decode are those that a text is encoded as, and they decode to that text.  Going
backward the decoder carries the invariant that the octets of a sequence that has begun, continued
by octets from the ranges that it asks for, encode one character.
-/

namespace Vernacular.Utf8

variable {octets read : List UInt8} {text : List Char} {state : Option Partial} {position : Nat}

/-! ## Characters and their octets -/

theorem eq_ofNat {octet : UInt8} {n : Nat} (h : octet.toNat = n) : octet = UInt8.ofNat n := by
  rw [← h, UInt8.ofNat_toNat]

theorem toNat_octet {n : Nat} (h : n < 256) : (UInt8.ofNat n).toNat = n :=
  UInt8.toNat_ofNat_of_lt' h

theorem toNat_val_ofNat {value : Nat} (h : value.isValidChar) :
    (Char.ofNat value).val.toNat = value := by
  rw [Char.ofNat, dif_pos h]
  rfl

theorem utf8EncodeChar_ofNat {value : Nat} (h : value.isValidChar) :
    String.utf8EncodeChar (Char.ofNat value) =
      if value ≤ 0x7F then [UInt8.ofNat value]
      else if value ≤ 0x7FF then
        [UInt8.ofNat (value / 64 % 32 + 0xC0), UInt8.ofNat (value % 64 + 0x80)]
      else if value ≤ 0xFFFF then
        [UInt8.ofNat (value / 4096 % 16 + 0xE0), UInt8.ofNat (value / 64 % 64 + 0x80),
          UInt8.ofNat (value % 64 + 0x80)]
      else
        [UInt8.ofNat (value / 262144 % 8 + 0xF0), UInt8.ofNat (value / 4096 % 64 + 0x80),
          UInt8.ofNat (value / 64 % 64 + 0x80), UInt8.ofNat (value % 64 + 0x80)] := by
  simp only [String.utf8EncodeChar, toNat_val_ofNat h]

theorem eq_utf8EncodeChar_one {a : UInt8} (ha : a.toNat < 0x80) :
    [a] = String.utf8EncodeChar (Char.ofNat a.toNat) := by
  have hvalid : a.toNat.isValidChar := .inl (by omega)
  rw [utf8EncodeChar_ofNat hvalid, if_pos (by omega), UInt8.ofNat_toNat]

theorem eq_utf8EncodeChar_two {a b : UInt8} (ha : 0xC2 ≤ a.toNat) (ha' : a.toNat < 0xE0)
    (hb : 0x80 ≤ b.toNat) (hb' : b.toNat ≤ 0xBF) :
    [a, b] = String.utf8EncodeChar (Char.ofNat ((a.toNat - 0xC0) * 64 + (b.toNat - 0x80))) := by
  have hvalid : ((a.toNat - 0xC0) * 64 + (b.toNat - 0x80)).isValidChar := .inl (by omega)
  rw [utf8EncodeChar_ofNat hvalid, if_neg (by omega), if_pos (by omega)]
  simp only [List.cons.injEq, and_true]
  exact ⟨eq_ofNat (by omega), eq_ofNat (by omega)⟩

theorem eq_utf8EncodeChar_three {a b c : UInt8} (ha : 0xE0 ≤ a.toNat) (ha' : a.toNat < 0xF0)
    (hb : (if a.toNat = 0xE0 then 0xA0 else 0x80) ≤ b.toNat)
    (hb' : b.toNat ≤ if a.toNat = 0xED then 0x9F else 0xBF)
    (hc : 0x80 ≤ c.toNat) (hc' : c.toNat ≤ 0xBF) :
    [a, b, c] = String.utf8EncodeChar
      (Char.ofNat (((a.toNat - 0xE0) * 64 + (b.toNat - 0x80)) * 64 + (c.toNat - 0x80))) := by
  have hvalid :
      (((a.toNat - 0xE0) * 64 + (b.toNat - 0x80)) * 64 + (c.toNat - 0x80)).isValidChar := by
    unfold Nat.isValidChar
    split at hb' <;> omega
  have hlong : 0x7FF < ((a.toNat - 0xE0) * 64 + (b.toNat - 0x80)) * 64 + (c.toNat - 0x80) := by
    split at hb <;> omega
  have hlow : 0x80 ≤ b.toNat := by split at hb <;> omega
  have hhigh : b.toNat ≤ 0xBF := by split at hb' <;> omega
  rw [utf8EncodeChar_ofNat hvalid, if_neg (by omega), if_neg (by omega), if_pos (by omega)]
  simp only [List.cons.injEq, and_true]
  exact ⟨eq_ofNat (by omega), eq_ofNat (by omega), eq_ofNat (by omega)⟩

theorem eq_utf8EncodeChar_four {a b c d : UInt8} (ha : 0xF0 ≤ a.toNat) (ha' : a.toNat < 0xF5)
    (hb : (if a.toNat = 0xF0 then 0x90 else 0x80) ≤ b.toNat)
    (hb' : b.toNat ≤ if a.toNat = 0xF4 then 0x8F else 0xBF)
    (hc : 0x80 ≤ c.toNat) (hc' : c.toNat ≤ 0xBF) (hd : 0x80 ≤ d.toNat) (hd' : d.toNat ≤ 0xBF) :
    [a, b, c, d] = String.utf8EncodeChar (Char.ofNat
      ((((a.toNat - 0xF0) * 64 + (b.toNat - 0x80)) * 64 + (c.toNat - 0x80)) * 64 +
        (d.toNat - 0x80))) := by
  have hlow : 0x80 ≤ b.toNat := by split at hb <;> omega
  have hhigh : b.toNat ≤ 0xBF := by split at hb' <;> omega
  have hlong : 0x10 ≤ (a.toNat - 0xF0) * 64 + (b.toNat - 0x80) := by split at hb <;> omega
  have hshort : (a.toNat - 0xF0) * 64 + (b.toNat - 0x80) < 0x110 := by split at hb' <;> omega
  rw [utf8EncodeChar_ofNat (.inr (by omega)), if_neg (by omega), if_neg (by omega),
    if_neg (by omega)]
  simp only [List.cons.injEq, and_true]
  exact ⟨eq_ofNat (by omega), eq_ofNat (by omega), eq_ofNat (by omega), eq_ofNat (by omega)⟩

/-! ## Sequences that have begun -/

/-- Octets that were read of a sequence lead to a character when every octet of the range that is
asked for, and `further` continuing octets behind it, make them the octets of the character whose
bits were gathered. -/
def LeadsOn (low high : Nat) : Nat → Nat → List UInt8 → Prop
  | 0, value, read => ∀ octet : UInt8, low ≤ octet.toNat → octet.toNat ≤ high →
      read ++ [octet] = String.utf8EncodeChar (Char.ofNat (value * 64 + (octet.toNat - 0x80)))
  | further + 1, value, read => ∀ octet : UInt8, low ≤ octet.toNat → octet.toNat ≤ high →
      LeadsOn 0x80 0xBF further (value * 64 + (octet.toNat - 0x80)) (read ++ [octet])

/-- What was read since the last character. -/
def Pending : Option Partial → List UInt8 → Prop
  | none, read => read = []
  | some p, read => LeadsOn p.low p.high p.further p.value read

def Follows (read : List UInt8) : Step → Prop
  | .character c => read = String.utf8EncodeChar c
  | .more p => Pending (some p) read
  | .refuse _ => True

theorem begin_two {a : UInt8} (ha : 0xC2 ≤ a.toNat) (ha' : a.toNat < 0xE0) (position : Nat) :
    begin position a = .more ⟨a, position, a.toNat - 0xC0, 0, 0x80, 0xBF⟩ := by
  rw [begin, if_neg (by omega), if_neg (by omega), if_pos ha']

theorem begin_three {a : UInt8} (ha : 0xE0 ≤ a.toNat) (ha' : a.toNat < 0xF0) (position : Nat) :
    begin position a = .more ⟨a, position, a.toNat - 0xE0, 1,
      if a.toNat = 0xE0 then 0xA0 else 0x80, if a.toNat = 0xED then 0x9F else 0xBF⟩ := by
  rw [begin, if_neg (by omega), if_neg (by omega), if_neg (by omega), if_pos ha']

theorem begin_four {a : UInt8} (ha : 0xF0 ≤ a.toNat) (ha' : a.toNat < 0xF5) (position : Nat) :
    begin position a = .more ⟨a, position, a.toNat - 0xF0, 2,
      if a.toNat = 0xF0 then 0x90 else 0x80, if a.toNat = 0xF4 then 0x8F else 0xBF⟩ := by
  rw [begin, if_neg (by omega), if_neg (by omega), if_neg (by omega), if_neg (by omega),
    if_pos ha']

theorem follows_begin (position : Nat) (octet : UInt8) :
    Follows [octet] (begin position octet) := by
  by_cases h1 : octet.toNat < 0x80
  · rw [begin, if_pos h1]
    exact eq_utf8EncodeChar_one h1
  by_cases h2 : octet.toNat < 0xC2
  · rw [begin, if_neg h1, if_pos h2]
    trivial
  by_cases h3 : octet.toNat < 0xE0
  · rw [begin_two (by omega) h3]
    intro b hb hb'
    exact eq_utf8EncodeChar_two (by omega) h3 hb hb'
  by_cases h4 : octet.toNat < 0xF0
  · rw [begin_three (by omega) h4]
    intro b hb hb' c hc hc'
    exact eq_utf8EncodeChar_three (by omega) h4 hb hb' hc hc'
  by_cases h5 : octet.toNat < 0xF5
  · rw [begin_four (by omega) h5]
    intro b hb hb' c hc hc' d hd hd'
    exact eq_utf8EncodeChar_four (by omega) h5 hb hb' hc hc' hd hd'
  rw [begin, if_neg h1, if_neg h2, if_neg h3, if_neg h4, if_neg h5]
  trivial

theorem follows_next {p : Partial} (h : Pending (some p) read) (position : Nat) (octet : UInt8) :
    Follows (read ++ [octet]) (p.next position octet) := by
  obtain ⟨first, start, value, further, low, high⟩ := p
  unfold Partial.next
  dsimp only
  split
  · trivial
  · next hrange =>
    rw [not_or, Nat.not_lt, Nat.not_lt] at hrange
    cases further with
    | zero => exact h octet hrange.1 hrange.2
    | succ further => exact h octet hrange.1 hrange.2

/-- One octet keeps the invariant. -/
theorem follows_step (h : Pending state read) (position : Nat) (octet : UInt8) :
    Follows (read ++ [octet])
      (state.elim (begin position octet) fun p => p.next position octet) := by
  cases state with
  | none =>
    obtain rfl := h
    exact follows_begin position octet
  | some p => exact follows_next h position octet

/-- What a run decodes is the text whose octets were read. -/
theorem eq_flatMap_of_decodeFrom (h : Pending state read)
    (hdecoded : decodeFrom state position octets = .ok text) :
    read ++ octets = text.flatMap String.utf8EncodeChar := by
  induction octets generalizing state read position text with
  | nil =>
    cases state with
    | none =>
      obtain rfl := Except.ok.inj hdecoded
      exact h.symm ▸ rfl
    | some p => cases hdecoded
  | cons octet rest ih =>
    have hstep := follows_step h position octet
    rw [decodeFrom] at hdecoded
    split at hdecoded
    · next c hcharacter =>
      have hread : read ++ [octet] = String.utf8EncodeChar c := by rwa [hcharacter] at hstep
      cases hrest : decodeFrom none (position + 1) rest with
      | error fault =>
        rw [hrest] at hdecoded
        cases hdecoded
      | ok others =>
        rw [hrest] at hdecoded
        obtain rfl := Except.ok.inj hdecoded
        have hnothing : Pending none [] := rfl
        have hothers : rest = others.flatMap String.utf8EncodeChar := ih hnothing hrest
        rw [List.flatMap_cons, ← hread, ← hothers, List.append_assoc, List.singleton_append]
    · next p hmore =>
      have hpending : Pending (some p) (read ++ [octet]) := by rwa [hmore] at hstep
      simpa using ih hpending hdecoded
    · cases hdecoded

/-! ## Sequences that are complete -/

theorem decodeFrom_begin {a : UInt8} {p : Partial} (h : begin position a = .more p)
    (rest : List UInt8) :
    decodeFrom none position (a :: rest) = decodeFrom (some p) (position + 1) rest := by
  rw [decodeFrom, Option.elim_none, h]

theorem decodeFrom_more {b : UInt8} {low high : Nat} (hlow : low ≤ b.toNat)
    (hhigh : b.toNat ≤ high) (first : UInt8) (start value further position : Nat)
    (rest : List UInt8) :
    decodeFrom (some ⟨first, start, value, further + 1, low, high⟩) position (b :: rest) =
      decodeFrom (some ⟨first, start, value * 64 + (b.toNat - 0x80), further, 0x80, 0xBF⟩)
        (position + 1) rest := by
  rw [decodeFrom, Option.elim_some, Partial.next,
    if_neg (not_or.mpr ⟨Nat.not_lt.mpr hlow, Nat.not_lt.mpr hhigh⟩)]

theorem decodeFrom_last {b : UInt8} {low high : Nat} (hlow : low ≤ b.toNat)
    (hhigh : b.toNat ≤ high) (first : UInt8) (start value position : Nat) (rest : List UInt8) :
    decodeFrom (some ⟨first, start, value, 0, low, high⟩) position (b :: rest) =
      (decodeFrom none (position + 1) rest).map
        (Char.ofNat (value * 64 + (b.toNat - 0x80)) :: ·) := by
  rw [decodeFrom, Option.elim_some, Partial.next,
    if_neg (not_or.mpr ⟨Nat.not_lt.mpr hlow, Nat.not_lt.mpr hhigh⟩)]

/-- The octets of a character are read as that character. -/
theorem decodeFrom_utf8EncodeChar (c : Char) (position : Nat) (rest : List UInt8) :
    ∃ later, decodeFrom none position (String.utf8EncodeChar c ++ rest) =
      (decodeFrom none later rest).map (c :: ·) := by
  have hvalid : c.val.toNat.isValidChar := c.valid
  have hchar : Char.ofNat c.val.toNat = c := Char.ofNat_toNat c
  generalize c.val.toNat = value at hvalid hchar
  subst hchar
  rw [utf8EncodeChar_ofNat hvalid]
  unfold Nat.isValidChar at hvalid
  split_ifs with h1 h2 h3 <;> simp only [List.cons_append, List.nil_append]
  · have ha := toNat_octet (n := value) (by omega)
    refine ⟨position + 1, ?_⟩
    rw [decodeFrom, Option.elim_none, begin, if_pos (by omega), ha]
  · have ha := toNat_octet (n := value / 64 % 32 + 0xC0) (by omega)
    have hb := toNat_octet (n := value % 64 + 0x80) (by omega)
    have hvalue : (value / 64 % 32 + 0xC0 - 0xC0) * 64 + (value % 64 + 0x80 - 0x80) = value := by
      omega
    refine ⟨position + 1 + 1, ?_⟩
    rw [decodeFrom_begin (begin_two (by omega) (by omega) _),
      decodeFrom_last (by omega) (by omega), ha, hb, hvalue]
  · have ha := toNat_octet (n := value / 4096 % 16 + 0xE0) (by omega)
    have hb := toNat_octet (n := value / 64 % 64 + 0x80) (by omega)
    have hc := toNat_octet (n := value % 64 + 0x80) (by omega)
    have hvalue : ((value / 4096 % 16 + 0xE0 - 0xE0) * 64 + (value / 64 % 64 + 0x80 - 0x80)) * 64 +
        (value % 64 + 0x80 - 0x80) = value := by omega
    refine ⟨position + 1 + 1 + 1, ?_⟩
    rw [decodeFrom_begin (begin_three (by omega) (by omega) _),
      decodeFrom_more (by split <;> omega) (by split <;> omega),
      decodeFrom_last (by omega) (by omega), ha, hb, hc, hvalue]
  · have ha := toNat_octet (n := value / 262144 % 8 + 0xF0) (by omega)
    have hb := toNat_octet (n := value / 4096 % 64 + 0x80) (by omega)
    have hc := toNat_octet (n := value / 64 % 64 + 0x80) (by omega)
    have hd := toNat_octet (n := value % 64 + 0x80) (by omega)
    have hvalue : (((value / 262144 % 8 + 0xF0 - 0xF0) * 64 +
        (value / 4096 % 64 + 0x80 - 0x80)) * 64 + (value / 64 % 64 + 0x80 - 0x80)) * 64 +
        (value % 64 + 0x80 - 0x80) = value := by omega
    refine ⟨position + 1 + 1 + 1 + 1, ?_⟩
    rw [decodeFrom_begin (begin_four (by omega) (by omega) _),
      decodeFrom_more (by split <;> omega) (by split <;> omega),
      decodeFrom_more (by omega) (by omega),
      decodeFrom_last (by omega) (by omega), ha, hb, hc, hd, hvalue]

theorem decodeFrom_flatMap (text : List Char) (position : Nat) :
    decodeFrom none position (text.flatMap String.utf8EncodeChar) = .ok text := by
  induction text generalizing position with
  | nil => rfl
  | cons c rest ih =>
    obtain ⟨later, hread⟩ :=
      decodeFrom_utf8EncodeChar c position (rest.flatMap String.utf8EncodeChar)
    rw [List.flatMap_cons, hread, ih]
    rfl

/-! ## Whole texts -/

theorem decode_eq_ok_iff : decode octets = .ok text ↔ octets = encode (String.ofList text) := by
  rw [encode, String.toList_ofList]
  constructor
  · intro h
    have hnothing : Pending none [] := rfl
    exact eq_flatMap_of_decodeFrom hnothing h
  · rintro rfl
    exact decodeFrom_flatMap text 0

theorem decode_encode (text : String) : decode (encode text) = .ok text.toList := by
  rw [decode_eq_ok_iff, String.ofList_toList]

theorem encode_injective : Function.Injective encode := by
  intro first second h
  have hdecoded := decode_encode first
  rw [h, decode_encode] at hdecoded
  exact String.toList_inj.mp (Except.ok.inj hdecoded).symm

/-! ## Octets of a text at hand -/

/-- The octets that a text is held as.  Finding them takes no decoding. -/
def octetsOf (text : String) : List UInt8 := text.toByteArray.data.toList

theorem octetsOf_eq_encode (text : String) : octetsOf text = encode text := by
  rw [octetsOf, ← String.utf8Encode_toList, List.utf8Encode, List.data_toByteArray, encode]

theorem exists_octet (c : Char) :
    ∃ octet, ∀ text : String, c ∈ text.toList → octet ∈ octetsOf text := by
  obtain ⟨octet, rest, hoctets⟩ :=
    List.exists_cons_of_ne_nil (String.utf8EncodeChar_ne_nil (c := c))
  refine ⟨octet, fun text hc => ?_⟩
  rw [octetsOf_eq_encode]
  exact List.mem_flatMap.mpr ⟨c, hc, by rw [hoctets]; exact List.mem_cons_self⟩

/-- No octet of the one text is an octet of the other.  This is a test, since a claim about the
members of a list of octets may be decided by going through all octets that there are. -/
def Apart (text other : String) : Prop :=
  ((octetsOf text).all fun octet => !(octetsOf other).contains octet) = true

instance (text other : String) : Decidable (Apart text other) :=
  inferInstanceAs (Decidable (_ = true))

/-- Texts that share no octet share no character. -/
theorem Apart.notMem {text other : String} (h : Apart text other) {c : Char}
    (hc : c ∈ text.toList) : c ∉ other.toList := by
  obtain ⟨octet, hoctet⟩ := exists_octet c
  have hnot := List.all_eq_true.mp h octet (hoctet text hc)
  rw [Bool.not_eq_true', List.contains_eq_mem, decide_eq_false_iff_not] at hnot
  exact fun hother => hnot (hoctet other hother)

theorem decodeFrom_of_ascii (h : ∀ octet ∈ octets, octet.toNat < 0x80) (position : Nat) :
    decodeFrom none position octets = .ok (octets.map fun octet => Char.ofNat octet.toNat) := by
  induction octets generalizing position with
  | nil => rfl
  | cons octet rest ih =>
    rw [List.forall_mem_cons] at h
    simp [decodeFrom, begin, h.1, ih h.2, Except.map]

theorem mem_of_ascii {text : String} {octet : UInt8}
    (h : ∀ octet ∈ octetsOf text, octet.toNat < 0x80) (hoctet : octet ∈ octetsOf text) :
    Char.ofNat octet.toNat ∈ text.toList := by
  have hdecoded := decode_encode text
  rw [← octetsOf_eq_encode, decode, decodeFrom_of_ascii h] at hdecoded
  rw [← Except.ok.inj hdecoded]
  exact List.mem_map_of_mem hoctet

end Vernacular.Utf8
