import Vernacular.Locale.Affixes
import Vernacular.Locale.Token
import Vernacular.Proofs.Text.Utf8
import Vernacular.Proofs.Word.Mapping

/-!
# Characters of token names

Token names hold an underscore and no separator, so the standard affixes make words of them.  Tables
of names and spellings are gone through octet by octet, in a fraction of the time that going through
their characters takes.
-/

namespace Vernacular

namespace Separators

variable {separators text : String} {c : Char}

theorem contains_ofChars : (ofChars separators).contains c = true ↔ c ∈ separators.toList := by
  simp [contains, holds, ofChars]

theorem isWord_of_apart (hnonempty : text ≠ "") (h : Utf8.Apart text separators) :
    (ofChars separators).IsWord text := by
  refine ⟨hnonempty, fun c hc => ?_⟩
  rw [Bool.eq_false_iff, ne_eq, contains_ofChars]
  exact h.notMem hc

end Separators

namespace Token

variable {token : String}

/-- The octet of a capital letter or an underscore. -/
def isNameOctet (octet : UInt8) : Bool := (65 ≤ octet && octet ≤ 90) || octet == 95

theorem octets_of_mem_names : ∀ token ∈ names, 95 ∈ Utf8.octetsOf token ∧
    (Utf8.octetsOf token).all isNameOctet = true := by
  decide +kernel

theorem isAscii_of_isNameOctet {octet : UInt8} (h : isNameOctet octet = true) :
    octet.toNat < 0x80 := by
  simp only [isNameOctet, Bool.or_eq_true, Bool.and_eq_true, decide_eq_true_eq, beq_iff_eq] at h
  rcases h with ⟨-, hhigh⟩ | rfl
  · exact Nat.lt_of_le_of_lt (UInt8.le_iff_toNat_le.mp hhigh) (by decide)
  · decide

theorem underscore_mem (htoken : token ∈ names) : '_' ∈ token.toList := by
  obtain ⟨hunderscore, hoctets⟩ := octets_of_mem_names token htoken
  rw [List.all_eq_true] at hoctets
  exact Utf8.mem_of_ascii (fun octet hoctet => isAscii_of_isNameOctet (hoctets octet hoctet))
    hunderscore

theorem apart_of_mem_names {other : String} (hother : (Utf8.octetsOf other).any isNameOctet = false)
    (htoken : token ∈ names) : Utf8.Apart token other := by
  have hname := (octets_of_mem_names token htoken).2
  rw [List.all_eq_true] at hname
  rw [List.any_eq_false] at hother
  rw [Utf8.Apart, List.all_eq_true]
  intro octet hoctet
  rw [Bool.not_eq_true', List.contains_eq_mem, decide_eq_false_iff_not]
  exact fun hmem => hother octet hmem (hname octet hoctet)

theorem return_notMem (htoken : token ∈ names) : '\r' ∉ token.toList := fun hreturn =>
  (apart_of_mem_names (by decide) htoken).notMem hreturn
    (show '\r' ∈ "\r".toList by decide)

theorem isWord_of_mem_names (htoken : token ∈ names) : Separators.standard.IsWord token := by
  refine Separators.isWord_of_apart ?_ (apart_of_mem_names (by decide) htoken)
  rintro rfl
  cases underscore_mem htoken

theorem isWord_decorate (htoken : token ∈ names) :
    Separators.standard.IsWord (Affixes.standard.decorate token) := by
  have hdollar : Separators.standard.IsWord "$" :=
    Separators.isWord_of_apart (by decide) (by decide)
  refine ⟨by simp [Affixes.decorate, Affixes.standard], ?_⟩
  simp only [Affixes.decorate, Affixes.standard, String.toList_append, List.forall_mem_append]
  exact ⟨⟨hdollar.chars, (isWord_of_mem_names htoken).chars⟩, hdollar.chars⟩

end Token

end Vernacular
