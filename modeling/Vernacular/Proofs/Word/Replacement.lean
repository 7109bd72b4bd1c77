import Vernacular.Dictionary
import Vernacular.Proofs.Word.Decomposition
import Vernacular.Proofs.Word.Mapping

/-!
# Replacing words with a cursor

A cursor may replace the words of a text as it goes: it reads a word if it stands at one, and a
single character otherwise.  It never reads a part of a word, so what it writes is what mapping the
spans of the text gives, and an entry under a key that is no word of the text is never used.
-/

namespace Vernacular

namespace Cursor

variable {c moved : Cursor} {word : String}

theorem readsRun_nextWord (h : c.nextWord = (some word, moved)) :
    c.ReadsRun c.isWordChar word moved :=
  readsRun_past h

theorem exists_ahead_of_peekChar {d : Char} (h : c.peekChar = some d) :
    ∃ rest, c.ahead = d :: rest ∧ c.nextChar.2.ahead = rest := by
  obtain ⟨rest, hahead⟩ := List.head?_eq_some_iff.mp h
  exact ⟨rest, hahead, by simp [nextChar, h, skip, hahead]⟩

/-- What stands for the text ahead once its words are replaced. -/
def replaceAhead (lookup : String → Option String) (c : Cursor) : String :=
  match _ : c.peekChar with
  | none => ""
  | some d =>
    match _ : c.nextWord with
    | (some word, moved) => (lookup word).getD word ++ moved.replaceAhead lookup
    | (none, _) => String.singleton d ++ c.nextChar.2.replaceAhead lookup
termination_by c.ahead.length
decreasing_by
  · exact (readsRun_nextWord ‹_›).length_ahead
  · obtain ⟨rest, hahead, hnext⟩ := exists_ahead_of_peekChar ‹_›
    simp [hahead, hnext]

theorem toList_replaceAhead (lookup : String → Option String) (c : Cursor) :
    (c.replaceAhead lookup).toList =
      c.separators.replaceFrom (Separators.substitute lookup) [] c.ahead := by
  fun_induction replaceAhead lookup c with
  | case1 c hnone =>
    rw [List.head?_eq_none_iff.mp hnone]
    rfl
  | case2 c d hpeek word moved hnext ih =>
    have hrun := readsRun_nextWord hnext
    have hchars : ∀ d ∈ word.toList, c.separators.contains d = false := by
      simpa [isWordChar] using hrun.accepted
    -- The word was read to its end, so the next character is a separator if there is one.
    have hboundary : ∀ d ∈ moved.ahead.head?, c.separators.contains d = true := by
      simpa [isWordChar] using hrun.stopped
    have hnonempty : word.toList ≠ [] := by simpa using hrun.nonempty
    rw [hrun.reads.ahead, Separators.replaceFrom_wordChars [] _ hchars, List.append_nil,
      Separators.replaceFrom_boundary _ hboundary, Separators.flushWord_reverse hnonempty,
      String.toList_append, ih, hrun.reads.separators]
    cases hentry : lookup word <;> simp [Separators.substitute, hentry]
  | case3 c d hpeek moved hnext ih =>
    obtain ⟨rest, hahead, hrest⟩ := exists_ahead_of_peekChar hpeek
    have hd : c.separators.contains d = true := by
      simpa [hnext, hahead] using c.nextWord_eq_none_iff
    rw [String.toList_append, String.toList_singleton, ih, hrest, hahead,
      c.reads_nextChar.separators]
    simp [Separators.replaceFrom, Separators.flushWord, hd]

end Cursor

namespace Separators

/-- A cursor that goes through a text word by word and character by character, a map over its spans
and the replacement of its words all come to the same.  Entries under anything but the words of the
text make no difference. -/
theorem replaceWords_eq_join (s : Separators) (lookup : String → Option String) (text : String) :
    (Cursor.ofText text s 0).replaceAhead lookup = s.replaceWords lookup text ∧
      s.replaceWords lookup text =
        String.join ((s.spans text).map fun span =>
          match span.kind with
          | .word => (lookup span.text).getD span.text
          | .separator => span.text) ∧
      s.replaceWords lookup text =
        s.replaceWords (fun key => if key ∈ s.words text then lookup key else none) text := by
  refine ⟨?_, ?_, ?_⟩
  · rw [← String.toList_inj, Cursor.toList_replaceAhead, replaceWords, String.toList_ofList]
    simp [Cursor.ofText]
  · rw [replaceWords_eq_mapWords, mapWords_eq_join]
    rfl
  · rw [replaceWords_eq_mapWords, replaceWords_eq_mapWords]
    apply mapWords_congr
    intro word hword
    rw [if_pos hword]

-- Neither a part of a word nor a separator is looked up, and what comes out is not read again.
example :
    standard.replaceWords
      (Dictionary.ofList [("ab", "x y"), ("b", "z"), ("", "w"), ("y", "v"), ("(", "u")]).get?
      "(ab) b abb" = "(x y) z abb" := by
  decide +kernel

end Separators

end Vernacular
