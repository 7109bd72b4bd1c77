import Mathlib.Data.List.Basic
import Vernacular.Diagnostic

/-!
# Places in texts

The place of an offset has the offset for its start and its end.  Its line is one more than the
newlines before the offset, and its column is the distance from the last of them.
-/

namespace Vernacular

/-- The offset of the last newline before an offset, or -1 if there is none. -/
def newlineBefore (text : List Char) : Nat → Int
  | 0 => -1
  | offset + 1 => if text[offset]? = some '\n' then offset else newlineBefore text offset

namespace Place

/-- A place is that of one offset in a text. -/
structure Marks (place : Place) (text : List Char) (offset : Nat) : Prop where
  start : place.start = offset
  stop : place.stop = offset
  line : place.line = 1 + (text.take offset).count '\n'
  column : (place.column : Int) = offset - newlineBefore text offset

/-- On the way back from an offset, the characters up to the last newline are those of its line. -/
theorem length_takeWhile_reverse_take {text : List Char} {offset : Nat}
    (h : offset ≤ text.length) :
    (((text.take offset).reverse.takeWhile (· ≠ '\n')).length : Int) =
      offset - newlineBefore text offset - 1 := by
  induction offset with
  | zero => rfl
  | succ offset ih =>
    have hlt : offset < text.length := h
    rw [← List.take_append_getElem hlt, List.reverse_concat, newlineBefore,
      List.getElem?_eq_getElem hlt]
    by_cases hnewline : text[offset] = '\n'
    · rw [if_pos (by rw [hnewline]), List.takeWhile_cons_of_neg (by simp [hnewline]),
        List.length_nil]
      omega
    · have hbefore := ih (Nat.le_of_lt hlt)
      have hother : some text[offset] ≠ some '\n' := fun heq => hnewline (Option.some.inj heq)
      rw [if_neg hother, List.takeWhile_cons_of_pos (by simp [hnewline]), List.length_cons]
      omega

theorem marks_ofOffset {text : List Char} {offset : Nat} (h : offset ≤ text.length) :
    (ofOffset text offset).Marks text offset := by
  have hcolumn := length_takeWhile_reverse_take h
  refine ⟨rfl, rfl, Nat.add_comm .., ?_⟩
  simp only [ofOffset, Int.natCast_add, hcolumn]
  omega

theorem ofBounds_eq_ok (place : Place) :
    ofBounds place.start place.stop place.line place.column = .ok place := by
  obtain ⟨start, stop, line, column, hstop, hline, hcolumn⟩ := place
  have hneg : ¬(start : Int) < 0 := by omega
  have hless : ¬(stop : Int) < start := by omega
  have hlow : ¬(line : Int) < 1 := by omega
  have hleft : ¬(column : Int) < 1 := by omega
  simp [ofBounds, hneg, hless, hlow, hleft]

theorem Marks.ofBounds {place : Place} {text : List Char} {offset : Nat}
    (h : place.Marks text offset) :
    ofBounds offset offset (1 + (text.take offset).count '\n')
      (offset - newlineBefore text offset) = .ok place := by
  rw [← h.column]
  have := ofBounds_eq_ok place
  rw [h.start, h.stop, h.line] at this
  simpa using this

end Place

end Vernacular
