import Vernacular.File.Tree

/-!
# Texts of files

Reading a file decodes it and unifies its line ends, so a text is read as it stands there just when
it holds no carriage return.
-/

namespace Vernacular

namespace Text

variable {text : List Char}

theorem unifyNewlines_cons_of_ne {c : Char} (h : c ≠ '\r') (rest : List Char) :
    unifyNewlines (c :: rest) = c :: unifyNewlines rest := by
  rw [unifyNewlines] <;> simp [h]

theorem notMem_unifyNewlines (text : List Char) : '\r' ∉ unifyNewlines text := by
  fun_induction unifyNewlines text with
  | case1 => simp
  | case2 rest ih => simpa using ih
  | case3 rest _ ih => simpa using ih
  | case4 c rest _ hreturn ih =>
    rw [List.mem_cons, not_or]
    exact ⟨fun heq => hreturn heq.symm, ih⟩

theorem unifyNewlines_eq_self_iff : unifyNewlines text = text ↔ '\r' ∉ text := by
  constructor
  · intro h
    rw [← h]
    exact notMem_unifyNewlines text
  · intro h
    induction text with
    | nil => rfl
    | cons c rest ih =>
      rw [List.mem_cons, not_or] at h
      rw [unifyNewlines_cons_of_ne fun heq => h.1 heq.symm, ih h.2]

end Text

namespace File

variable {octets : List UInt8} {text : List Char}

theorem text_eq_ok_iff :
    File.text octets = .ok text ↔
      ∃ raw, Utf8.decode octets = .ok raw ∧ Text.unifyNewlines raw = text := by
  unfold File.text
  cases Utf8.decode octets <;> simp [Except.map]

end File

end Vernacular
