import Vernacular.Json.Reader
import Vernacular.Proofs.Except

/-!
# Limits of decoders

The limits of a decoder stop the reader just when it comes, without them, to a value that goes
beyond them; otherwise they change nothing.
-/

namespace Vernacular.Json

variable {decoder : Decoder} {excess : Excess}

@[simp] theorem Decoder.excess?_unlimited (decoder : Decoder) (depth : Nat) (token : Token) :
    decoder.unlimited.excess? depth token = none := by
  unfold Decoder.excess?
  split <;> rfl

namespace Reader

variable {r next last : Reader} {x : Lexeme} {xs : List Lexeme} {fault : Fault}

@[simp] theorem excess?_unlimited (decoder : Decoder) (r : Reader) (x : Lexeme) :
    r.excess? decoder.unlimited x = none := by
  simp [excess?]

theorem step_unlimited (decoder : Decoder) (r : Reader) (x : Lexeme) :
    r.step decoder.unlimited x = r.step decoder x := rfl

/-! ## Steps -/

theorem stepWithin_eq_ok_iff :
    r.stepWithin decoder x = .ok next ↔
      r.excess? decoder x = none ∧ r.step decoder x = .ok next := by
  unfold stepWithin
  cases r.excess? decoder x with
  | none => simp [except_mapError_eq_ok_iff]
  | some excess => simp

theorem stepWithin_eq_fault_iff :
    r.stepWithin decoder x = .error (.fault fault) ↔
      r.excess? decoder x = none ∧ r.step decoder x = .error fault := by
  unfold stepWithin
  cases r.excess? decoder x with
  | none => simp [except_mapError_eq_error_iff]
  | some excess => simp

theorem stepWithin_eq_excess_iff :
    r.stepWithin decoder x = .error (.excess excess) ↔ r.excess? decoder x = some excess := by
  unfold stepWithin
  cases r.excess? decoder x with
  | none => simp [except_mapError_eq_error_iff]
  | some found => simp

theorem stepWithin_of_excess?_eq_none (h : r.excess? decoder x = none) :
    r.stepWithin decoder x = r.stepWithin decoder.unlimited x := by
  rw [stepWithin, stepWithin, h, excess?_unlimited, step_unlimited]

/-! ## Runs -/

theorem run_cons_eq_ok_iff :
    r.run decoder (x :: xs) = .ok last ↔
      ∃ next, r.stepWithin decoder x = .ok next ∧ next.run decoder xs = .ok last :=
  except_bind_eq_ok_iff

theorem run_cons_eq_error_iff {stop : Stop} :
    r.run decoder (x :: xs) = .error stop ↔ r.stepWithin decoder x = .error stop ∨
      ∃ next, r.stepWithin decoder x = .ok next ∧ next.run decoder xs = .error stop :=
  except_bind_eq_error_iff

/-- Without its limits, the decoder comes to a value that goes beyond them. -/
def Exceeds (decoder : Decoder) (r : Reader) (xs : List Lexeme) : Prop :=
  ∃ before x after s, xs = before ++ x :: after ∧ r.run decoder.unlimited before = .ok s ∧
    s.excess? decoder x ≠ none

theorem not_exceeds_nil : ¬r.Exceeds decoder [] := by
  rintro ⟨before, x, after, s, hxs, -⟩
  simp at hxs

theorem exceeds_cons_iff :
    r.Exceeds decoder (x :: xs) ↔ r.excess? decoder x ≠ none ∨
      ∃ next, r.step decoder x = .ok next ∧ next.Exceeds decoder xs := by
  constructor
  · rintro ⟨before, y, after, s, hxs, hrun, hexcess⟩
    cases before with
    | nil =>
      cases hxs
      cases hrun
      exact .inl hexcess
    | cons _ before =>
      obtain ⟨rfl, hrest⟩ := List.cons.inj hxs
      obtain ⟨next, hstep, hlater⟩ := run_cons_eq_ok_iff.mp hrun
      exact .inr ⟨next, (stepWithin_eq_ok_iff.mp hstep).2, before, y, after, s, hrest, hlater,
        hexcess⟩
  · rintro (hexcess | ⟨next, hstep, before, y, after, s, rfl, hrun, hexcess⟩)
    · exact ⟨[], x, xs, r, rfl, rfl, hexcess⟩
    · refine ⟨x :: before, y, after, s, rfl, run_cons_eq_ok_iff.mpr ⟨next, ?_, hrun⟩, hexcess⟩
      exact stepWithin_eq_ok_iff.mpr ⟨excess?_unlimited decoder r x, hstep⟩

theorem exists_run_eq_excess_iff :
    (∃ excess, r.run decoder xs = .error (.excess excess)) ↔ r.Exceeds decoder xs := by
  induction xs generalizing r with
  | nil => exact ⟨nofun, fun h => absurd h not_exceeds_nil⟩
  | cons x xs ih =>
    rw [exceeds_cons_iff]
    constructor
    · rintro ⟨excess, h⟩
      rcases run_cons_eq_error_iff.mp h with hstep | ⟨next, hstep, hrun⟩
      · exact .inl (by simp [stepWithin_eq_excess_iff.mp hstep])
      · exact .inr ⟨next, (stepWithin_eq_ok_iff.mp hstep).2, ih.mp ⟨excess, hrun⟩⟩
    · intro h
      cases hexcess : r.excess? decoder x with
      | some excess =>
        exact ⟨excess, run_cons_eq_error_iff.mpr (.inl (stepWithin_eq_excess_iff.mpr hexcess))⟩
      | none =>
        obtain ⟨next, hstep, hlater⟩ := h.resolve_left (· hexcess)
        obtain ⟨excess, hrun⟩ := ih.mpr hlater
        exact ⟨excess, run_cons_eq_error_iff.mpr
          (.inr ⟨next, stepWithin_eq_ok_iff.mpr ⟨hexcess, hstep⟩, hrun⟩)⟩

theorem run_eq_of_not_exceeds (h : ¬r.Exceeds decoder xs) :
    r.run decoder xs = r.run decoder.unlimited xs := by
  induction xs generalizing r with
  | nil => rfl
  | cons x xs ih =>
    rw [exceeds_cons_iff, not_or, Classical.not_not] at h
    obtain ⟨hexcess, hlater⟩ := h
    rw [run, run, stepWithin_of_excess?_eq_none hexcess]
    cases hstep : r.stepWithin decoder.unlimited x with
    | error stop => rfl
    | ok next => exact ih fun hnext => hlater ⟨next, (stepWithin_eq_ok_iff.mp hstep).2, hnext⟩

end Reader

/-! ## Texts -/

variable {text : List Char}

/-- Without its limits, the decoder comes to a value in the text that goes beyond them. -/
def Exceeds (decoder : Decoder) (text : List Char) : Prop :=
  text.head? ≠ some '\ufeff' ∧ Reader.start.Exceeds decoder (lexemes text)

theorem read_of_mark (h : text.head? = some '\ufeff') :
    read decoder text = .error (.fault ⟨.byteOrderMark, text⟩) := by
  obtain ⟨rest, rfl⟩ := List.head?_eq_some_iff.mp h
  rfl

theorem read_of_no_mark (h : text.head? ≠ some '\ufeff') :
    read decoder text = (Reader.start.run decoder (lexemes text)).bind
      (fun r => r.finish.mapError .fault) := by
  unfold read
  split
  · exact absurd rfl h
  · rfl

theorem exists_read_eq_excess_iff :
    (∃ excess, read decoder text = .error (.excess excess)) ↔ Exceeds decoder text := by
  by_cases hmark : text.head? = some '\ufeff'
  · simp [Exceeds, read_of_mark hmark, hmark]
  · simp only [Exceeds, ne_eq, hmark, not_false_eq_true, true_and, read_of_no_mark hmark,
      ← Reader.exists_run_eq_excess_iff]
    refine exists_congr fun excess => except_bind_eq_error_iff.trans ?_
    simp [except_mapError_eq_error_iff]

theorem read_eq_of_not_exceeds (h : ¬Exceeds decoder text) :
    read decoder text = read decoder.unlimited text := by
  by_cases hmark : text.head? = some '\ufeff'
  · rw [read_of_mark hmark, read_of_mark hmark]
  · rw [read_of_no_mark hmark, read_of_no_mark hmark,
      Reader.run_eq_of_not_exceeds fun hrun => h ⟨hmark, hrun⟩]

theorem not_exceeds_unlimited (decoder : Decoder) (text : List Char) :
    ¬Exceeds decoder.unlimited text := by
  rintro ⟨-, before, x, after, s, -, -, hexcess⟩
  exact hexcess (Reader.excess?_unlimited decoder s x)

theorem read_unlimited_ne_excess (decoder : Decoder) (text : List Char) (excess : Excess) :
    read decoder.unlimited text ≠ .error (.excess excess) := fun h =>
  not_exceeds_unlimited decoder text (exists_read_eq_excess_iff.mp ⟨excess, h⟩)

end Vernacular.Json
