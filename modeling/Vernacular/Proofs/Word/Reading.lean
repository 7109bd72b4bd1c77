import Vernacular.Word.Cursor

/-!
# Reading with a cursor

A text may be read in any mixture of characters, words, runs of separators and spans, and several
iterators over the spans may share the cursor.  A step takes what it returns from the front of what
lies ahead, or else it leaves the cursor where it is.  So at every moment the pieces that were taken
make up the text between the first position and the present one.
-/

namespace Vernacular

namespace Cursor

variable {c moved last : Cursor} {text more : String}

/-! ## Places in the source -/

theorem length_source (c : Cursor) : c.source.length = c.position + c.ahead.length := by
  simp [source, position]

theorem position_le_length (c : Cursor) : c.position ≤ c.source.length := by
  rw [length_source]
  omega

theorem drop_position (c : Cursor) : c.source.toList.drop c.position = c.ahead := by
  have hlength : c.position = c.before.reverse.length := by simp [position]
  rw [source, String.toList_ofList, hlength, List.drop_left]

theorem getElem?_position (c : Cursor) : c.source.toList[c.position]? = c.ahead.head? := by
  rw [← c.drop_position, List.head?_drop]

theorem ahead_eq_nil_iff : c.ahead = [] ↔ c.position = c.source.length := by
  rw [length_source, ← List.length_eq_zero_iff]
  omega

@[simp] theorem source_ofText (text : String) (separators : Separators) (position : Int) :
    (ofText text separators position).source = text := by
  simp [ofText, source]

theorem position_ofText (text : String) (separators : Separators) (position : Int) :
    ((ofText text separators position).position : Int) = max 0 (min position text.length) := by
  simp only [ofText, Cursor.position, List.length_reverse, List.length_take, String.length_toList]
  omega

/-! ## Moving -/

/-- Reading `text` leads from one cursor to the other. -/
structure Reads (c : Cursor) (text : String) (moved : Cursor) : Prop where
  separators : moved.separators = c.separators
  before : moved.before = text.toList.reverse ++ c.before
  ahead : c.ahead = text.toList ++ moved.ahead

theorem Reads.refl (c : Cursor) : c.Reads "" c := ⟨rfl, by simp, by simp⟩

theorem Reads.trans (h : c.Reads text moved) (hnext : moved.Reads more last) :
    c.Reads (text ++ more) last where
  separators := hnext.separators.trans h.separators
  before := by simp [hnext.before, h.before]
  ahead := by simp [h.ahead, hnext.ahead]

theorem Reads.eq_of_empty (h : c.Reads "" moved) : moved = c := by
  obtain ⟨hseparators, hbefore, hahead⟩ := h
  cases c
  cases moved
  simp_all

theorem Reads.ahead_eq_nil (h : c.Reads text moved) (hnil : c.ahead = []) : moved.ahead = [] := by
  have hahead := h.ahead
  rw [hnil] at hahead
  exact (List.append_eq_nil_iff.mp hahead.symm).2

theorem Reads.source_eq (h : c.Reads text moved) : moved.source = c.source := by
  simp [source, h.before, h.ahead]

theorem Reads.position_eq (h : c.Reads text moved) :
    moved.position = c.position + text.length := by
  simp only [position, h.before, List.length_append, List.length_reverse, String.length_toList]
  omega

theorem Reads.position_le (h : c.Reads text moved) : c.position ≤ moved.position := by
  rw [h.position_eq]
  omega

/-- What is read stands in the source between the two positions. -/
theorem Reads.eq_extract (h : c.Reads text moved) :
    text = String.ofList (c.source.toList.extract c.position moved.position) := by
  have hlength : moved.position - c.position = text.toList.length := by
    rw [h.position_eq, String.length_toList]
    omega
  rw [List.extract_eq_take_drop, drop_position, hlength, h.ahead, List.take_left,
    String.ofList_toList]

theorem reads_skip {n : Nat} (htext : c.ahead.take n = text.toList) : c.Reads text (c.skip n) where
  separators := rfl
  before := by simp [skip, htext]
  ahead := by rw [← htext]; exact (List.take_append_drop n c.ahead).symm

theorem reads_nextChar (c : Cursor) :
    c.Reads ((c.nextChar.1.map String.singleton).getD "") c.nextChar.2 := by
  unfold nextChar peekChar
  cases hahead : c.ahead with
  | nil => exact .refl c
  | cons d rest => exact reads_skip (by simp [hahead])

theorem runAhead_eq_none_iff {accepts : Char → Bool} :
    c.runAhead accepts = none ↔
      c.ahead = [] ∨ ∃ d, c.ahead.head? = some d ∧ accepts d = false := by
  unfold runAhead
  cases c.ahead with
  | nil => simp
  | cons d rest => cases haccepts : accepts d <;> simp [haccepts]

theorem toList_of_runAhead {accepts : Char → Bool} (h : c.runAhead accepts = some text) :
    text.toList = c.ahead.takeWhile accepts := by
  unfold runAhead at h
  split at h
  · cases h
  · rw [← Option.some.inj h, String.toList_ofList]

theorem reads_past (c : Cursor) (accepts : Char → Bool) :
    c.Reads ((c.past (c.runAhead accepts)).1.getD "") (c.past (c.runAhead accepts)).2 := by
  cases hrun : c.runAhead accepts with
  | none => exact .refl c
  | some text =>
    have htext := toList_of_runAhead hrun
    have hprefix := List.prefix_iff_eq_take.mp (c.ahead.takeWhile_prefix accepts)
    rw [← htext, String.length_toList] at hprefix
    exact reads_skip hprefix.symm

theorem reads_nextWord (c : Cursor) : c.Reads (c.nextWord.1.getD "") c.nextWord.2 :=
  c.reads_past c.isWordChar

theorem reads_nextSeparators (c : Cursor) :
    c.Reads (c.nextSeparators.1.getD "") c.nextSeparators.2 :=
  c.reads_past c.separators.contains

theorem fst_past (run : Option String) : (c.past run).1 = run := by
  cases run <;> rfl

theorem atWord_eq_true_iff :
    c.atWord = true ↔ ∃ d, c.ahead.head? = some d ∧ c.separators.contains d = false := by
  unfold atWord
  cases c.ahead <;> simp [isWordChar]

/-- A step of an iterator over the spans reads a word or a run of separators, whichever is there. -/
theorem nextSpan_eq : c.nextSpan =
    if c.atWord then
      (c.nextWord.1.map (⟨.word, ·, c.position, c.nextWord.2.position⟩), c.nextWord.2)
    else
      (c.nextSeparators.1.map (⟨.separator, ·, c.position, c.nextSeparators.2.position⟩),
        c.nextSeparators.2) := by
  unfold nextSpan
  split <;> rfl

theorem reads_nextSpan (c : Cursor) :
    c.Reads ((c.nextSpan.1.map Span.text).getD "") c.nextSpan.2 := by
  rw [nextSpan_eq]
  split
  · simpa [Function.comp_def] using c.reads_nextWord
  · simpa [Function.comp_def] using c.reads_nextSeparators

theorem nextWord_eq_none_iff :
    c.nextWord.1 = none ↔
      c.ahead = [] ∨ ∃ d, c.ahead.head? = some d ∧ c.separators.contains d = true := by
  rw [nextWord, fst_past, peekWord, runAhead_eq_none_iff]
  simp [isWordChar]

theorem nextSeparators_eq_none_iff :
    c.nextSeparators.1 = none ↔
      c.ahead = [] ∨ ∃ d, c.ahead.head? = some d ∧ c.separators.contains d = false := by
  rw [nextSeparators, fst_past, peekSeparators, runAhead_eq_none_iff]

theorem nextChar_eq_none_iff : c.nextChar.1 = none ↔ c.ahead = [] := by
  unfold nextChar peekChar
  cases c.ahead <;> simp

theorem nextSpan_eq_none_iff : c.nextSpan.1 = none ↔ c.ahead = [] := by
  rw [nextSpan_eq]
  split
  · next hword =>
    obtain ⟨d, hahead, hd⟩ := atWord_eq_true_iff.mp hword
    have hsome : ¬c.ahead = [] := by
      rintro hnil
      simp [hnil] at hahead
    simp [nextWord_eq_none_iff, hahead, hd, hsome]
  · next hword =>
    rw [atWord_eq_true_iff] at hword
    rw [Option.map_eq_none_iff, nextSeparators_eq_none_iff]
    cases hahead : c.ahead with
    | nil => simp
    | cons d rest => simpa [hahead] using hword

end Cursor

/-! ## Readers -/

/-- A cursor with the iterators over its spans that have ended. -/
structure Reader where
  cursor : Cursor
  ended : List Nat

namespace Reader

inductive Step where
  | peekChar
  | nextChar
  | peekWord
  | nextWord
  | nextSeparators
  | atWord
  | atEnd
  | nextSpan (iterator : Nat)
deriving DecidableEq, Repr

inductive Answer where
  | char (found : Option Char)
  | text (found : Option String)
  | span (found : Option Span)
  | truth (holds : Bool)
deriving DecidableEq, Repr

def Answer.text? : Answer → Option String
  | char found => found.map String.singleton
  | text found => found
  | span found => found.map Span.text
  | truth _ => none

def Step.consumes : Step → Bool
  | nextChar | nextWord | nextSeparators | nextSpan _ => true
  | peekChar | peekWord | atWord | atEnd => false

/-- What a step takes out of the text when it gets this answer. -/
def Step.taken? (step : Step) (answer : Answer) : Option String :=
  if step.consumes then answer.text? else none

def ofText (text : String) (separators : Separators) (position : Int) : Reader :=
  ⟨.ofText text separators position, []⟩

def position (r : Reader) : Nat := r.cursor.position

/-- An iterator that has ended does not look at the text again. -/
def nextSpan (r : Reader) (iterator : Nat) : Option Span × Reader :=
  if iterator ∈ r.ended then (none, r)
  else
    match r.cursor.nextSpan with
    | (none, moved) => (none, ⟨moved, iterator :: r.ended⟩)
    | (some span, moved) => (some span, ⟨moved, r.ended⟩)

def step (r : Reader) : Step → Answer × Reader
  | .peekChar => (.char r.cursor.peekChar, r)
  | .nextChar => (.char r.cursor.nextChar.1, ⟨r.cursor.nextChar.2, r.ended⟩)
  | .peekWord => (.text r.cursor.peekWord, r)
  | .nextWord => (.text r.cursor.nextWord.1, ⟨r.cursor.nextWord.2, r.ended⟩)
  | .nextSeparators => (.text r.cursor.nextSeparators.1, ⟨r.cursor.nextSeparators.2, r.ended⟩)
  | .atWord => (.truth r.cursor.atWord, r)
  | .atEnd => (.truth r.cursor.atEnd, r)
  | .nextSpan iterator => (.span (r.nextSpan iterator).1, (r.nextSpan iterator).2)

/-- Takes the steps one after the other and keeps their answers. -/
def run (r : Reader) : List Step → List (Step × Answer) × Reader
  | [] => ([], r)
  | step :: rest =>
    let (answer, next) := r.step step
    let (log, last) := next.run rest
    ((step, answer) :: log, last)

def taken (log : List (Step × Answer)) : List String :=
  log.filterMap fun entry => entry.1.taken? entry.2

variable {r : Reader}

/-- Iterators end at the end of the text only, where the cursor stays. -/
def Settled (r : Reader) : Prop := ∀ iterator ∈ r.ended, r.cursor.ahead = []

theorem settled_ofText (text : String) (separators : Separators) (position : Int) :
    (ofText text separators position).Settled := by
  intro iterator hended
  cases hended

theorem reads_nextSpan (r : Reader) (iterator : Nat) :
    r.cursor.Reads (((r.nextSpan iterator).1.map Span.text).getD "")
      (r.nextSpan iterator).2.cursor := by
  unfold nextSpan
  split
  · exact .refl r.cursor
  · have hreads := r.cursor.reads_nextSpan
    split
    · next moved hspan => rwa [hspan] at hreads
    · next span moved hspan => rwa [hspan] at hreads

theorem Settled.nextSpan_eq_none_iff (h : r.Settled) (iterator : Nat) :
    (r.nextSpan iterator).1 = none ↔ r.cursor.ahead = [] := by
  unfold nextSpan
  split
  · next hended => simp [h iterator hended]
  · rw [← Cursor.nextSpan_eq_none_iff]
    split
    · next moved hspan => simp [hspan]
    · next span moved hspan => simp [hspan]

/-! ## One step -/

/-- A step reads what it takes; one that takes nothing leaves the cursor where it is. -/
theorem reads_step (r : Reader) (step : Step) :
    r.cursor.Reads ((step.taken? (r.step step).1).getD "") (r.step step).2.cursor := by
  cases step with
  | peekChar | peekWord | atWord | atEnd => exact .refl r.cursor
  | nextChar => exact r.cursor.reads_nextChar
  | nextWord => exact r.cursor.reads_nextWord
  | nextSeparators => exact r.cursor.reads_nextSeparators
  | nextSpan iterator => exact r.reads_nextSpan iterator

theorem mem_ended_nextSpan {iterator other : Nat} (h : other ∈ (r.nextSpan iterator).2.ended) :
    other ∈ r.ended ∨ (r.nextSpan iterator).1 = none := by
  revert h
  unfold nextSpan
  split
  · exact .inl
  · split
    · exact fun _ => .inr rfl
    · exact .inl

theorem Settled.step (h : r.Settled) (step : Step) : (r.step step).2.Settled := by
  intro iterator hended
  apply (r.reads_step step).ahead_eq_nil
  cases step with
  | nextSpan stepped =>
    rcases mem_ended_nextSpan hended with hbefore | hnone
    · exact h iterator hbefore
    · exact (h.nextSpan_eq_none_iff stepped).mp hnone
  | peekChar | nextChar | peekWord | nextWord | nextSeparators | atWord | atEnd =>
    exact h iterator hended

theorem cursor_step_of_not_taken {step : Step}
    (h : step.consumes = false ∨ (r.step step).1.text? = none) :
    (r.step step).2.cursor = r.cursor := by
  have hnone : step.taken? (r.step step).1 = none := by
    rcases h with hlooks | hnothing
    · simp [Step.taken?, hlooks]
    · simp [Step.taken?, hnothing]
  have hreads := r.reads_step step
  rw [hnone] at hreads
  exact hreads.eq_of_empty

/-! ## A run of steps -/

theorem taken_cons (step : Step) (answer : Answer) (log : List (Step × Answer)) :
    String.join (taken ((step, answer) :: log)) =
      (step.taken? answer).getD "" ++ String.join (taken log) := by
  unfold taken
  cases h : step.taken? answer <;> simp [h]

theorem Settled.run (h : r.Settled) (steps : List Step) : (r.run steps).2.Settled := by
  induction steps generalizing r with
  | nil => exact h
  | cons step rest ih => exact ih (h.step step)

theorem reads_run (r : Reader) (steps : List Step) :
    r.cursor.Reads (String.join (taken (r.run steps).1)) (r.run steps).2.cursor := by
  induction steps generalizing r with
  | nil => exact .refl r.cursor
  | cons step rest ih =>
    rw [run, taken_cons]
    exact (r.reads_step step).trans (ih (r.step step).2)

/-- Wherever reading starts and whatever steps it takes, the position stays between the first one
and the end of the text, and the pieces that were taken are what the text holds between the first
position and the present one.  From there a step goes onward or stays; it stays if it only looks,
and it stays if it finds nothing, which depends on the next character alone. -/
theorem reading_ofText (text : String) (separators : Separators) (position : Int)
    (steps : List Step) :
    let start := ofText text separators position
    let r := (start.run steps).2
    (start.position : Int) = max 0 (min position text.length) ∧
      start.position ≤ r.position ∧ r.position ≤ text.length ∧
      String.join (taken (start.run steps).1) =
        String.ofList (text.toList.extract start.position r.position) ∧
      (∀ step, r.position ≤ (r.step step).2.position ∧
        (step.consumes = false ∨ (r.step step).1.text? = none →
          (r.step step).2.cursor = r.cursor)) ∧
      ((r.step .nextWord).1 = .text none ↔ r.position = text.length ∨
        ∃ d, text.toList[r.position]? = some d ∧ separators.contains d = true) ∧
      ((r.step .nextSeparators).1 = .text none ↔ r.position = text.length ∨
        ∃ d, text.toList[r.position]? = some d ∧ separators.contains d = false) ∧
      ((r.step .nextChar).1 = .char none ↔ r.position = text.length) ∧
      ∀ iterator, (r.step (.nextSpan iterator)).1 = .span none ↔ r.position = text.length := by
  intro start r
  have hreads : start.cursor.Reads _ r.cursor := reads_run start steps
  have hsettled : r.Settled := (settled_ofText text separators position).run steps
  have hstart : start.cursor.source = text := Cursor.source_ofText text separators position
  have hsource : r.cursor.source = text := hreads.source_eq.trans hstart
  have hset : r.cursor.separators = separators := hreads.separators
  have hend : r.cursor.ahead = [] ↔ r.position = text.length := by
    rw [Cursor.ahead_eq_nil_iff, hsource, Reader.position]
  have hnext : text.toList[r.position]? = r.cursor.ahead.head? := by
    rw [← hsource]
    exact r.cursor.getElem?_position
  have hword := r.cursor.nextWord_eq_none_iff
  have hseparators := r.cursor.nextSeparators_eq_none_iff
  rw [hend, ← hnext, hset] at hword hseparators
  refine ⟨Cursor.position_ofText text separators position, hreads.position_le, ?_, ?_, ?_, ?_, ?_,
    ?_, ?_⟩
  · exact hsource ▸ r.cursor.position_le_length
  · have hextract := hreads.eq_extract
    rwa [hstart] at hextract
  · intro step
    exact ⟨(r.reads_step step).position_le, cursor_step_of_not_taken⟩
  · simpa [step] using hword
  · simpa [step] using hseparators
  · rw [← hend, ← Cursor.nextChar_eq_none_iff]
    simp [step]
  · intro iterator
    rw [← hend, ← hsettled.nextSpan_eq_none_iff iterator]
    simp [step]

-- Two iterators and direct reads, from the middle of a word on.
example : taken ((ofText "ab (c" .standard 1).run
    [.nextSpan 0, .nextChar, .nextSpan 1, .nextWord, .nextSpan 0, .nextSpan 1]).1 =
      ["b", " ", "(", "c"] := by
  decide +kernel

end Reader

end Vernacular
