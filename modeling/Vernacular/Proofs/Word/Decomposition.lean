import Mathlib.Data.List.TakeWhile
import Vernacular.Proofs.Word.Reading
import Vernacular.Proofs.Word.Runs

/-!
# The decomposition of a text into spans

An iterator takes the spans of a text one by one.  What it takes is a decomposition: the spans stand
one behind the other from where it began to the end of the text, each is of one kind, and the next
one is of the other kind.  No other list of spans is one.
-/

namespace Vernacular

/-- The spans stand one behind the other, from one offset to another. -/
inductive Span.Adjoining : Nat → List Span → Nat → Prop
  | nil (offset : Nat) : Adjoining offset [] offset
  | cons {span : Span} {rest : List Span} {stop : Nat} (hrest : Adjoining span.stop rest stop) :
      Adjoining span.start (span :: rest) stop

theorem Span.adjoining_nil_iff {start stop : Nat} : Adjoining start [] stop ↔ start = stop := by
  constructor
  · rintro ⟨⟩
    rfl
  · rintro rfl
    exact .nil start

theorem Span.adjoining_cons_iff {span : Span} {rest : List Span} {start stop : Nat} :
    Adjoining start (span :: rest) stop ↔ span.start = start ∧ Adjoining span.stop rest stop := by
  constructor
  · rintro ⟨⟩
    exact ⟨rfl, ‹_›⟩
  · rintro ⟨rfl, hrest⟩
    exact .cons hrest

namespace Separators

variable {s : Separators} {source : String} {start : Nat} {span : Span} {spans rest : List Span}

/-- A span that stands in the source where it says, and whose characters are all of its kind. -/
structure Fits (s : Separators) (source : String) (span : Span) : Prop where
  nonempty : span.start < span.stop
  text : span.text = String.ofList (source.toList.extract span.start span.stop)
  chars : ∀ c ∈ span.text.toList, s.contains c = true ↔ span.kind = .separator

/-- Spans into which a source falls from an offset on. -/
structure Decomposes (s : Separators) (source : String) (start : Nat) (spans : List Span) :
    Prop where
  adjoining : Span.Adjoining start spans source.length
  fits : ∀ span ∈ spans, s.Fits source span
  alternate : spans.IsChain fun span next => next.kind ≠ span.kind

theorem decomposes_nil_iff : s.Decomposes source start [] ↔ start = source.length := by
  constructor
  · intro h
    exact Span.adjoining_nil_iff.mp h.adjoining
  · intro h
    exact ⟨Span.adjoining_nil_iff.mpr h, by simp, .nil⟩

theorem decomposes_cons_iff :
    s.Decomposes source start (span :: rest) ↔
      span.start = start ∧ s.Fits source span ∧ (∀ next ∈ rest.head?, next.kind ≠ span.kind) ∧
        s.Decomposes source span.stop rest := by
  constructor
  · rintro ⟨hadjoining, hfits, halternate⟩
    obtain ⟨hstart, hrest⟩ := Span.adjoining_cons_iff.mp hadjoining
    rw [List.forall_mem_cons] at hfits
    rw [List.isChain_cons] at halternate
    exact ⟨hstart, hfits.1, halternate.1, hrest, hfits.2, halternate.2⟩
  · rintro ⟨hstart, hfits, hnext, hrest⟩
    exact ⟨Span.adjoining_cons_iff.mpr ⟨hstart, hrest.adjoining⟩,
      List.forall_mem_cons.mpr ⟨hfits, hrest.fits⟩,
      List.isChain_cons.mpr ⟨hnext, hrest.alternate⟩⟩

theorem kindOf_eq_iff {c : Char} {kind : SpanKind} :
    s.kindOf c = kind ↔ (s.contains c = true ↔ kind = .separator) := by
  cases kind with
  | word => simp [kindOf_eq_word]
  | separator => simp [kindOf_eq_separator]

/-! ## There is only one -/

theorem Decomposes.start_le (h : s.Decomposes source start spans) : start ≤ source.length := by
  induction spans generalizing start with
  | nil => exact (decomposes_nil_iff.mp h).le
  | cons span rest ih =>
    obtain ⟨rfl, hfits, -, hrest⟩ := decomposes_cons_iff.mp h
    exact hfits.nonempty.le.trans (ih hrest)

theorem Fits.toList_text (h : s.Fits source span) :
    span.text.toList = (source.toList.drop span.start).take (span.stop - span.start) := by
  rw [h.text, String.toList_ofList, List.extract_eq_take_drop]

theorem Fits.isRun (h : s.Fits source span) (hstop : span.stop ≤ source.length) :
    s.IsRun span.kind span.text.toList := by
  refine ⟨?_, fun c hc => kindOf_eq_iff.mpr (h.chars c hc)⟩
  have hnonempty := h.nonempty
  rw [← List.length_pos_iff, h.toList_text, List.length_take, List.length_drop,
    String.length_toList]
  omega

theorem Fits.ofRun_eq (h : s.Fits source span) (hstop : span.stop ≤ source.length) :
    Span.ofRun s span.start span.text.toList = span := by
  have hkind : s.runKind span.text.toList = span.kind := (h.isRun hstop).runKind_eq
  have hlength : span.start + span.text.toList.length = span.stop := by
    have hnonempty := h.nonempty
    rw [h.toList_text, List.length_take, List.length_drop, String.length_toList]
    omega
  cases span
  simp_all [Span.ofRun, runKind]

def texts (spans : List Span) : List (List Char) := spans.map fun span => span.text.toList

theorem Decomposes.flatten_texts (h : s.Decomposes source start spans) :
    (texts spans).flatten = source.toList.drop start := by
  induction spans generalizing start with
  | nil =>
    rw [decomposes_nil_iff.mp h, ← String.length_toList, List.drop_length]
    rfl
  | cons span rest ih =>
    obtain ⟨rfl, hfits, -, hrest⟩ := decomposes_cons_iff.mp h
    have hlater : source.toList.drop span.stop =
        (source.toList.drop span.start).drop (span.stop - span.start) := by
      rw [List.drop_drop, Nat.add_sub_cancel' hfits.nonempty.le]
    rw [texts, List.map_cons, List.flatten_cons, ← texts, ih hrest, hfits.toList_text, hlater,
      List.take_append_drop]

theorem Decomposes.alternating (h : s.Decomposes source start spans) :
    s.Alternating (texts spans) := by
  induction spans generalizing start with
  | nil => exact .nil
  | cons span rest ih =>
    obtain ⟨rfl, hfits, hnext, hrest⟩ := decomposes_cons_iff.mp h
    refine .cons (hfits.isRun hrest.start_le) ?_ (ih hrest)
    intro run hrun
    rw [List.head?_map, Option.mem_def, Option.map_eq_some_iff] at hrun
    obtain ⟨next, hhead, rfl⟩ := hrun
    cases rest with
    | nil => cases hhead
    | cons first later =>
      obtain rfl := Option.some.inj hhead
      obtain ⟨-, hfirst, -, hlater⟩ := decomposes_cons_iff.mp hrest
      rw [(hfirst.isRun hlater.start_le).runKind_eq]
      exact hnext first rfl

theorem Decomposes.ofRuns_texts (h : s.Decomposes source start spans) :
    Span.ofRuns s start (texts spans) = spans := by
  induction spans generalizing start with
  | nil => rfl
  | cons span rest ih =>
    obtain ⟨rfl, hfits, -, hrest⟩ := decomposes_cons_iff.mp h
    have hspan := hfits.ofRun_eq hrest.start_le
    have hstop : span.start + span.text.toList.length = span.stop := congrArg Span.stop hspan
    rw [texts, List.map_cons, Span.ofRuns, hspan, hstop]
    exact congrArg (span :: ·) (ih hrest)

theorem Decomposes.eq_spansFrom (h : s.Decomposes source start spans) :
    spans = s.spansFrom start (source.toList.drop start) := by
  rw [spansFrom, ← h.flatten_texts, h.alternating.runs_flatten, h.ofRuns_texts]

end Separators

/-! ## Taking spans one by one -/

namespace Cursor

variable {c moved : Cursor} {accepts : Char → Bool} {text : String} {span : Span}

/-- From one cursor to the other stands a longest run of characters that are accepted. -/
structure ReadsRun (c : Cursor) (accepts : Char → Bool) (text : String) (moved : Cursor) :
    Prop where
  reads : c.Reads text moved
  nonempty : text ≠ ""
  accepted : ∀ d ∈ text.toList, accepts d = true
  stopped : ∀ d ∈ moved.ahead.head?, accepts d = false

theorem ReadsRun.length_ahead (h : c.ReadsRun accepts text moved) :
    moved.ahead.length < c.ahead.length := by
  have hpos : 0 < text.length := by
    rw [← String.length_toList, List.length_pos_iff]
    simpa using h.nonempty
  rw [h.reads.ahead, List.length_append, String.length_toList]
  omega

theorem ReadsRun.exists_head (h : c.ReadsRun accepts text moved) :
    ∃ d, c.ahead.head? = some d ∧ accepts d = true := by
  have hnonempty : text.toList ≠ [] := by simpa using h.nonempty
  obtain ⟨d, rest, htext⟩ := List.exists_cons_of_ne_nil hnonempty
  refine ⟨d, ?_, h.accepted d (by simp [htext])⟩
  rw [h.reads.ahead, htext]
  rfl

theorem readsRun_past (h : c.past (c.runAhead accepts) = (some text, moved)) :
    c.ReadsRun accepts text moved := by
  have hreads := c.reads_past accepts
  rw [h] at hreads
  have hrun : c.runAhead accepts = some text := by rw [← c.fst_past (c.runAhead accepts), h]
  have htext := toList_of_runAhead hrun
  have hrest : moved.ahead = c.ahead.dropWhile accepts := by
    have hahead : text.toList ++ moved.ahead = c.ahead := hreads.ahead.symm
    rw [htext] at hahead
    exact List.append_cancel_left (hahead.trans List.takeWhile_append_dropWhile.symm)
  refine ⟨hreads, ?_, ?_, ?_⟩
  · rintro rfl
    have hnone : c.runAhead accepts = none := by
      unfold runAhead
      rw [← htext]
      rfl
    rw [hnone] at hrun
    cases hrun
  · intro d hd
    rw [htext] at hd
    exact List.mem_takeWhile_imp hd
  · have hhead := List.head?_dropWhile_not accepts c.ahead
    rw [← hrest] at hhead
    intro d hd
    rw [Option.mem_def.mp hd] at hhead
    simpa using hhead

/-- What an iterator reads in one step: a longest run of one kind, with its place. -/
structure ReadsSpan (c : Cursor) (span : Span) (moved : Cursor) : Prop where
  run : c.ReadsRun (fun d => c.separators.kindOf d = span.kind) span.text moved
  start : span.start = c.position
  stop : span.stop = moved.position

theorem readsSpan_past {kind : SpanKind} {found : Option String × Cursor}
    (hfound : c.past (c.runAhead fun d => c.separators.kindOf d = kind) = found)
    (h : (found.1.map (⟨kind, ·, c.position, found.2.position⟩), found.2) = (some span, moved)) :
    c.ReadsSpan span moved := by
  obtain ⟨hspan, hmoved⟩ := Prod.mk.inj h
  obtain ⟨text, htext, rfl⟩ := Option.map_eq_some_iff.mp hspan
  exact ⟨readsRun_past (hfound.trans (Prod.ext htext hmoved)), rfl, congrArg position hmoved⟩

theorem isWordChar_eq (c : Cursor) :
    c.isWordChar = fun d => decide (c.separators.kindOf d = .word) := by
  funext d
  rw [isWordChar]
  cases hd : c.separators.contains d <;> simp [Separators.kindOf, hd]

theorem readsSpan_nextSpan (h : c.nextSpan = (some span, moved)) : c.ReadsSpan span moved := by
  rw [nextSpan_eq] at h
  split at h
  · refine readsSpan_past ?_ h
    rw [nextWord, peekWord, isWordChar_eq]
  · refine readsSpan_past ?_ h
    simp [nextSeparators, peekSeparators, Separators.kindOf_eq_separator]

/-- Takes spans until there are none. -/
def takeSpans (c : Cursor) : List Span :=
  match _ : c.nextSpan with
  | (none, _) => []
  | (some span, moved) => span :: moved.takeSpans
termination_by c.ahead.length
decreasing_by exact (readsSpan_nextSpan ‹_›).run.length_ahead

theorem head?_takeSpans (c : Cursor) : c.takeSpans.head? = c.nextSpan.1 := by
  rw [takeSpans]
  split
  · next hnext => simp [hnext]
  · next hnext => simp [hnext]

theorem ReadsSpan.fits (h : c.ReadsSpan span moved) : c.separators.Fits c.source span where
  nonempty := by
    have hlength := h.run.length_ahead
    have hsource := congrArg String.length h.run.reads.source_eq
    rw [length_source, length_source] at hsource
    rw [h.start, h.stop]
    omega
  text := by rw [h.start, h.stop, ← h.run.reads.eq_extract]
  chars := by
    intro d hd
    exact Separators.kindOf_eq_iff.mp (by simpa using h.run.accepted d hd)

/-- The next span is of the other kind, since the one before it was read as far as it goes. -/
theorem ReadsSpan.kind_ne {next : Span} {last : Cursor} (h : c.ReadsSpan span moved)
    (hnext : moved.ReadsSpan next last) : next.kind ≠ span.kind := by
  obtain ⟨d, hhead, hkind⟩ := hnext.run.exists_head
  have hstopped := h.run.stopped d hhead
  rw [h.run.reads.separators] at hkind
  rintro hsame
  rw [hsame, hstopped] at hkind
  cases hkind

theorem decomposes_takeSpans (c : Cursor) :
    c.separators.Decomposes c.source c.position c.takeSpans := by
  fun_induction takeSpans c with
  | case1 c moved hnext =>
    rw [Separators.decomposes_nil_iff, ← ahead_eq_nil_iff, ← nextSpan_eq_none_iff, hnext]
  | case2 c span moved hnext ih =>
    have hspan := readsSpan_nextSpan hnext
    rw [hspan.run.reads.source_eq, hspan.run.reads.separators, ← hspan.stop] at ih
    refine Separators.decomposes_cons_iff.mpr ⟨hspan.start, hspan.fits, ?_, ih⟩
    intro next hhead
    rw [head?_takeSpans] at hhead
    exact hspan.kind_ne (readsSpan_nextSpan (Prod.ext hhead rfl))

/-- The spans of what lies ahead are those that an iterator takes one by one. -/
theorem spans_eq_takeSpans (c : Cursor) : c.spans = c.takeSpans := by
  rw [spans, ← c.drop_position]
  exact c.decomposes_takeSpans.eq_spansFrom.symm

/-- From wherever an iterator begins, the spans that it takes are the one decomposition of the text
that is left into longest runs of words and separators. -/
theorem decomposes_ofText_iff (source : String) (s : Separators) (position : Int) :
    let c := ofText source s position
    (c.position : Int) = max 0 (min position source.length) ∧ c.takeSpans = c.spans ∧
      ∀ spans, s.Decomposes source c.position spans ↔ spans = c.spans := by
  intro c
  have hsource : c.source = source := source_ofText source s position
  refine ⟨position_ofText source s position, c.spans_eq_takeSpans.symm, ?_⟩
  intro spans
  constructor
  · intro h
    rw [h.eq_spansFrom, ← hsource, drop_position]
    rfl
  · rintro rfl
    have htaken := c.decomposes_takeSpans
    rwa [hsource, ← spans_eq_takeSpans] at htaken

-- From the second of two blanks on.
example :
    ((ofText "  ab( c" .standard 1).spans).map (fun span => (span.text, span.start, span.stop)) =
      [(" ", 1, 2), ("ab", 2, 4), ("( ", 4, 6), ("c", 6, 7)] := by
  decide +kernel

end Cursor
end Vernacular
