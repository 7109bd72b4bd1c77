import Vernacular.Proofs.Word.Runs

/-!
# Mapping the words of a text

Replacing words is a map over the words of a text, and it obeys the laws of one: equal maps on the
words give equal texts, and two passes are one pass of the composite as long as the first pass turns
words into words.  A second pass then finds the same spans again.
-/

namespace Vernacular.Separators

variable {s : Separators} {f g : String → String} {text : String}

/-! ## Words -/

/-- A string that is one word wherever separators stand around it. -/
structure IsWord (s : Separators) (word : String) : Prop where
  nonempty : word ≠ ""
  chars : ∀ c ∈ word.toList, s.contains c = false

-- Goes along the list: deciding the quantifier as it stands may go through all characters.
instance (s : Separators) (word : String) : Decidable (s.IsWord word) :=
  decidable_of_iff (word ≠ "" ∧ word.toList.all (fun c => !s.contains c) = true)
    ⟨fun h => ⟨h.1, by simpa using h.2⟩, fun h => ⟨h.nonempty, by simpa using h.chars⟩⟩

theorem IsWord.getD {word : String} {found : Option String} (hword : s.IsWord word)
    (hfound : ∀ other ∈ found, s.IsWord other) : s.IsWord (found.getD word) := by
  cases found with
  | none => exact hword
  | some other => exact hfound other rfl

def words (s : Separators) (text : String) : List String :=
  ((s.spans text).filter Span.isWord).map Span.text

theorem isRun_word_iff {word : String} : s.IsRun .word word.toList ↔ s.IsWord word := by
  constructor
  · intro h
    refine ⟨?_, fun c hc => kindOf_eq_word.mp (h.uniform c hc)⟩
    rintro rfl
    exact h.nonempty rfl
  · intro h
    refine ⟨?_, fun c hc => kindOf_eq_word.mpr (h.chars c hc)⟩
    simpa using h.nonempty

@[simp] theorem text_ofRun (s : Separators) (start : Nat) (run : List Char) :
    (Span.ofRun s start run).text = String.ofList run := rfl

@[simp] theorem kind_ofRun (s : Separators) (start : Nat) (run : List Char) :
    (Span.ofRun s start run).kind = s.runKind run := rfl

theorem words_ofRuns (start : Nat) (runs : List (List Char)) :
    ((Span.ofRuns s start runs).filter Span.isWord).map Span.text =
      (runs.filter fun run => s.runKind run = .word).map String.ofList := by
  induction runs generalizing start with
  | nil => rfl
  | cons run rest ih =>
    rw [Span.ofRuns, List.filter_cons, List.filter_cons, Span.isWord, kind_ofRun]
    cases s.runKind run with
    | word => simp [ih]
    | separator => simpa using ih _

theorem mem_words {word : String} :
    word ∈ s.words text ↔ word.toList ∈ s.runs text.toList ∧ s.runKind word.toList = .word := by
  rw [words, spans, spansFrom, words_ofRuns, List.mem_map]
  constructor
  · rintro ⟨run, hrun, rfl⟩
    simpa using hrun
  · intro h
    exact ⟨word.toList, by simpa using h, String.ofList_toList⟩

theorem isWord_of_mem_words {word : String} (h : word ∈ s.words text) : s.IsWord word := by
  obtain ⟨hrun, hkind⟩ := mem_words.mp h
  exact isRun_word_iff.mp (hkind ▸ (s.alternating_runs _).isRun _ hrun)

theorem ofList_mem_words {run : List Char} (hrun : run ∈ s.runs text.toList)
    (hkind : s.runKind run = .word) : String.ofList run ∈ s.words text :=
  mem_words.mpr (by simp [hrun, hkind])

/-! ## The map -/

def onChars (f : String → String) (word : List Char) : List Char := (f (String.ofList word)).toList

def mapWords (s : Separators) (f : String → String) (text : String) : String :=
  String.ofList (s.replaceFrom (onChars f) [] text.toList)

theorem replaceWords_eq_mapWords (s : Separators) (lookup : String → Option String)
    (text : String) :
    s.replaceWords lookup text = s.mapWords (fun word => (lookup word).getD word) text := by
  have hsubstitute : substitute lookup = onChars (fun word => (lookup word).getD word) := by
    funext word
    unfold substitute onChars
    cases hentry : lookup (String.ofList word) <;> simp [hentry]
  rw [replaceWords, mapWords, hsubstitute]

theorem toList_mapWords (s : Separators) (f : String → String) (text : String) :
    (s.mapWords f text).toList =
      ((s.runs text.toList).map (s.rewriteRun (onChars f))).flatten := by
  rw [mapWords, String.toList_ofList, replaceFrom_eq_flatten]

theorem rewriteRun_congr {run : List Char} (hrun : run ∈ s.runs text.toList)
    (h : ∀ word ∈ s.words text, f word = g word) :
    s.rewriteRun (onChars f) run = s.rewriteRun (onChars g) run := by
  unfold rewriteRun
  cases hkind : s.runKind run with
  | separator => rfl
  | word =>
    simp [onChars, h _ (ofList_mem_words hrun hkind)]

theorem mapWords_congr (h : ∀ word ∈ s.words text, f word = g word) :
    s.mapWords f text = s.mapWords g text := by
  rw [← String.toList_inj, toList_mapWords, toList_mapWords]
  exact congrArg List.flatten (List.map_congr_left fun run hrun => rewriteRun_congr hrun h)

/-- A map leaves a text alone just when it leaves every word alone. -/
theorem mapWords_eq_self_iff : s.mapWords f text = text ↔ ∀ word ∈ s.words text, f word = word := by
  constructor
  · intro hsame word hword
    have hflat : ((s.runs text.toList).map (s.rewriteRun (onChars f))).flatten =
        (s.runs text.toList).flatten := by
      rw [← toList_mapWords, hsame, flatten_runs]
    obtain ⟨hrun, hkind⟩ := mem_words.mp hword
    have hfixed := (s.alternating_runs _).flatten_map_rewriteRun_eq_iff.mp hflat _ hrun
    rw [rewriteRun, hkind] at hfixed
    exact String.toList_inj.mp (by simpa [onChars] using hfixed)
  · intro h
    have hid : s.rewriteRun (onChars id) = id := by
      funext run
      unfold rewriteRun
      cases s.runKind run <;> simp [onChars]
    have hsame : s.mapWords f text = s.mapWords id text := mapWords_congr h
    rw [hsame, ← String.toList_inj, toList_mapWords, hid, List.map_id, flatten_runs]

/-! ## Pieces -/

/-- A change of texts that may as well be made on both sides of every `c` apart. -/
def Piecewise (c : Char) (change : String → String) : Prop :=
  ∀ before after, change (before ++ String.singleton c ++ after) =
    change before ++ String.singleton c ++ change after

/-- What stands before, between and after the occurrences of `c`; with the newline, the lines. -/
def pieces (c : Char) (text : String) : List String :=
  (text.toList.splitOn c).map String.ofList

theorem pieces_ne_nil (c : Char) (text : String) : pieces c text ≠ [] := by
  rw [pieces, ne_eq, List.map_eq_nil_iff]
  exact List.splitOn_ne_nil c text.toList

theorem intercalate_pieces (c : Char) (text : String) :
    (String.singleton c).intercalate (pieces c text) = text := by
  have htext : (pieces c text).map String.toList = text.toList.splitOn c := by
    simp [pieces, Function.comp_def]
  rw [← String.toList_inj, String.toList_intercalate, htext, String.toList_singleton,
    List.intercalate_splitOn]

theorem Piecewise.comp {c : Char} {first next : String → String} (hnext : Piecewise c next)
    (hfirst : Piecewise c first) : Piecewise c (next ∘ first) := by
  intro before after
  simp only [Function.comp_apply]
  rw [hfirst, hnext]

theorem Piecewise.intercalate {c : Char} {change : String → String} (h : Piecewise c change)
    {texts : List String} (hsome : texts ≠ []) :
    change ((String.singleton c).intercalate texts) =
      (String.singleton c).intercalate (texts.map change) := by
  induction texts with
  | nil => exact absurd rfl hsome
  | cons first rest ih =>
    by_cases hrest : rest = []
    · simp [hrest]
    · have hmapped : rest.map change ≠ [] := by simpa using hrest
      rw [String.intercalate_cons_of_ne_nil hrest, h, ih hrest, List.map_cons,
        String.intercalate_cons_of_ne_nil hmapped]

theorem Piecewise.eq_intercalate {c : Char} {change : String → String} (h : Piecewise c change)
    (text : String) :
    change text = (String.singleton c).intercalate ((pieces c text).map change) := by
  rw [← h.intercalate (pieces_ne_nil c text), intercalate_pieces]

theorem piecewise_mapWords {c : Char} (hc : s.contains c = true) (f : String → String) :
    Piecewise c (s.mapWords f) := by
  intro before after
  rw [← String.toList_inj]
  simp [mapWords, replaceFrom_cut [] _ _ hc]

/-! ## A second pass -/

theorem runs_mapWords (h : ∀ word ∈ s.words text, s.IsWord (f word)) :
    s.runs (s.mapWords f text).toList =
      (s.runs text.toList).map (s.rewriteRun (onChars f)) := by
  rw [toList_mapWords]
  apply Alternating.runs_flatten
  apply (s.alternating_runs _).map_rewriteRun
  intro run hrun hkind
  exact isRun_word_iff.mpr (h _ (ofList_mem_words hrun hkind))

theorem rewriteRun_rewriteRun {run : List Char} (hrun : run ∈ s.runs text.toList)
    (h : ∀ word ∈ s.words text, s.IsWord (f word)) :
    s.rewriteRun (onChars g) (s.rewriteRun (onChars f) run) =
      s.rewriteRun (onChars fun word => g (f word)) run := by
  cases hkind : s.runKind run with
  | separator => simp [rewriteRun, hkind]
  | word =>
    have hagain : s.runKind (f (String.ofList run)).toList = .word :=
      (isRun_word_iff.mpr (h _ (ofList_mem_words hrun hkind))).runKind_eq
    simp [rewriteRun, hkind, onChars, hagain]

theorem mapWords_mapWords (h : ∀ word ∈ s.words text, s.IsWord (f word)) :
    s.mapWords g (s.mapWords f text) = s.mapWords (fun word => g (f word)) text := by
  rw [← String.toList_inj, toList_mapWords, runs_mapWords h, toList_mapWords, List.map_map]
  exact congrArg List.flatten
    (List.map_congr_left fun run hrun => rewriteRun_rewriteRun hrun h)

/-- Two passes are one as soon as they are one on every word. -/
theorem mapWords_mapWords_of_forall {h : String → String}
    (hwords : ∀ word, s.IsWord word → s.IsWord (f word)) (honce : ∀ word, g (f word) = h word)
    (text : String) : s.mapWords g (s.mapWords f text) = s.mapWords h text := by
  rw [mapWords_mapWords fun word hword => hwords word (isWord_of_mem_words hword)]
  exact mapWords_congr fun word _ => honce word

end Vernacular.Separators

/-! ## Spans of the mapped text -/

namespace Vernacular.Span

def mapText (f : String → String) (span : Span) : String :=
  match span.kind with
  | .word => f span.text
  | .separator => span.text

/-- The second span stands where the first one stood, with the text mapped if it is a word. -/
structure MapsTo (f : String → String) (old new : Span) : Prop where
  kind : new.kind = old.kind
  text : new.text = old.mapText f

end Vernacular.Span

namespace Vernacular.Separators

variable {s : Separators} {f : String → String} {text : String}

theorem toList_mapText_ofRun (start : Nat) (run : List Char) :
    ((Span.ofRun s start run).mapText f).toList = s.rewriteRun (onChars f) run := by
  rw [Span.mapText, kind_ofRun, text_ofRun, rewriteRun]
  cases s.runKind run with
  | word => rfl
  | separator => exact String.toList_ofList

theorem flatMap_mapText_ofRuns (start : Nat) (runs : List (List Char)) :
    (Span.ofRuns s start runs).flatMap (fun span => (span.mapText f).toList) =
      (runs.map (s.rewriteRun (onChars f))).flatten := by
  induction runs generalizing start with
  | nil => rfl
  | cons run rest ih =>
    rw [Span.ofRuns, List.flatMap_cons, toList_mapText_ofRun, ih, List.map_cons,
      List.flatten_cons]

theorem mapWords_eq_join (s : Separators) (f : String → String) (text : String) :
    s.mapWords f text = String.join ((s.spans text).map (Span.mapText f)) := by
  rw [← String.toList_inj, toList_mapWords, String.toList_join, List.flatMap_map, spans, spansFrom,
    flatMap_mapText_ofRuns]

theorem ofRun_mapsTo {run : List Char} (old new : Nat)
    (hkind : s.runKind (s.rewriteRun (onChars f) run) = s.runKind run) :
    (Span.ofRun s old run).MapsTo f (Span.ofRun s new (s.rewriteRun (onChars f) run)) := by
  refine ⟨hkind, ?_⟩
  rw [text_ofRun, ← toList_mapText_ofRun old, String.ofList_toList]

theorem forall₂_ofRuns {runs : List (List Char)} (old new : Nat)
    (hkinds : ∀ run ∈ runs, s.runKind (s.rewriteRun (onChars f) run) = s.runKind run) :
    List.Forall₂ (Span.MapsTo f) (Span.ofRuns s old runs)
      (Span.ofRuns s new (runs.map (s.rewriteRun (onChars f)))) := by
  induction runs generalizing old new with
  | nil => exact .nil
  | cons run rest ih =>
    rw [List.forall_mem_cons] at hkinds
    exact .cons (ofRun_mapsTo old new hkinds.1) (ih _ _ hkinds.2)

/-- As long as words become words, the spans of a text go over into those of the mapped text. -/
theorem spans_mapWords (h : ∀ word ∈ s.words text, s.IsWord (f word)) :
    List.Forall₂ (Span.MapsTo f) (s.spans text) (s.spans (s.mapWords f text)) := by
  rw [spans, spans, spansFrom, spansFrom, runs_mapWords h]
  apply forall₂_ofRuns
  intro run hrun
  refine (rewriteRun_isRun ((s.alternating_runs _).isRun run hrun) fun hkind => ?_).runKind_eq
  exact isRun_word_iff.mpr (h _ (ofList_mem_words hrun hkind))

/-! ## Characters of the mapped text -/

variable {c : Char}

theorem mem_of_mem_words {word : String} (hword : word ∈ s.words text) (hc : c ∈ word.toList) :
    c ∈ text.toList := by
  rw [← flatten_runs s text.toList, List.mem_flatten]
  exact ⟨word.toList, (mem_words.mp hword).1, hc⟩

theorem notMem_mapWords (htext : c ∉ text.toList)
    (hwords : ∀ word ∈ s.words text, c ∉ word.toList → c ∉ (f word).toList) :
    c ∉ (s.mapWords f text).toList := by
  rw [toList_mapWords, List.mem_flatten]
  rintro ⟨_, hrewritten, hc⟩
  obtain ⟨run, hrun, rfl⟩ := List.mem_map.mp hrewritten
  unfold rewriteRun at hc
  split at hc
  · next hkind =>
    have hword := ofList_mem_words hrun hkind
    exact hwords _ hword (fun hmem => htext (mem_of_mem_words hword hmem)) hc
  · apply htext
    rw [← flatten_runs s text.toList, List.mem_flatten]
    exact ⟨run, hrun, hc⟩

end Vernacular.Separators
